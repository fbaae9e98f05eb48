import LineShell.Proofs.Words.Stepwise

/-!
# Lines put together

Behind a part of a line the scanner has completed some words and is reading another.  What it goes
on with cannot reach the completed ones.  If the part is closed, a space completes the word that is
being read as well, and the rest is scanned as a line of its own.
-/

namespace LineShell.Words

theorem close_eq (word : Text) (later : List Text) :
    close (word, later) = close (word, []) ++ later := by
  cases word <;> rfl

theorem length_close_le (word : Text) : (close (word, [])).length ≤ 1 := by
  cases word <;> simp [close]

/-- The words that a part of a line completes, the beginning of the next one, and the quoting
behind that. -/
structure Progress where
  completed : List Text
  word : Text
  quoting : Quoting
  deriving DecidableEq, Repr

namespace Progress

def start : Progress := ⟨[], [], .bare⟩

def advance (p : Progress) (c : Char) : Progress :=
  if p.quoting = .bare ∧ c = ' ' then
    { completed := p.completed ++ close (p.word, []), word := [], quoting := .bare }
  else
    { completed := p.completed, word := p.word ++ p.quoting.adds c, quoting := p.quoting.next c }

def read (p : Progress) (part : Text) : Progress := part.foldl advance p

def resume (p : Progress) (rest : Text) : List Text :=
  p.completed ++ close (prepend p.word (scan p.quoting rest))

theorem resume_start (line : Text) : start.resume line = ofLine line := by
  simp [start, resume, ofLine]

theorem resume_nil (p : Progress) :
    p.resume [] = p.completed ++ close (p.word ++ p.quoting.pending, []) := by
  simp [resume, scan_nil, prepend]

/-- A separator completes the word that is being read, and the scan begins anew behind it. -/
theorem resume_separator {p : Progress} (h : p.quoting = .bare) (rest : Text) :
    p.resume (' ' :: rest) = p.resume [] ++ ofLine rest := by
  simp only [resume, h, scan_separator, scan_nil, Quoting.pending, prepend, List.append_nil]
  rw [close_eq, List.append_assoc]
  rfl

theorem resume_cons (p : Progress) (c : Char) (rest : Text) :
    p.resume (c :: rest) = (p.advance c).resume rest := by
  unfold advance
  split
  · next h =>
      obtain ⟨hbare, rfl⟩ := h
      rw [resume_separator hbare, resume_nil, hbare]
      simp [resume, Quoting.pending, ofLine]
  · next h => simp [resume, scan_cons h]

theorem resume_append (p : Progress) (part rest : Text) :
    p.resume (part ++ rest) = (p.read part).resume rest := by
  induction part generalizing p with
  | nil => rfl
  | cons c part ih => rw [List.cons_append, resume_cons, ih]; rfl

theorem quoting_advance (p : Progress) (c : Char) :
    (p.advance c).quoting = p.quoting.next c := by
  unfold advance
  split
  · next h => rw [h.1, h.2]; rfl
  · rfl

theorem quoting_read (p : Progress) (part : Text) :
    (p.read part).quoting = p.quoting.after part := by
  induction part generalizing p with
  | nil => rfl
  | cons c part ih =>
      rw [Quoting.after_cons, ← quoting_advance]
      exact ih (p.advance c)

end Progress

open Progress in
theorem ofLine_append (part rest : Text) :
    ofLine (part ++ rest) = (start.read part).resume rest := by
  rw [← resume_start, resume_append]

theorem ofLine_eq (line : Text) : ofLine line = (Progress.start.read line).resume [] := by
  simpa using ofLine_append line []

theorem ofLine_append_separator {part : Text} (h : Closed part) (rest : Text) :
    ofLine (part ++ ' ' :: rest) = ofLine part ++ ofLine rest := by
  have hquoting : (Progress.start.read part).quoting = .bare := by
    rw [Progress.quoting_read]
    exact closed_iff.mp h
  rw [ofLine_append, Progress.resume_separator hquoting, ofLine_eq part]

theorem length_ofLine_le (line : Text) :
    (ofLine line).length ≤ (Progress.start.read line).completed.length + 1 := by
  rw [ofLine_eq, Progress.resume_nil, List.length_append]
  exact Nat.add_le_add_left (length_close_le _) _

theorem getElem?_ofLine_append {part : Text} {i : Nat}
    (h : i < (Progress.start.read part).completed.length) (rest : Text) :
    (ofLine (part ++ rest))[i]? = (Progress.start.read part).completed[i]? := by
  rw [ofLine_append, Progress.resume, List.getElem?_append_left h]

/-- The words of a closed line and of another with a space between them are those of the one and
then those of the other.  Whatever is appended to a line, its words but the last stay where they
are, and the last does so too if a separator stands behind it. -/
theorem ofLine_composes (a b : Text) :
    (Closed a → ofLine (a ++ ' ' :: b) = ofLine a ++ ofLine b) ∧
      (∀ i, i + 1 < (ofLine a).length → (ofLine (a ++ b))[i]? = (ofLine a)[i]?) ∧
      ∀ front back, a = front ++ ' ' :: back → Closed front →
        ofLine front <+: ofLine a ∧ ofLine front <+: ofLine (a ++ b) := by
  refine ⟨fun hclosed => ofLine_append_separator hclosed b, ?_, ?_⟩
  · intro i hi
    have hcompleted : i < (Progress.start.read a).completed.length := by
      have hlength := length_ofLine_le a
      omega
    have hself := getElem?_ofLine_append hcompleted []
    rw [List.append_nil] at hself
    rw [getElem?_ofLine_append hcompleted b, hself]
  · rintro front back rfl hclosed
    rw [List.append_assoc, List.cons_append, ofLine_append_separator hclosed,
      ofLine_append_separator hclosed]
    exact ⟨List.prefix_append _ _, List.prefix_append _ _⟩

theorem ofLine_composes_quoted :
    let whole := "e \"x\\\" y\"z\\ ".toList
    let front := "e 'x y'".toList
    let cut := front ++ ' ' :: "\"z".toList
    let rest := "w\" v".toList
    (Closed whole ∧ ¬ Closed cut ∧ Closed front ∧ 1 + 1 < (ofLine cut).length) ∧
      ofLine (whole ++ ' ' :: rest) = ["e".toList, "x\" yz ".toList] ++ ["w v".toList] ∧
      (ofLine (cut ++ rest))[1]? = some "x y".toList ∧
      ofLine front <+: ofLine (cut ++ rest) := by
  intro whole front cut rest
  have hclosed : Closed whole ∧ ¬ Closed cut ∧ Closed front ∧ 1 + 1 < (ofLine cut).length := by
    decide +kernel
  have ⟨hwhole, _, hfront, hlength⟩ := hclosed
  obtain ⟨hcomposed, -⟩ := ofLine_composes whole rest
  obtain ⟨-, hstays, hseparated⟩ := ofLine_composes cut rest
  have hwords : ofLine whole ++ ofLine rest =
      ["e".toList, "x\" yz ".toList] ++ ["w v".toList] := by decide +kernel
  have hsecond : (ofLine cut)[1]? = some "x y".toList := by decide +kernel
  exact ⟨hclosed, (hcomposed hwhole).trans hwords, (hstays 1 hlength).trans hsecond,
    (hseparated front "\"z".toList rfl hfront).2⟩

end LineShell.Words
