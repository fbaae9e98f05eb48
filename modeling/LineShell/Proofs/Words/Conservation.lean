import LineShell.Proofs.Words.Stepwise

/-!
# What words keep of a line

Scanning drops spaces, quotes and backslashes, and nothing else; it adds nothing, and it keeps the
order of what is left.  In double quotes a backslash comes into its word only with the character
behind it, or with the end of the line, so it has to be counted in from where it was read.
-/

namespace LineShell.Words

def marks : Text := [' ', '\'', '"', '\\']

def stripped (t : Text) : Text := t.filter (· ∉ marks)

@[simp] theorem stripped_append (t u : Text) : stripped (t ++ u) = stripped t ++ stripped u :=
  List.filter_append t u

def held (scanned : Text × List Text) : Text := scanned.1 ++ scanned.2.flatten

@[simp] theorem flatten_close (scanned : Text × List Text) :
    (close scanned).flatten = held scanned := by
  obtain ⟨word, later⟩ := scanned
  cases word <;> simp [close, held]

@[simp] theorem held_prepend (t : Text) (scanned : Text × List Text) :
    held (prepend t scanned) = t ++ held scanned := by
  simp [held, prepend]

theorem held_scan_nil (q : Quoting) : held (scan q []) = q.pending := by
  simp [scan_nil, held]

/-- In one text it does not matter where words end, and a separator is as any other character. -/
theorem held_scan_cons (q : Quoting) (c : Char) (rest : Text) :
    held (scan q (c :: rest)) = q.adds c ++ held (scan (q.next c) rest) := by
  by_cases h : q = .bare ∧ c = ' '
  · obtain ⟨rfl, rfl⟩ := h
    rw [scan_separator, held, flatten_close]
    rfl
  · rw [scan_cons h, held_prepend]

/-! ## One character -/

theorem adds_cases (q : Quoting) (c : Char) :
    (q.adds c = [] ∧ c ∈ marks) ∨ q.adds c = [c] ∨ (q = .doubleEscape ∧ q.adds c = ['\\', c]) := by
  cases q <;> grind [Quoting.adds, marks]

theorem stripped_adds (q : Quoting) (c : Char) : stripped (q.adds c) = stripped [c] := by
  rcases adds_cases q c with ⟨hnone, hmark⟩ | hsame | ⟨-, hboth⟩
  · simp [hnone, stripped, hmark]
  · rw [hsame]
  · simp [hboth, stripped, marks]

theorem pending_next (q : Quoting) (c : Char) :
    (q.next c).pending = [] ∨ (q.adds c = [] ∧ (q.next c).pending = [c]) := by
  fun_cases Quoting.next q c <;> simp [Quoting.pending, Quoting.adds]

theorem adds_sublist (q : Quoting) (c : Char) :
    (q.adds c ++ (q.next c).pending).Sublist (q.pending ++ [c]) := by
  rcases pending_next q c with hnone | ⟨hadds, hsome⟩
  · rw [hnone, List.append_nil]
    rcases adds_cases q c with ⟨hadds, -⟩ | hadds | ⟨rfl, hadds⟩
    · simp [hadds]
    · simp [hadds]
    · rw [hadds]
      exact List.Sublist.refl _
  · rw [hadds, hsome]
    exact List.sublist_append_right q.pending [c]

/-! ## A line -/

theorem nil_not_mem_close {scanned : Text × List Text} (h : [] ∉ scanned.2) :
    [] ∉ close scanned := by
  obtain ⟨word, later⟩ := scanned
  cases word <;> simpa [close] using h

theorem nil_not_mem_scan (q : Quoting) (line : Text) : [] ∉ (scan q line).2 := by
  induction line generalizing q with
  | nil => simp [scan_nil]
  | cons c rest ih =>
      by_cases h : q = .bare ∧ c = ' '
      · obtain ⟨rfl, rfl⟩ := h
        exact nil_not_mem_close (ih .bare)
      · rw [scan_cons h]
        exact ih (q.next c)

theorem stripped_scan (q : Quoting) (line : Text) :
    stripped (held (scan q line)) = stripped line := by
  induction line generalizing q with
  | nil => cases q <;> rfl
  | cons c rest ih =>
      rw [held_scan_cons, stripped_append, stripped_adds, ih, ← stripped_append,
        List.singleton_append]

theorem held_scan_sublist (q : Quoting) (line : Text) :
    (held (scan q line)).Sublist (q.pending ++ line) := by
  induction line generalizing q with
  | nil => simp [held_scan_nil]
  | cons c rest ih =>
      rw [held_scan_cons]
      have hrest : (q.adds c ++ held (scan (q.next c) rest)).Sublist
          (q.adds c ++ (q.next c).pending ++ rest) := by
        rw [List.append_assoc]
        exact (ih (q.next c)).append_left (q.adds c)
      have hfirst : (q.adds c ++ (q.next c).pending ++ rest).Sublist (q.pending ++ [c] ++ rest) :=
        (adds_sublist q c).append_right rest
      simpa using hrest.trans hfirst

/-- No word is empty.  But for spaces, quotes and backslashes the words hold what the line holds,
and all that they hold is in the line, in the same order and as often at least. -/
theorem ofLine_conserves (line : Text) :
    [] ∉ ofLine line ∧
      stripped (ofLine line).flatten = stripped line ∧
      (ofLine line).flatten.Sublist line ∧
      ∀ c, (ofLine line).flatten.count c ≤ line.count c := by
  have hsublist : (ofLine line).flatten.Sublist line := by
    simpa [ofLine, Quoting.pending] using held_scan_sublist .bare line
  refine ⟨nil_not_mem_close (nil_not_mem_scan .bare line), ?_, hsublist,
    fun c => hsublist.count_le c⟩
  rw [ofLine, flatten_close, stripped_scan]

end LineShell.Words
