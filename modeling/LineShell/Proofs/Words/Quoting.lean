import LineShell.Proofs.Words.Grammar

/-!
# Written words

A word is written in segments, each bare, in quotes or escaped character by character, and a line
puts spaces around its words.  However that is done, scanning the line gives the words back.
-/

namespace LineShell.Words

inductive Style where
  | bare
  | single
  | double
  | escaped
  deriving DecidableEq, Repr

namespace Style

def Admits : Style → Text → Prop
  | bare, t => ∀ c ∈ t, c ≠ ' ' ∧ c ≠ '\'' ∧ c ≠ '"' ∧ c ≠ '\\'
  | single, t => '\'' ∉ t
  | double, _ => True
  | escaped, _ => True

instance : ∀ (style : Style) (t : Text), Decidable (style.Admits t)
  | bare, t => inferInstanceAs (Decidable (∀ c ∈ t, c ≠ ' ' ∧ c ≠ '\'' ∧ c ≠ '"' ∧ c ≠ '\\'))
  | single, t => inferInstanceAs (Decidable ('\'' ∉ t))
  | double, _ => inferInstanceAs (Decidable True)
  | escaped, _ => inferInstanceAs (Decidable True)

def write : Style → Text → Text
  | bare, t => t
  | single, t => '\'' :: t ++ ['\'']
  | double, t => '"' :: t.flatMap (fun c => if c = '"' ∨ c = '\\' then ['\\', c] else [c]) ++ ['"']
  | escaped, t => t.flatMap fun c => ['\\', c]

end Style

/-- A part of a word in a style that admits it.  An empty text in quotes adds nothing to a word. -/
structure Segment where
  content : Text
  style : Style
  admitted : style.Admits content

structure WrittenWord where
  segments : List Segment
  nonempty : segments.flatMap (·.content) ≠ []

namespace WrittenWord

def word (w : WrittenWord) : Text := w.segments.flatMap (·.content)

def text (w : WrittenWord) : Text := w.segments.flatMap fun s => s.style.write s.content

theorem word_ne_nil (w : WrittenWord) : w.word ≠ [] := w.nonempty

end WrittenWord

def spaces (n : Nat) : Text := List.replicate n ' '

/-- Words with the numbers of spaces in front of them, and the number of spaces behind the last. -/
structure Layout where
  parts : List (Nat × WrittenWord)
  separated : ∀ part ∈ parts.tail, 0 < part.1
  trailing : Nat

def spaced (parts : List (Nat × WrittenWord)) : Text :=
  parts.flatMap fun (gap, w) => spaces gap ++ w.text

namespace Layout

def words (l : Layout) : List Text := l.parts.map fun (_, w) => w.word

def text (l : Layout) : Text := spaced l.parts ++ spaces l.trailing

end Layout

/-! ## Scanning what is written -/

def Item.ofChar (c : Char) : Item :=
  if h : c ≠ '"' ∧ c ≠ '\\' then .plain c h else .pair c

@[simp] theorem text_itemOfChar (c : Char) :
    (Item.ofChar c).text = if c = '"' ∨ c = '\\' then ['\\', c] else [c] := by
  unfold Item.ofChar
  split
  · next h => simp [Item.text, h.1, h.2]
  · next h =>
      have hc : c = '"' ∨ c = '\\' := by tauto
      simp [Item.text, hc]

@[simp] theorem value_itemOfChar (c : Char) : (Item.ofChar c).value = [c] := by
  unfold Item.ofChar
  split
  · rfl
  · next h =>
      have hc : c = '"' ∨ c = '\\' := by tauto
      simp [Item.value, hc]

theorem scan_write {style : Style} {t : Text} (h : style.Admits t) (rest : Text) :
    scan .bare (style.write t ++ rest) = prepend t (scan .bare rest) := by
  cases style with
  | bare =>
      induction t with
      | nil => rfl
      | cons c t ih =>
          have hc := h c List.mem_cons_self
          have ht : Style.Admits .bare t := fun d hd => h d (List.mem_cons_of_mem c hd)
          simp only [Style.write, List.cons_append] at ih ⊢
          rw [scan_bare_cons hc, ih ht, push_eq_prepend, prepend_prepend, List.cons_append,
            List.nil_append]
  | single => exact scan_piece (.single t h) rest
  | double =>
      have hrun := scan_piece (.double (t.map Item.ofChar)) rest
      simpa [Piece.text, Piece.value, Style.write, List.flatMap_map] using hrun
  | escaped =>
      induction t with
      | nil => rfl
      | cons c t ih =>
          have hc := scan_piece (.escaped c) (Style.write .escaped t ++ rest)
          rw [ih trivial, prepend_prepend] at hc
          simpa [Piece.text, Piece.value, Style.write] using hc

theorem scan_writtenWord (w : WrittenWord) (rest : Text) :
    scan .bare (w.text ++ rest) = prepend w.word (scan .bare rest) := by
  obtain ⟨segments, hne⟩ := w
  simp only [WrittenWord.text, WrittenWord.word]
  clear hne
  induction segments with
  | nil => rfl
  | cons s segments ih =>
      simp only [List.flatMap_cons, List.append_assoc]
      rw [scan_write s.admitted, ih, prepend_prepend]

theorem close_prepend {t : Text} (h : t ≠ []) (ws : List Text) :
    close (prepend t ([], ws)) = t :: ws := by
  cases t with
  | nil => exact absurd rfl h
  | cons c t => simp [prepend, close]

theorem scan_spaces (n : Nat) (rest : Text) :
    scan .bare (spaces (n + 1) ++ rest) = ([], close (scan .bare rest)) := by
  induction n with
  | zero => rfl
  | succ n ih =>
      have hspace : spaces (n + 1 + 1) ++ rest = ' ' :: (spaces (n + 1) ++ rest) := rfl
      rw [hspace, scan, ih]
      rfl

theorem close_scan_spaces (n : Nat) (rest : Text) :
    close (scan .bare (spaces n ++ rest)) = close (scan .bare rest) := by
  cases n with
  | zero => rfl
  | succ n => rw [scan_spaces, close]

theorem scan_trailing (n : Nat) : scan .bare (spaces n) = ([], []) := by
  cases n with
  | zero => rfl
  | succ n => simpa [scan, close] using scan_spaces n []

theorem scan_spaced {parts : List (Nat × WrittenWord)} (h : ∀ part ∈ parts, 0 < part.1)
    (trailing : Nat) :
    scan .bare (spaced parts ++ spaces trailing) = ([], parts.map fun (_, w) => w.word) := by
  induction parts with
  | nil => simpa [spaced] using scan_trailing trailing
  | cons part parts ih =>
      obtain ⟨gap, w⟩ := part
      obtain ⟨n, rfl⟩ := Nat.exists_eq_add_of_le' (h (gap, w) List.mem_cons_self)
      have hrest := ih fun part hpart => h part (List.mem_cons_of_mem _ hpart)
      simp only [spaced, List.flatMap_cons, List.append_assoc, List.map_cons] at hrest ⊢
      rw [scan_spaces, scan_writtenWord, hrest, close_prepend w.word_ne_nil]

/-- Scanning gives back the words that a line was written for. -/
theorem ofLine_layout (l : Layout) : ofLine l.text = l.words := by
  obtain ⟨parts, hseparated, trailing⟩ := l
  cases parts with
  | nil =>
      have hscan := scan_trailing trailing
      simp [ofLine, Layout.text, Layout.words, spaced, hscan, close]
  | cons part parts =>
      obtain ⟨gap, w⟩ := part
      have hrest := scan_spaced hseparated trailing
      simp only [ofLine, Layout.text, Layout.words, spaced, List.flatMap_cons, List.append_assoc,
        List.map_cons, List.tail_cons] at hrest ⊢
      rw [close_scan_spaces, scan_writtenWord, hrest, close_prepend w.word_ne_nil]

end LineShell.Words
