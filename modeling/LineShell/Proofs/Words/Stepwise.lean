import LineShell.Proofs.Words.Unambiguity

/-!
# Scanning character by character

A separator ends the word that is being read.  Any other character adds to that word what its
quoting says, and leaves a quoting for the next one.  The quoting that a line leaves is bare exactly
where no quotation and no escape is left open.
-/

namespace LineShell

namespace Quoting

def next : Quoting → Char → Quoting
  | .bare, '\\' => .bareEscape
  | .bare, '\'' => .single
  | .bare, '"' => .double
  | .bare, _ => .bare
  | .bareEscape, _ => .bare
  | .single, '\'' => .bare
  | .single, _ => .single
  | .double, '\\' => .doubleEscape
  | .double, '"' => .bare
  | .double, _ => .double
  | .doubleEscape, _ => .double

def adds : Quoting → Char → Text
  | .bare, c => if c = ' ' ∨ c = '\'' ∨ c = '"' ∨ c = '\\' then [] else [c]
  | .bareEscape, c => [c]
  | .single, c => if c = '\'' then [] else [c]
  | .double, c => if c = '"' ∨ c = '\\' then [] else [c]
  | .doubleEscape, c => if c = '"' ∨ c = '\\' then [c] else ['\\', c]

/-- The backslash that a word has not got yet, and gets unless the next character takes its
place. -/
def pending : Quoting → Text
  | .doubleEscape => ['\\']
  | _ => []

def after (q : Quoting) (read : Text) : Quoting := read.foldl next q

@[simp] theorem after_nil (q : Quoting) : q.after [] = q := rfl

@[simp] theorem after_cons (q : Quoting) (c : Char) (rest : Text) :
    q.after (c :: rest) = (q.next c).after rest := rfl

@[simp] theorem after_append (q : Quoting) (read rest : Text) :
    q.after (read ++ rest) = (q.after read).after rest := List.foldl_append

end Quoting

namespace Words

theorem scan_nil (q : Quoting) : scan q [] = (q.pending, []) := by
  cases q <;> rfl

theorem scan_separator (rest : Text) :
    scan .bare (' ' :: rest) = ([], close (scan .bare rest)) := rfl

theorem scan_cons {q : Quoting} {c : Char} (h : ¬ (q = .bare ∧ c = ' ')) (rest : Text) :
    scan q (c :: rest) = prepend (q.adds c) (scan (q.next c) rest) := by
  fun_cases Quoting.next q c
  -- What a waiting backslash gives with a character is the value of the pair of them.
  case case11 => exact scan_item (.pair c) rest
  all_goals simp_all [scan, Quoting.adds, push_eq_prepend]

/-! ## The quoting that a line leaves -/

theorem after_single_run {run : Text} (h : '\'' ∉ run) : Quoting.single.after run = .single := by
  induction run with
  | nil => rfl
  | cons c run ih =>
      simp only [List.mem_cons, not_or] at h
      simp [Quoting.next, Ne.symm h.1, ih h.2]

theorem after_items (items : List Item) :
    Quoting.double.after (items.flatMap Item.text) = .double := by
  induction items with
  | nil => rfl
  | cons item items ih =>
      cases item with
      | plain c h => simpa [Item.text, Quoting.next, h] using ih
      | pair c => simpa [Item.text, Quoting.next] using ih

theorem after_element (e : Element) : Quoting.bare.after e.text = .bare := by
  cases e with
  | separator => rfl
  | piece p =>
      cases p with
      | bare c h => simp [Element.text, Piece.text, Quoting.next, h]
      | escaped c => rfl
      | single run h =>
          simp [Element.text, Piece.text, Quoting.next, after_single_run h]
      | double items => simp [Element.text, Piece.text, Quoting.next, after_items]

theorem after_elements (elements : List Element) :
    Quoting.bare.after (elements.flatMap Element.text) = .bare := by
  induction elements with
  | nil => rfl
  | cons e elements ih => simp [after_element, ih]

theorem after_tail_ne (t : Tail) : Quoting.bare.after t.text ≠ .bare := by
  cases t with
  | backslash => simp [Tail.text, Quoting.next]
  | single run h => simp [Tail.text, Quoting.next, after_single_run h]
  | double items last =>
      cases last <;> simp [Tail.text, Quoting.next, after_items, lastBackslash]

/-- A line of whole elements: its end cuts no quotation and no escape short. -/
def Closed (line : Text) : Prop := ∃ elements : List Element, elements.flatMap Element.text = line

/-- A line is closed exactly where the scanner is outside quotes at its end, with no backslash that
waits for a character. -/
theorem closed_iff {line : Text} : Closed line ↔ Quoting.bare.after line = .bare := by
  constructor
  · rintro ⟨elements, rfl⟩
    exact after_elements elements
  · intro hafter
    obtain ⟨⟨elements, tail⟩, rfl⟩ := exists_text_eq line
    cases tail with
    | none => exact ⟨elements, by simp [Decomposition.text]⟩
    | some t =>
        simp only [Decomposition.text, Option.map_some, Option.getD_some, Quoting.after_append,
          after_elements] at hafter
        exact absurd hafter (after_tail_ne t)

instance (line : Text) : Decidable (Closed line) := decidable_of_iff' _ closed_iff

end Words

end LineShell
