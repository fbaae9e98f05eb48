/-!
# Texts and octets

Lines, words, names and messages are texts: lists of characters.  Files and streams hold octets.
Cutting a text at a character loses nothing but that character.
-/

namespace LineShell

abbrev Text := List Char

abbrev Bytes := List UInt8

namespace Text

def splitFirst? (mark : Char) : Text → Option (Text × Text)
  | [] => none
  | c :: rest =>
      if c = mark then some ([], rest)
      else (splitFirst? mark rest).map fun (before, after) => (c :: before, after)

def fields (mark : Char) : Text → List Text
  | [] => [[]]
  | c :: rest =>
      if c = mark then [] :: fields mark rest
      else
        match fields mark rest with
        | [] => [[c]]
        | field :: later => (c :: field) :: later

def insertBy {α : Type} (key : α → Text) (a : α) : List α → List α
  | [] => [a]
  | b :: rest => if key b < key a then b :: insertBy key a rest else a :: b :: rest

def sortBy {α : Type} (key : α → Text) (l : List α) : List α := l.foldr (insertBy key) []

/-- Whether the code of a character lies in one of some ranges, which are given in ascending order
by their first and last codes. -/
def inRanges (c : Char) : List (Nat × Nat) → Bool
  | [] => false
  | (first, last) :: rest =>
      if c.toNat < first then false
      else if c.toNat ≤ last then true
      else inRanges c rest

def decimal (n : Nat) : Text := Nat.toDigits 10 n

def octal (n : Nat) : Text := Nat.toDigits 8 n

theorem eq_append_of_splitFirst? {mark : Char} {t before after : Text}
    (h : splitFirst? mark t = some (before, after)) : t = before ++ mark :: after := by
  induction t generalizing before with
  | nil => simp [splitFirst?] at h
  | cons c rest ih =>
      unfold splitFirst? at h
      split at h
      · next hc =>
          cases h
          simp [hc]
      · next hc =>
          obtain ⟨⟨b, a⟩, hb, heq⟩ := Option.map_eq_some_iff.mp h
          cases heq
          simp [← ih hb]

theorem splitFirst?_append {mark : Char} {before : Text} (after : Text) (h : mark ∉ before) :
    splitFirst? mark (before ++ mark :: after) = some (before, after) := by
  induction before with
  | nil => simp [splitFirst?]
  | cons c rest ih =>
      simp only [List.mem_cons, not_or] at h
      simp [splitFirst?, ih h.2, Ne.symm h.1]

theorem fields_ne_nil (mark : Char) (t : Text) : fields mark t ≠ [] := by
  cases t with
  | nil => simp [fields]
  | cons c rest =>
      unfold fields
      split
      · simp
      · split <;> simp

theorem fields_append_mark (mark : Char) (p q : Text) :
    fields mark (p ++ mark :: q) = fields mark p ++ fields mark q := by
  induction p with
  | nil => simp [fields]
  | cons c rest ih =>
      by_cases hc : c = mark
      · simp [fields, hc, ih]
      · simp only [List.cons_append, fields, hc, if_false, ih]
        cases h : fields mark rest with
        | nil => exact absurd h (fields_ne_nil mark rest)
        | cons field later => simp

theorem fields_of_not_mem {mark : Char} {t : Text} (h : mark ∉ t) : fields mark t = [t] := by
  induction t with
  | nil => rfl
  | cons c rest ih =>
      simp only [List.mem_cons, not_or] at h
      simp [fields, ih h.2, Ne.symm h.1]

end Text

end LineShell
