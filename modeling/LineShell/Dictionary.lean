import LineShell.Text

/-!
# Dictionaries

Finite maps from names to values.  The entries stand in strictly increasing order of their names,
so two dictionaries with the same look-ups are equal, whatever the order in which they were built.
The order of characters is that of their code points, which is also that of the encoded octets.
-/

namespace LineShell

def Ordered {α : Type} (entries : List (Text × α)) : Prop :=
  entries.Pairwise fun a b => a.1 < b.1

instance {α : Type} (entries : List (Text × α)) : Decidable (Ordered entries) :=
  inferInstanceAs (Decidable (entries.Pairwise fun a b => a.1 < b.1))

def insertOrdered {α : Type} (name : Text) (value : α) : List (Text × α) → List (Text × α)
  | [] => [(name, value)]
  | entry :: rest =>
      if name < entry.1 then (name, value) :: entry :: rest
      else if name = entry.1 then (name, value) :: rest
      else entry :: insertOrdered name value rest

theorem mem_insertOrdered {α : Type} {name : Text} {value : α} {entries : List (Text × α)}
    {entry : Text × α} (h : entry ∈ insertOrdered name value entries) :
    entry = (name, value) ∨ entry ∈ entries := by
  induction entries with
  | nil => simpa [insertOrdered] using h
  | cons first rest ih =>
      unfold insertOrdered at h
      split at h
      · simpa using h
      · split at h
        · simp only [List.mem_cons] at h ⊢
          exact h.imp_right .inr
        · simp only [List.mem_cons] at h ⊢
          rcases h with h | h
          · exact .inr (.inl h)
          · exact (ih h).imp_right .inr

theorem Ordered.insertOrdered {α : Type} (name : Text) (value : α) {entries : List (Text × α)}
    (h : Ordered entries) : Ordered (insertOrdered name value entries) := by
  induction entries with
  | nil => simp [LineShell.insertOrdered, Ordered]
  | cons first rest ih =>
      have hfirst := (List.pairwise_cons.mp h).1
      have hrest := (List.pairwise_cons.mp h).2
      unfold LineShell.insertOrdered
      split
      · next hlt =>
          refine List.pairwise_cons.mpr ⟨fun entry hmem => ?_, h⟩
          rcases List.mem_cons.mp hmem with rfl | hmem
          · exact hlt
          · exact List.lt_trans hlt (hfirst entry hmem)
      · next hlt =>
          split
          · next heq =>
              exact List.pairwise_cons.mpr ⟨fun entry hmem => heq ▸ hfirst entry hmem, hrest⟩
          · next hne =>
              refine List.pairwise_cons.mpr ⟨fun entry hmem => ?_, ih hrest⟩
              rcases mem_insertOrdered hmem with rfl | hmem
              · rcases Std.lt_trichotomy name first.1 with hl | he | hg
                · exact absurd hl hlt
                · exact absurd he hne
                · exact hg
              · exact hfirst entry hmem

theorem lookup_insertOrdered {α : Type} (name other : Text) (value : α)
    (entries : List (Text × α)) :
    (insertOrdered name value entries).lookup other =
      if other = name then some value else entries.lookup other := by
  induction entries with
  | nil =>
      by_cases h : other = name
      · simp [insertOrdered, h]
      · simp [insertOrdered, List.lookup_cons, h, beq_false_of_ne h]
  | cons first rest ih =>
      obtain ⟨key, old⟩ := first
      unfold insertOrdered
      split
      · by_cases h : other = name
        · simp [h]
        · simp [List.lookup_cons, h, beq_false_of_ne h]
      · split
        · next heq =>
            simp only at heq
            subst heq
            by_cases h : other = name
            · simp [h]
            · simp [List.lookup_cons, h, beq_false_of_ne h]
        · next hne =>
            simp only [List.lookup_cons]
            by_cases hk : other = key
            · have hn : other ≠ name := fun e => hne (e.symm.trans hk)
              subst hk
              simp [hn]
            · simp [beq_false_of_ne hk, ih]

private theorem lookup_eq_none {α : Type} (entries : List (Text × α)) {name : Text}
    (h : ∀ entry ∈ entries, name < entry.1) : entries.lookup name = none := by
  rw [List.lookup_eq_none_iff]
  intro entry hmem
  have hne : name ≠ entry.1 := fun e => List.lt_irrefl name (e ▸ h entry hmem)
  simpa using hne

private theorem Ordered.lookup_of_lt {α : Type} {first : Text × α} {rest : List (Text × α)}
    (h : Ordered (first :: rest)) {name : Text} (hlt : name < first.1) :
    (first :: rest).lookup name = none := by
  have hbehind := (List.pairwise_cons.mp h).1
  refine lookup_eq_none _ (List.forall_mem_cons.mpr ⟨hlt, fun entry hmem => ?_⟩)
  exact List.lt_trans hlt (hbehind entry hmem)

theorem Ordered.eq_of_lookup {α : Type} {a b : List (Text × α)} (ha : Ordered a) (hb : Ordered b)
    (h : ∀ name, a.lookup name = b.lookup name) : a = b := by
  induction a generalizing b with
  | nil =>
      cases b with
      | nil => rfl
      | cons first rest =>
          obtain ⟨key, value⟩ := first
          have hfirst := h key
          simp at hfirst
  | cons first rest ih =>
      obtain ⟨key, value⟩ := first
      cases b with
      | nil =>
          have hfirst := h key
          simp at hfirst
      | cons first' rest' =>
          obtain ⟨key', value'⟩ := first'
          -- the lesser of two first names would be in one of the lists only
          have heq : key = key' := by
            rcases Std.lt_trichotomy key key' with hlt | heq | hgt
            · have hnone := (h key).trans (hb.lookup_of_lt hlt)
              simp at hnone
            · exact heq
            · have hnone := (h key').symm.trans (ha.lookup_of_lt hgt)
              simp at hnone
          subst heq
          obtain ⟨hkey, hrest⟩ := List.pairwise_cons.mp ha
          obtain ⟨hkey', hrest'⟩ := List.pairwise_cons.mp hb
          have hvalue : value = value' := by
            have hsame := h key
            simpa [List.lookup_cons] using hsame
          subst hvalue
          congr 1
          refine ih hrest hrest' fun name => ?_
          by_cases hn : name = key
          · subst hn
            rw [lookup_eq_none rest hkey, lookup_eq_none rest' hkey']
          · have hsame := h name
            simpa [List.lookup_cons, beq_false_of_ne hn] using hsame

structure Dictionary (α : Type) where
  entries : List (Text × α)
  ordered : Ordered entries
  deriving DecidableEq

namespace Dictionary

variable {α : Type}

def empty : Dictionary α := ⟨[], by simp [Ordered]⟩

instance : Inhabited (Dictionary α) := ⟨empty⟩

def get? (d : Dictionary α) (name : Text) : Option α := d.entries.lookup name

def insert (d : Dictionary α) (name : Text) (value : α) : Dictionary α :=
  ⟨insertOrdered name value d.entries, d.ordered.insertOrdered name value⟩

/-- The entries of a list, a later one in the stead of an earlier one of the same name. -/
def ofList (entries : List (Text × α)) : Dictionary α :=
  entries.foldl (fun d entry => d.insert entry.1 entry.2) empty

@[simp] theorem get?_empty (name : Text) : (empty : Dictionary α).get? name = none := rfl

theorem get?_insert (d : Dictionary α) (name other : Text) (value : α) :
    (d.insert name value).get? other = if other = name then some value else d.get? other :=
  lookup_insertOrdered name other value d.entries

theorem eq_of_get? {d e : Dictionary α} (h : ∀ name, d.get? name = e.get? name) : d = e := by
  obtain ⟨a, ha⟩ := d
  obtain ⟨b, hb⟩ := e
  congr
  exact ha.eq_of_lookup hb h

end Dictionary

end LineShell
