import LineShell.Dictionary

/-!
# Dictionaries from their entries

A name has one value.  So insertions under two names commute, and the entries of a dictionary,
inserted one after another, are that dictionary.
-/

namespace LineShell

variable {α : Type}

theorem Ordered.lookup_eq_some {entries : List (Text × α)} (h : Ordered entries) {name : Text}
    {value : α} (hmem : (name, value) ∈ entries) : entries.lookup name = some value := by
  induction entries with
  | nil => cases hmem
  | cons first rest ih =>
      obtain ⟨key, old⟩ := first
      obtain ⟨hfirst, hrest⟩ := List.pairwise_cons.mp h
      rcases List.mem_cons.mp hmem with heq | hmem
      · cases heq
        simp
      · have hne : name ≠ key := fun e => List.lt_irrefl key (e ▸ hfirst _ hmem)
        rw [List.lookup_cons, beq_false_of_ne hne]
        exact ih hrest hmem

theorem Ordered.lookup_eq_some_iff {entries : List (Text × α)} (h : Ordered entries) {name : Text}
    {value : α} : entries.lookup name = some value ↔ (name, value) ∈ entries := by
  refine ⟨fun hlookup => ?_, h.lookup_eq_some⟩
  obtain ⟨before, after, rfl, -⟩ := List.lookup_eq_some_iff.mp hlookup
  exact List.mem_append_right before List.mem_cons_self

theorem Ordered.eq_of_mem_iff {a b : List (Text × α)} (ha : Ordered a) (hb : Ordered b)
    (h : ∀ entry, entry ∈ a ↔ entry ∈ b) : a = b := by
  refine ha.eq_of_lookup hb fun name => Option.ext fun value => ?_
  rw [ha.lookup_eq_some_iff, hb.lookup_eq_some_iff, h]

namespace Dictionary

theorem get?_eq_some_iff {d : Dictionary α} {name : Text} {value : α} :
    d.get? name = some value ↔ (name, value) ∈ d.entries :=
  d.ordered.lookup_eq_some_iff

theorem insert_insert (d : Dictionary α) (name : Text) (x y : α) :
    (d.insert name x).insert name y = d.insert name y := by
  apply eq_of_get?
  intro other
  simp only [get?_insert]
  split <;> rfl

theorem insert_comm (d : Dictionary α) {a b : Text} (hab : a ≠ b) (x y : α) :
    (d.insert a x).insert b y = (d.insert b y).insert a x := by
  apply eq_of_get?
  intro name
  simp only [get?_insert]
  by_cases hb : name = b
  · subst hb
    simp [Ne.symm hab]
  · simp [hb]

theorem get?_foldl_insert (entries : List (Text × α)) (d : Dictionary α) (name : Text) :
    (entries.foldl (fun d entry => d.insert entry.1 entry.2) d).get? name =
      (entries.reverse.lookup name).or (d.get? name) := by
  induction entries generalizing d with
  | nil => rfl
  | cons first rest ih =>
      obtain ⟨key, value⟩ := first
      rw [List.foldl_cons, ih, get?_insert, List.reverse_cons, List.lookup_append, List.lookup_cons,
        Option.or_assoc]
      by_cases hname : name = key
      · simp [hname]
      · simp [hname, beq_false_of_ne hname]

theorem lookup_eq_get? {d : Dictionary α} {entries : List (Text × α)}
    (h : ∀ entry, entry ∈ entries ↔ entry ∈ d.entries) (name : Text) :
    entries.lookup name = d.get? name := by
  cases hlookup : entries.lookup name with
  | some value =>
      obtain ⟨before, after, rfl, -⟩ := List.lookup_eq_some_iff.mp hlookup
      exact (get?_eq_some_iff.mpr ((h _).mp (List.mem_append_right _ List.mem_cons_self))).symm
  | none =>
      have hnone := List.lookup_eq_none_iff.mp hlookup
      symm
      exact List.lookup_eq_none_iff.mpr fun entry hentry => hnone entry ((h entry).mpr hentry)

theorem ofList_entries (d : Dictionary α) : ofList d.entries = d := by
  apply eq_of_get?
  intro name
  rw [ofList, get?_foldl_insert, lookup_eq_get? fun entry => List.mem_reverse, get?_empty,
    Option.or_none]

end Dictionary

end LineShell
