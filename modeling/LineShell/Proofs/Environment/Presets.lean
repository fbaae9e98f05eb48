import LineShell.Proofs.Dictionary
import LineShell.Environment

/-!
# Exported variables

A preset gives a variable a value and exports it, whatever the variable was.  So programs get the
presets, and the other variables that were exported before.
-/

namespace LineShell.Environment

theorem mem_exported_iff {env : Environment} {name value : Text} :
    (name, value) ∈ env.exported ↔ env.vars.get? name = some ⟨value, true⟩ := by
  rw [Dictionary.get?_eq_some_iff, exported, List.mem_map]
  constructor
  · rintro ⟨⟨name', v⟩, hentry, heq⟩
    obtain ⟨hmem, hexported⟩ := List.mem_filter.mp hentry
    cases heq
    rw [← show v.exported = true from hexported]
    exact hmem
  · intro hmem
    exact ⟨(name, ⟨value, true⟩), List.mem_filter.mpr ⟨hmem, rfl⟩, rfl⟩

theorem mem_block_iff {env : Environment} {entry : Text} :
    entry ∈ env.block ↔
      ∃ name value, entry = name ++ '=' :: value ∧ env.vars.get? name = some ⟨value, true⟩ := by
  rw [block, List.mem_map]
  constructor
  · rintro ⟨⟨name, value⟩, hmem, rfl⟩
    exact ⟨name, value, rfl, mem_exported_iff.mp hmem⟩
  · rintro ⟨name, value, rfl, hvar⟩
    exact ⟨(name, value), mem_exported_iff.mpr hvar, rfl⟩

theorem set_markExported (env : Environment) (name value : Text) :
    (env.set name value).markExported name =
      { env with vars := env.vars.insert name ⟨value, true⟩ } := by
  have hset : (env.set name value).vars.get? name =
      some ⟨value, ((env.vars.get? name).map (·.exported)).getD false⟩ := by
    rw [set, Dictionary.get?_insert, if_pos rfl]
  unfold markExported
  rw [hset]
  simp only [set, Dictionary.insert_insert]

def exportedEntry (preset : Text × Text) : Text × Variable := (preset.1, ⟨preset.2, true⟩)

theorem preset_eq (env : Environment) (presets : List (Text × Text)) :
    env.preset presets =
      { env with
        vars := (presets.map exportedEntry).foldl (fun vars entry => vars.insert entry.1 entry.2)
          env.vars } := by
  induction presets generalizing env with
  | nil => rfl
  | cons entry rest ih =>
      obtain ⟨name, value⟩ := entry
      change ((env.set name value).markExported name).preset rest = _
      rw [set_markExported]
      exact ih _

theorem lookup_map_exportedEntry (presets : List (Text × Text)) (name : Text) :
    (presets.map exportedEntry).lookup name =
      (presets.lookup name).map fun value => ⟨value, true⟩ := by
  induction presets with
  | nil => rfl
  | cons entry rest ih =>
      rw [List.map_cons, exportedEntry, List.lookup_cons, List.lookup_cons, ih]
      split <;> rfl

theorem get?_preset (env : Environment) (presets : List (Text × Text)) (name : Text) :
    (env.preset presets).vars.get? name =
      ((presets.reverse.lookup name).map fun value => ⟨value, true⟩).or (env.vars.get? name) := by
  rw [preset_eq, Dictionary.get?_foldl_insert, ← List.map_reverse, lookup_map_exportedEntry]

theorem get?_preset_perm (env : Environment) {presets : Dictionary Text}
    {order : List (Text × Text)} (horder : order.Perm presets.entries) (name : Text) :
    (env.preset order).vars.get? name =
      match presets.get? name with
      | some value => some ⟨value, true⟩
      | none => env.vars.get? name := by
  have hentries : ∀ entry, entry ∈ order.reverse ↔ entry ∈ presets.entries :=
    fun entry => List.mem_reverse.trans horder.mem_iff
  rw [get?_preset, Dictionary.lookup_eq_get? hentries]
  cases presets.get? name <;> rfl

theorem get?_vars_preset (env : Environment) (presets : Dictionary Text) (name : Text) :
    (env.preset presets.entries).vars.get? name =
      match presets.get? name with
      | some value => some ⟨value, true⟩
      | none => env.vars.get? name :=
  env.get?_preset_perm (.refl _) name

end LineShell.Environment
