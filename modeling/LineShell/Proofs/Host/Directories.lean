import LineShell.Proofs.Host.Opening
import LineShell.Proofs.Host.Output
import LineShell.Proofs.Host.Walk

/-!
# The directories of a tree

Opening a file and writing to it put files where there was a file or nothing.  So the directories
and their permissions stay, and with them the places that can be a working directory.
-/

namespace LineShell

namespace FileTree

def directory? (t : FileTree) (p : Place) : Option Mode :=
  match t.get? p with
  | some (.directory mode) => some mode
  | _ => none

def SameDirectories (t t' : FileTree) : Prop := ∀ p, t.directory? p = t'.directory? p

def WithinLimits (t : FileTree) : Prop := ∀ p mode, t.directory? p = some mode → p.Usable

variable {t t' t'' : FileTree} {p : Place}

theorem isSearchable_eq (t : FileTree) (p : Place) :
    t.isSearchable p = (t.directory? p).any Mode.executable := by
  unfold isSearchable directory?
  cases t.get? p with
  | none => rfl
  | some e => cases e <;> rfl

theorem directory?_eq_some {mode : Mode} :
    t.directory? p = some mode ↔ t.get? p = some (.directory mode) := by
  unfold directory?
  cases t.get? p with
  | none => simp
  | some e => cases e <;> simp

theorem withinLimits_of_entries
    (h : ∀ entry ∈ t.entries, entry.2.isDirectory = true → entry.1.Usable) : t.WithinLimits := by
  intro p mode hp
  have hget := directory?_eq_some.mp hp
  obtain ⟨before, after, hentries, -⟩ := List.lookup_eq_some_iff.mp hget
  exact h (p, .directory mode) (by simp [hentries]) rfl

theorem directory?_put_file (hp : t.directory? p = none) (mode : Mode) (content : Bytes) :
    (t.put p (.file mode content)).directory? = t.directory? := by
  funext q
  unfold directory?
  rw [get?_put]
  by_cases hq : q = p
  · rw [if_pos hq, hq]
    exact hp.symm
  · rw [if_neg hq]

theorem directory?_of_file {mode : Mode} {content : Bytes}
    (hp : t.get? p = some (.file mode content)) : t.directory? p = none := by
  unfold directory?
  rw [hp]

theorem directory?_of_none (hp : t.get? p = none) : t.directory? p = none := by
  unfold directory?
  rw [hp]

namespace SameDirectories

theorem refl (t : FileTree) : t.SameDirectories t := fun _ => rfl

theorem symm (h : t.SameDirectories t') : t'.SameDirectories t := fun p => (h p).symm

theorem trans (h : t.SameDirectories t') (h' : t'.SameDirectories t'') : t.SameDirectories t'' :=
  fun p => (h p).trans (h' p)

theorem put_file (hp : t.directory? p = none) (mode : Mode) (content : Bytes) :
    t.SameDirectories (t.put p (.file mode content)) := by
  intro q
  rw [directory?_put_file hp]

theorem enterable (h : t.SameDirectories t') (hp : t.Enterable p) : t'.Enterable p := by
  intro above habove
  rw [isSearchable_eq, ← h, ← isSearchable_eq]
  exact hp above habove

theorem withinLimits (h : t.SameDirectories t') (ht : t.WithinLimits) : t'.WithinLimits := by
  intro p mode hp
  rw [← h] at hp
  exact ht p mode hp

end SameDirectories

theorem WithinLimits.usable (ht : t.WithinLimits) (hp : t.Enterable p) : p.Usable := by
  obtain ⟨mode, hget, -⟩ := isSearchable_iff.mp (hp p (List.suffix_refl p))
  exact ht p mode (directory?_eq_some.mpr hget)

end FileTree

namespace Host

open FileTree (SameDirectories)

theorem sameDirectories_write (h : Host) (fd : Descriptor) (data : Bytes) :
    h.tree.SameDirectories (h.write fd data).2.tree := by
  have hwritten := h.written fd data
  generalize (h.write fd data).2 = k at hwritten ⊢
  cases hwritten with
  | nowhere => exact .refl h.tree
  | terminal =>
      rw [tree_receive]
      exact .refl h.tree
  | file _ _ _ _ hfile => exact .put_file (FileTree.directory?_of_file hfile) _ _

theorem kept_sameDirectories (t : FileTree) : Kept fun h => t.SameDirectories h.tree where
  await := fun hh _ => hh
  write := fun {h} hh stream data => hh.trans (sameDirectories_write h stream.descriptor data)
  record := fun hh _ => hh

theorem Opening.sameDirectories {h : Host} {mode : WriteMode} {path : Text} {sink : Sink}
    {tree : FileTree} (ho : Opening h mode path sink tree) : h.tree.SameDirectories tree := by
  cases ho with
  | created hp hparent =>
      exact .put_file (FileTree.directory?_of_none (FileTree.get?_of_vacant hp)) _ _
  | kept hp hfile hperms hmode => exact .refl h.tree
  | emptied hp hfile hperms hmode => exact .put_file (FileTree.directory?_of_file hfile) _ _
  | device hp hdevice => exact .refl h.tree

theorem kept_openTarget {h opened : Host} {mode : WriteMode} {path : Text}
    {result : Except ExecError Descriptor} (ho : h.openTarget mode path = (result, opened)) :
    h.tree.SameDirectories opened.tree ∧ opened.launches = h.launches := by
  rcases openTarget_cases h mode path with ⟨e, he⟩ | ⟨sink, tree, hopening, hopened⟩
  · rw [he] at ho
    cases ho
    exact ⟨.refl h.tree, rfl⟩
  · rw [hopened] at ho
    cases ho
    exact ⟨hopening.sameDirectories, rfl⟩

end Host

end LineShell
