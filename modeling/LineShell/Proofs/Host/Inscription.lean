import LineShell.Proofs.Host.Acceptance
import LineShell.Proofs.Host.Confinement
import LineShell.Proofs.Host.Targets
import LineShell.Proofs.Host.Walk

/-!
# What a file holds

Output that goes elsewhere leaves a file as it is.  What is written through a description that
stands at the end of the file is added to it, and the description stands at the end again.
-/

namespace LineShell

open Host

namespace FileTree

def content? (t : FileTree) (p : Place) : Option Bytes :=
  match t.get? p with
  | some (.file _ content) => some content
  | _ => none

theorem content?_congr {t t' : FileTree} {p : Place} (h : t'.get? p = t.get? p) :
    t'.content? p = t.content? p := by
  unfold content?
  rw [h]

theorem content?_eq_some {t : FileTree} {p : Place} {perms : Mode} {content : Bytes}
    (h : t.get? p = some (.file perms content)) : t.content? p = some content := by
  unfold content?
  rw [h]

end FileTree

namespace Host

variable {h k : Host} {f : Place}

theorem Opening.content? {mode : WriteMode} {path : Text} {tree : FileTree}
    (ho : Opening h mode path (.file f) tree) :
    ∃ perms, tree.get? f = some (.file perms
      (if mode = .truncate then [] else (h.tree.content? f).getD [])) := by
  have hput : ∀ {perms}, (h.tree.put f (.file perms [])).get? f = some (.file perms []) := by
    intro perms
    rw [FileTree.get?_put, if_pos rfl]
  cases ho with
  | created hp hparent =>
      have hnone : h.tree.content? f = none := by
        unfold FileTree.content?
        rw [FileTree.get?_of_vacant hp]
      refine ⟨0o644, ?_⟩
      rw [hput, hnone]
      split <;> rfl
  | @kept _ perms content hp hfile hperms hmode =>
      refine ⟨perms, ?_⟩
      rw [FileTree.content?_eq_some hfile, hmode, if_neg (by decide)]
      exact hfile
  | @emptied _ perms content hp hfile hperms hmode =>
      refine ⟨perms.afterWrite, ?_⟩
      rw [if_pos hmode]
      exact hput

/-! ## Output elsewhere -/

def Spares (h : Host) (f : Place) : Prop :=
  ∀ stream : Stream, h.files.sink? stream.descriptor ≠ some (.file f)

theorem get?_write {fd : Descriptor} (hsink : h.files.sink? fd ≠ some (.file f)) (data : Bytes) :
    (h.write fd data).2.tree.get? f = h.tree.get? f := by
  have hconfined : Confined (fun n => h.files.number? fd = some n) h (h.write fd data).2 :=
    .write (fun _ hn => hn) data
  refine hconfined.tree f fun n hn hfile => hsink ?_
  rw [OpenFiles.sink?_eq, hn]
  exact hfile

theorem kept_spares (f : Place) (entry : Option Entry) :
    Kept fun h => h.Spares f ∧ h.tree.get? f = entry where
  await := fun hh _ => hh
  write := fun {h} hh stream data => by
    constructor
    · intro other
      rw [(stays_write h stream.descriptor data).sink?]
      exact hh.1 other
    · rw [get?_write (hh.1 stream), hh.2]
  record := fun hh _ => hh

/-! ## Output at the end of the file -/

structure Inscribed (f : Place) (number : Nat) (content : Bytes) (h : Host) : Prop where
  description : ∃ d, h.files.descriptions[number]? = some d ∧ d.sink = .file f ∧
    (d.append = true ∨ d.offset = content.length)
  file : ∃ perms, h.tree.get? f = some (.file perms content)

namespace Inscribed

variable {number : Nat} {content : Bytes} {fd : Descriptor}

theorem await (hi : Inscribed f number content h) (waiting : Bytes) :
    Inscribed f number content { h with pending := waiting } :=
  ⟨hi.description, hi.file⟩

theorem write_own (hi : Inscribed f number content h) (hnumber : h.files.number? fd = some number)
    (data : Bytes) :
    (h.write fd data).1 = .ok () ∧ Inscribed f number (content ++ data) (h.write fd data).2 := by
  by_cases hdata : data = []
  · subst hdata
    rw [List.append_nil]
    exact ⟨rfl, hi⟩
  · obtain ⟨d, hd, hsink, hend⟩ := hi.description
    obtain ⟨perms, hfile⟩ := hi.file
    rw [write_file_end hnumber hd hsink hfile hend hdata]
    refine ⟨rfl, ?_, ?_⟩
    · refine ⟨{ d with offset := (content ++ data).length }, ?_, hsink, .inr rfl⟩
      simp [OpenFiles.moveTo, hd]
    · exact ⟨perms.afterWrite, by rw [FileTree.get?_put, if_pos rfl]⟩

theorem write_other (hi : Inscribed f number content h)
    (hnumber : h.files.number? fd ≠ some number)
    (hsink : h.files.sink? fd ≠ some (.file f)) (data : Bytes) :
    Inscribed f number content (h.write fd data).2 := by
  have hconfined : Confined (fun n => h.files.number? fd = some n) h (h.write fd data).2 :=
    .write (fun _ hn => hn) data
  refine ⟨?_, ?_⟩
  · rw [hconfined.description number hnumber]
    exact hi.description
  · rw [get?_write hsink]
    exact hi.file

end Inscribed

end Host

end LineShell
