import LineShell.Proofs.Host.Opening
import LineShell.Proofs.Host.Outline
import LineShell.Proofs.Host.Output

/-!
# Where paths lead

What a path leads to can be told before it is opened.  Output changes nothing that a path is looked
up in, so paths lead to the same before and after it.
-/

namespace LineShell.Host

variable {h k : Host}

def target? (h : Host) (path : Text) : Option Sink :=
  match h.tree.locate h.workDir .create path with
  | .error _ => none
  | .ok (.vacant p) => if h.tree.isWritable p.parent then some (.file p) else none
  | .ok (.found p) =>
      match h.tree.get? p with
      | some (.file perms _) => if perms.writable then some (.file p) else none
      | some (.device device) => some (.device device)
      | _ => none

theorem Opening.target?_eq {h : Host} {mode : WriteMode} {path : Text} {sink : Sink}
    {tree : FileTree} (ho : Opening h mode path sink tree) : h.target? path = some sink := by
  cases ho with
  | created hp hparent => simp only [target?, hp, hparent, if_true]
  | kept hp hfile hperms hmode => simp only [target?, hp, hfile, hperms, if_true]
  | emptied hp hfile hperms hmode => simp only [target?, hp, hfile, hperms, if_true]
  | device hp hdevice => simp only [target?, hp, hdevice]

theorem target?_of_refused {h k : Host} {mode : WriteMode} {path : Text} {e : ExecError}
    (he : h.openTarget mode path = (.error e, k)) : h.target? path = none := by
  unfold openTarget openToWrite at he
  unfold target?
  cases hp : h.tree.locate h.workDir .create path with
  | error cause => rfl
  | ok arrival =>
      simp only [hp] at he
      cases arrival with
      | vacant p =>
          dsimp only at he ⊢
          split
          · next hparent =>
              rw [if_pos hparent] at he
              cases he
          · rfl
      | found p =>
          dsimp only at he ⊢
          cases hentry : h.tree.get? p with
          | none => rfl
          | some entry =>
              cases entry with
              | directory perms => rfl
              | link t => rfl
              | device d =>
                  rw [hentry] at he
                  cases he
              | file perms content =>
                  simp only [hentry] at he
                  cases hperms : perms.writable with
                  | false => simp only [hperms, Bool.false_eq_true, if_false]
                  | true =>
                      rw [hperms] at he
                      cases mode <;> cases he

theorem openTarget_of_target? {h : Host} {path : Text} {sink : Sink}
    (htarget : h.target? path = some sink) (mode : WriteMode) :
    ∃ tree, Opening h mode path sink tree ∧
      h.openTarget mode path = (.ok h.files.firstFree, h.withOpened mode sink tree) := by
  rcases openTarget_cases h mode path with ⟨e, he⟩ | ⟨sink', tree, hopening, hopened⟩
  · rw [target?_of_refused he] at htarget
    cases htarget
  · rw [hopening.target?_eq] at htarget
    cases htarget
    exact ⟨tree, hopening, hopened⟩

/-! ## Outlines -/

theorem SameOutline.trans {k' : Host} (hk : h.SameOutline k) (hk' : k.SameOutline k') :
    h.SameOutline k' :=
  ⟨hk.workDir.trans hk'.workDir, fun p => (hk.tree p).trans (hk'.tree p)⟩

theorem sameOutline_write (h : Host) (fd : Descriptor) (data : Bytes) :
    h.SameOutline (h.write fd data).2 := by
  have hwritten := h.written fd data
  generalize (h.write fd data).2 = k at hwritten ⊢
  cases hwritten with
  | nowhere => exact ⟨rfl, .refl h.tree⟩
  | @terminal stream => cases stream <;> exact ⟨rfl, .refl h.tree⟩
  | file _ _ _ _ hfile => exact ⟨rfl, FileTree.sameOutline_put_afterWrite hfile _⟩

theorem kept_sameOutline (h : Host) : Kept h.SameOutline where
  await := fun hk _ => ⟨hk.workDir, hk.tree⟩
  write := fun {k} hk stream data => hk.trans (sameOutline_write k stream.descriptor data)
  record := fun hk _ => ⟨hk.workDir, hk.tree⟩

theorem SameOutline.target?_eq (hk : h.SameOutline k) (path : Text) :
    h.target? path = k.target? path := by
  unfold target?
  rw [hk.workDir, hk.tree.locate_eq]
  cases k.tree.locate k.workDir .create path with
  | error e => rfl
  | ok arrival =>
      cases arrival with
      | vacant p =>
          dsimp only
          rw [hk.tree.isWritable_eq]
      | found p =>
          dsimp only
          rcases Entry.outline_cases (hk.tree p) with heq | ⟨m, c, m', c', hp, hp', hm⟩
          · rw [heq]
          · have hwritable : m.writable = m'.writable := by
              rw [← Mode.writable_permissions m, hm, Mode.writable_permissions]
            simp only [hp, hp', hwritable]

end LineShell.Host
