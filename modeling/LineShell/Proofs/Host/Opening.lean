import LineShell.Proofs.Host.Descriptors

/-!
# Opening files to write to

Opening a path leads to a file, which is created, kept or emptied, or to a device, and adds one
description at the beginning of it, for which the lowest free descriptor stands.  An opening that
fails leaves the host as it was.
-/

namespace LineShell.Host

inductive Opening (h : Host) (mode : WriteMode) (path : Text) : Sink → FileTree → Prop
  | created {p : Place} (hp : h.tree.locate h.workDir .create path = .ok (.vacant p))
      (hparent : h.tree.isWritable p.parent = true) :
      Opening h mode path (.file p) (h.tree.put p (.file 0o644 []))
  | kept {p : Place} {perms : Mode} {content : Bytes}
      (hp : h.tree.locate h.workDir .create path = .ok (.found p))
      (hfile : h.tree.get? p = some (.file perms content)) (hperms : perms.writable = true)
      (hmode : mode = .append) :
      Opening h mode path (.file p) h.tree
  | emptied {p : Place} {perms : Mode} {content : Bytes}
      (hp : h.tree.locate h.workDir .create path = .ok (.found p))
      (hfile : h.tree.get? p = some (.file perms content)) (hperms : perms.writable = true)
      (hmode : mode = .truncate) :
      Opening h mode path (.file p) (h.tree.put p (.file perms.afterWrite []))
  | device {p : Place} {device : Device}
      (hp : h.tree.locate h.workDir .create path = .ok (.found p))
      (hdevice : h.tree.get? p = some (.device device)) :
      Opening h mode path (.device device) h.tree

def withOpened (h : Host) (mode : WriteMode) (sink : Sink) (tree : FileTree) : Host :=
  { h with tree := tree, files := h.files.add ⟨sink, 0, decide (mode = .append)⟩ }

theorem openToWrite_cases (h : Host) (mode : WriteMode) (path : Text) :
    (∃ e, h.openToWrite mode path = (.error e, h)) ∨
      ∃ sink tree, Opening h mode path sink tree ∧
        h.openToWrite mode path = (.ok h.files.firstFree, h.withOpened mode sink tree) := by
  unfold openToWrite
  cases hp : h.tree.locate h.workDir .create path with
  | error e => exact .inl ⟨e, rfl⟩
  | ok arrival =>
      cases arrival with
      | vacant p =>
          by_cases hparent : h.tree.isWritable p.parent = true
          · exact .inr ⟨_, _, .created hp hparent, by simp only [hparent, if_true]; rfl⟩
          · exact .inl ⟨_, by simp only [hparent]; rfl⟩
      | found p =>
          cases hentry : h.tree.get? p with
          | none => exact .inl ⟨_, by simp only [hentry]; rfl⟩
          | some entry =>
              cases entry with
              | directory perms => exact .inl ⟨_, by simp only [hentry]; rfl⟩
              | link t => exact .inl ⟨_, by simp only [hentry]; rfl⟩
              | device d => exact .inr ⟨_, _, .device hp hentry, by simp only [hentry]; rfl⟩
              | file perms content =>
                  by_cases hperms : perms.writable = true
                  · cases mode with
                    | append =>
                        exact .inr ⟨_, _, .kept hp hentry hperms rfl, by
                          simp only [hentry, hperms]; rfl⟩
                    | truncate =>
                        exact .inr ⟨_, _, .emptied hp hentry hperms rfl, by
                          simp only [hentry, hperms]; rfl⟩
                  · exact .inl ⟨_, by simp only [hentry, hperms]; rfl⟩

theorem openTarget_cases (h : Host) (mode : WriteMode) (path : Text) :
    (∃ e, h.openTarget mode path = (.error (.redirect path e), h)) ∨
      ∃ sink tree, Opening h mode path sink tree ∧
        h.openTarget mode path = (.ok h.files.firstFree, h.withOpened mode sink tree) := by
  unfold openTarget
  rcases openToWrite_cases h mode path with ⟨e, he⟩ | ⟨sink, tree, hopening, hopened⟩
  · exact .inl ⟨e, by rw [he]⟩
  · exact .inr ⟨sink, tree, hopening, by rw [hopened]⟩

theorem rest_openTarget (h : Host) (mode : WriteMode) (path : Text) :
    (h.openTarget mode path).2 = { h with
      tree := (h.openTarget mode path).2.tree, files := (h.openTarget mode path).2.files } := by
  rcases openTarget_cases h mode path with ⟨e, he⟩ | ⟨sink, tree, -, hopened⟩
  · rw [he]
  · rw [hopened]
    rfl

theorem pending_openTarget (h : Host) (mode : WriteMode) (path : Text) :
    (h.openTarget mode path).2.pending = h.pending := by
  rw [rest_openTarget]

theorem number?_withOpened (h : Host) (mode : WriteMode) (sink : Sink) (tree : FileTree)
    (fd : Descriptor) :
    (h.withOpened mode sink tree).files.number? fd =
      if fd = h.files.firstFree then some h.files.descriptions.length else h.files.number? fd :=
  OpenFiles.number?_add h.files _ fd

theorem number?_withOpened_firstFree (h : Host) (mode : WriteMode) (sink : Sink) (tree : FileTree) :
    (h.withOpened mode sink tree).files.number? h.files.firstFree =
      some h.files.descriptions.length := by
  rw [number?_withOpened, if_pos rfl]

theorem getElem?_withOpened (h : Host) (mode : WriteMode) (sink : Sink) (tree : FileTree) :
    (h.withOpened mode sink tree).files.descriptions[h.files.descriptions.length]? =
      some ⟨sink, 0, decide (mode = .append)⟩ :=
  OpenFiles.getElem?_add_length h.files _

theorem sink?_withOpened (h : Host) (mode : WriteMode) (sink : Sink) (tree : FileTree) :
    (h.withOpened mode sink tree).files.sink? h.files.firstFree = some sink :=
  OpenFiles.sink?_of_number? (number?_withOpened_firstFree h mode sink tree)
    (getElem?_withOpened h mode sink tree)

theorem number?_of_openTarget {h opened : Host} {mode : WriteMode} {path : Text} {file : Descriptor}
    (ho : h.openTarget mode path = (.ok file, opened)) :
    ∃ number, opened.files.number? file = some number := by
  rcases openTarget_cases h mode path with ⟨e, he⟩ | ⟨sink, tree, -, hopened⟩
  · rw [he] at ho
    cases ho
  · rw [hopened] at ho
    cases ho
    exact ⟨_, number?_withOpened_firstFree h mode sink tree⟩

theorem openTarget_ok {h opened : Host} {mode : WriteMode} {path : Text} {file : Descriptor}
    {sink : Sink} (ho : h.openTarget mode path = (.ok file, opened))
    (hsink : opened.files.sink? file = some sink) :
    file = h.files.firstFree ∧ ∃ tree, Opening h mode path sink tree ∧
      opened = h.withOpened mode sink tree := by
  rcases openTarget_cases h mode path with ⟨e, he⟩ | ⟨sink', tree, hopening, hopened⟩
  · rw [he] at ho
    cases ho
  · rw [hopened] at ho
    cases ho
    rw [sink?_withOpened] at hsink
    cases hsink
    exact ⟨rfl, tree, hopening, rfl⟩

theorem Opening.get?_file {h : Host} {mode : WriteMode} {path : Text} {p : Place}
    {tree : FileTree} (ho : Opening h mode path (.file p) tree) :
    ∃ perms content, tree.get? p = some (.file perms content) ∧
      (mode = .append ∨ content = []) := by
  cases ho with
  | created hp hparent => exact ⟨_, _, by rw [FileTree.get?_put, if_pos rfl], .inr rfl⟩
  | kept hp hfile hperms hmode => exact ⟨_, _, hfile, .inl hmode⟩
  | emptied hp hfile hperms hmode => exact ⟨_, _, by rw [FileTree.get?_put, if_pos rfl], .inr rfl⟩

theorem Opening.sink_ne_terminal {h : Host} {mode : WriteMode} {path : Text} {sink : Sink}
    {tree : FileTree} (ho : Opening h mode path sink tree) (stream : Stream) :
    sink ≠ .terminal stream := by
  cases ho <;> simp

theorem Opening.get?_of_ne {h : Host} {mode : WriteMode} {path : Text} {sink : Sink} {p : Place}
    {tree : FileTree} (ho : Opening h mode path sink tree) (hp : sink ≠ .file p) :
    tree.get? p = h.tree.get? p := by
  have hne : ∀ {q : Place}, Sink.file q ≠ .file p → p ≠ q := fun hq heq => hq (heq ▸ rfl)
  cases ho with
  | created hloc hparent => rw [FileTree.get?_put, if_neg (hne hp)]
  | kept hloc hfile hperms hmode => rfl
  | emptied hloc hfile hperms hmode => rw [FileTree.get?_put, if_neg (hne hp)]
  | device hloc hdevice => rfl

end LineShell.Host
