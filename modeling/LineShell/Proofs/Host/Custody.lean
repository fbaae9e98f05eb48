import LineShell.Proofs.Execution.Restoration
import LineShell.Proofs.Host.Confinement
import Mathlib.Data.List.Nodup
import Mathlib.Data.List.Perm.Basic

/-!
# Guards that are held and released in any order

A descriptor is written to, pointed at targets, and pointed back by the release of guards, in any
order, and the files of the targets are closed at any time.  The descriptors under which guards keep
descriptions, and those of the files, are open and all differ, and no guard keeps anything under the
descriptor itself.  So a guard that is released finds the description that it kept.
-/

namespace LineShell

open Host

/-- A guard that is held, with the number of the description that it pointed the descriptor at, and
the host on which it was made. -/
structure Hold where
  guard : Guard
  target : Nat
  made : Host

/-- A host, the files of targets that are open, the guards that are held, the oldest first, and
those that were released, the latest first. -/
structure Custody where
  host : Host
  files : List Descriptor
  held : List Hold
  released : List Hold

namespace Custody

inductive Step where
  | write (data : Bytes)
  | point (mode : WriteMode) (path : Text)
  | close (i : Nat)
  | release (i : Nat)

variable (fd : Descriptor)

def point (mode : WriteMode) (path : Text) (c : Custody) : Except ExecError Unit × Custody :=
  match c.host.openTarget mode path with
  | (.error e, h) => (.error e, { c with host := h })
  | (.ok file, opened) =>
      match opened.acquire fd file with
      | (.error e, h) => (.error e, { c with host := h, files := c.files ++ [file] })
      | (.ok g, h) =>
          let hold : Hold := ⟨g, c.host.files.descriptions.length, opened.settle fd⟩
          (.ok (), { c with host := h, files := c.files ++ [file], held := c.held ++ [hold] })

def close (i : Nat) (c : Custody) : Custody :=
  match c.files[i]? with
  | none => c
  | some file => { c with host := c.host.close file, files := c.files.eraseIdx i }

def release (i : Nat) (c : Custody) : Custody :=
  match c.held[i]? with
  | none => c
  | some x => { c with
      host := c.host.release x.guard, held := c.held.eraseIdx i, released := x :: c.released }

def Step.apply : Step → Custody → Custody
  | write data, c => { c with host := (c.host.write fd data).2 }
  | point mode path, c => (c.point fd mode path).2
  | close i, c => c.close i
  | release i, c => c.release i

def run (steps : List Step) (c : Custody) : Custody := steps.foldl (fun c step => step.apply fd c) c

def start (h : Host) : Custody := ⟨h, [], [], []⟩

variable {fd} {c : Custody}

def taken (c : Custody) : List Descriptor := c.held.map (·.guard.saved) ++ c.files

theorem saved_mem_taken {x : Hold} (hx : x ∈ c.held) : x.guard.saved ∈ c.taken :=
  List.mem_append_left _ (List.mem_map.mpr ⟨x, hx, rfl⟩)

theorem file_mem_taken {file : Descriptor} (hfile : file ∈ c.files) : file ∈ c.taken :=
  List.mem_append_right _ hfile

/-- The guards on a descriptor keep what it stood for, under descriptors that nothing else has
taken. -/
structure Secure (fd : Descriptor) (c : Custody) : Prop where
  host : c.host.Sound
  guards : ∀ x ∈ c.held, x.guard.descriptor = fd ∧ x.guard.saved ≠ fd
  kept : ∀ x ∈ c.held, ∃ n, x.made.files.number? fd = some n ∧
    c.host.files.number? x.guard.saved = some n
  files : ∀ file ∈ c.files, c.host.files.number? file ≠ none
  distinct : c.taken.Nodup
  made : ∀ x ∈ c.held, x.made.Sound
  target : ∀ x ∈ c.held, x.target < x.made.files.descriptions.length
  lasting : ∀ x ∈ c.held, x.made.files.kinds <+: c.host.files.kinds

theorem Secure.open_of_taken (hc : c.Secure fd) {one : Descriptor} (hone : one ∈ c.taken) :
    ∃ n, c.host.files.number? one = some n := by
  rcases List.mem_append.mp hone with hguard | hfile
  · obtain ⟨x, hx, rfl⟩ := List.mem_map.mp hguard
    obtain ⟨n, -, hn⟩ := hc.kept x hx
    exact ⟨n, hn⟩
  · exact Option.ne_none_iff_exists'.mp (hc.files one hfile)

theorem Secure.ne_firstFree (hc : c.Secure fd) {one : Descriptor} (hone : one ∈ c.taken) :
    one ≠ c.host.files.firstFree := by
  obtain ⟨n, hn⟩ := hc.open_of_taken hone
  exact OpenFiles.ne_firstFree hn

theorem Secure.kinds (hc : c.Secure fd) {x : Hold} (hx : x ∈ c.held) {n : Nat}
    (hn : n < x.made.files.descriptions.length) :
    c.host.files.kinds[n]? = x.made.files.kinds[n]? := by
  obtain ⟨more, hmore⟩ := hc.lasting x hx
  rw [← hmore, List.getElem?_append_left (by rwa [OpenFiles.length_kinds])]

/-! ## Single changes -/

theorem Secure.of_number? (hc : c.Secure fd) {h : Host} (hs : h.Sound)
    (hnumber : ∀ one ∈ c.taken, h.files.number? one = c.host.files.number? one)
    (hkinds : c.host.files.kinds <+: h.files.kinds) : Secure fd { c with host := h } := by
  refine ⟨hs, hc.guards, fun x hx => ?_, fun file hfile => ?_, hc.distinct, hc.made, hc.target,
    fun x hx => (hc.lasting x hx).trans hkinds⟩
  · obtain ⟨n, hmade, hn⟩ := hc.kept x hx
    exact ⟨n, hmade, (hnumber _ (saved_mem_taken hx)).trans hn⟩
  · dsimp only
    rw [hnumber file (file_mem_taken hfile)]
    exact hc.files file hfile

theorem Secure.of_stays (hc : c.Secure fd) {h : Host} (hs : h.Sound)
    (hfiles : c.host.files.Stays h.files) : Secure fd { c with host := h } :=
  hc.of_number? hs (fun one _ => hfiles.number one) (hfiles.kinds ▸ List.prefix_rfl)

theorem Secure.settle (hc : c.Secure fd) : Secure fd { c with host := c.host.settle fd } :=
  hc.of_stays (hc.host.settle fd) (stays_settle c.host fd)

theorem prefix_withOpened (h : Host) (mode : WriteMode) (sink : Sink) (tree : FileTree) :
    h.files.kinds <+: (h.withOpened mode sink tree).files.kinds := by
  simp [OpenFiles.kinds, Host.withOpened]

theorem Secure.withOpened (hc : c.Secure fd) {mode : WriteMode} {path : Text} {sink : Sink}
    {tree : FileTree} (ho : Opening c.host mode path sink tree) :
    Secure fd { c with
      host := c.host.withOpened mode sink tree, files := c.files ++ [c.host.files.firstFree] } := by
  have hnumber (one : Descriptor) := number?_withOpened c.host mode sink tree one
  have hopened : Secure fd { c with host := c.host.withOpened mode sink tree } :=
    hc.of_number? (hc.host.withOpened ho)
      (fun one hone => (hnumber one).trans (if_neg (hc.ne_firstFree hone)))
      (prefix_withOpened c.host mode sink tree)
  refine { hopened with files := ?_, distinct := ?_ }
  · refine List.forall_mem_append.mpr ⟨hopened.files, List.forall_mem_singleton.mpr ?_⟩
    rw [hnumber, if_pos rfl]
    exact nofun
  · change (c.held.map (·.guard.saved) ++ (c.files ++ [c.host.files.firstFree])).Nodup
    rw [← List.append_assoc, ← List.concat_eq_append]
    exact hc.distinct.concat fun hmem => hc.ne_firstFree hmem rfl

theorem Secure.acquired (hc : c.Secure fd) {file : Descriptor} {saved number target : Nat}
    (hsaved : c.host.files.number? fd = some saved)
    (hfile : c.host.files.number? file = some number)
    (htarget : target < c.host.files.descriptions.length) :
    Secure fd { c with
      host := c.host.acquired fd file
      held := c.held ++ [⟨⟨fd, c.host.files.firstFree⟩, target, c.host.settle fd⟩] } := by
  have hnumber (one : Descriptor) := number?_acquired hsaved hfile one
  have hsettled := stays_settle c.host fd
  have hkinds : (c.host.acquired fd file).files.kinds = (c.host.settle fd).files.kinds :=
    congrArg (List.map _) (descriptions_acquired c.host fd file)
  have hne := OpenFiles.ne_firstFree hsaved
  refine ⟨?_, ?_, ?_, ?_, ?_, ?_, ?_, ?_⟩
  · exact ((hc.host.settle fd).assign _ fd).assign fd file
  · exact List.forall_mem_append.mpr
      ⟨hc.guards, List.forall_mem_singleton.mpr ⟨rfl, hne.symm⟩⟩
  · refine List.forall_mem_append.mpr ⟨fun x hx => ?_, List.forall_mem_singleton.mpr ?_⟩
    · rw [hnumber, if_neg (hc.guards x hx).2, if_neg (hc.ne_firstFree (saved_mem_taken hx))]
      exact hc.kept x hx
    · refine ⟨saved, (hsettled.number fd).trans hsaved, ?_⟩
      rw [hnumber, if_neg hne.symm, if_pos rfl]
  · intro one hone
    rw [hnumber, if_neg (hc.ne_firstFree (file_mem_taken hone))]
    split
    · exact nofun
    · exact hc.files one hone
  · -- the guard's descriptor comes behind those of the other guards, in front of the files'
    rw [taken, List.map_append, List.append_assoc, List.map_singleton, List.singleton_append,
      List.nodup_middle, List.nodup_cons]
    exact ⟨fun hmem => hc.ne_firstFree hmem rfl, hc.distinct⟩
  · exact List.forall_mem_append.mpr ⟨hc.made, List.forall_mem_singleton.mpr (hc.host.settle fd)⟩
  · exact List.forall_mem_append.mpr
      ⟨hc.target, List.forall_mem_singleton.mpr (Nat.lt_of_lt_of_eq htarget hsettled.length.symm)⟩
  · dsimp only
    rw [hkinds]
    refine List.forall_mem_append.mpr
      ⟨fun x hx => ?_, List.forall_mem_singleton.mpr List.prefix_rfl⟩
    rw [hsettled.kinds]
    exact hc.lasting x hx

theorem close_of_none {i : Nat} (hi : c.files[i]? = none) : c.close i = c := by
  simp only [close, hi]

theorem close_of_some {i : Nat} {file : Descriptor} (hi : c.files[i]? = some file) :
    c.close i = { c with host := c.host.close file, files := c.files.eraseIdx i } := by
  simp only [close, hi]

theorem getElem_cons_eraseIdx_perm {α : Type} {l : List α} {i : Nat} {a : α} (h : l[i]? = some a) :
    (a :: l.eraseIdx i).Perm l := by
  obtain ⟨hi, rfl⟩ := List.getElem?_eq_some_iff.mp h
  exact List.getElem_cons_eraseIdx_perm hi

theorem Secure.distinct_file (hc : c.Secure fd) {i : Nat} {file : Descriptor}
    (hi : c.files[i]? = some file) :
    (file :: taken { c with files := c.files.eraseIdx i }).Nodup := by
  have hperm : (c.held.map (·.guard.saved) ++ file :: c.files.eraseIdx i).Perm c.taken :=
    (getElem_cons_eraseIdx_perm hi).append_left _
  exact List.nodup_middle.mp (hperm.nodup_iff.mpr hc.distinct)

theorem Secure.close (hc : c.Secure fd) (i : Nat) : (c.close i).Secure fd := by
  cases hi : c.files[i]? with
  | none => rwa [close_of_none hi]
  | some file =>
      rw [close_of_some hi]
      have hdistinct := hc.distinct_file hi
      rw [List.nodup_cons] at hdistinct
      have herased : Secure fd { c with files := c.files.eraseIdx i } :=
        { hc with
          files := fun one hone => hc.files one (List.mem_of_mem_eraseIdx hone)
          distinct := hdistinct.2 }
      refine herased.of_number? (hc.host.close file) (fun one hone => ?_) List.prefix_rfl
      refine (OpenFiles.number?_close c.host.files file one).trans (if_neg ?_)
      rintro rfl
      exact hdistinct.1 hone

theorem release_of_none {i : Nat} (hx : c.held[i]? = none) : c.release i = c := by
  simp only [release, hx]

theorem release_of_some {i : Nat} {x : Hold} (hx : c.held[i]? = some x) :
    c.release i = { c with
      host := c.host.release x.guard, held := c.held.eraseIdx i, released := x :: c.released } := by
  simp only [release, hx]

theorem Secure.distinct_guard (hc : c.Secure fd) {i : Nat} {x : Hold} (hx : c.held[i]? = some x) :
    (x.guard.saved :: taken { c with held := c.held.eraseIdx i }).Nodup := by
  have hperm : ((x :: c.held.eraseIdx i).map (·.guard.saved) ++ c.files).Perm c.taken :=
    ((getElem_cons_eraseIdx_perm hx).map _).append_right _
  exact hperm.nodup_iff.mpr hc.distinct

theorem Secure.number?_release (hc : c.Secure fd) {x : Hold} (hx : x ∈ c.held) {n : Nat}
    (hn : c.host.files.number? x.guard.saved = some n) (one : Descriptor) :
    (c.host.release x.guard).files.number? one =
      if one = x.guard.saved then none
      else if one = fd then some n else c.host.files.number? one := by
  have hsettled := stays_settle c.host fd
  unfold Host.release
  rw [(hc.guards x hx).1]
  dsimp only
  rw [OpenFiles.number?_close, OpenFiles.number?_assign ((hsettled.number _).trans hn),
    hsettled.number]

theorem descriptions_release (h : Host) (g : Guard) :
    (h.release g).files.descriptions = (h.settle g.descriptor).files.descriptions := by
  simp [Host.release]

theorem kinds_release (h : Host) (g : Guard) : (h.release g).files.kinds = h.files.kinds :=
  (congrArg (List.map _) (descriptions_release h g)).trans (stays_settle h g.descriptor).kinds

theorem Secure.release (hc : c.Secure fd) (i : Nat) : (c.release i).Secure fd := by
  cases hx : c.held[i]? with
  | none => rwa [release_of_none hx]
  | some x =>
      rw [release_of_some hx]
      have hmem := List.mem_of_getElem? hx
      obtain ⟨n, -, hn⟩ := hc.kept x hmem
      have hnumber := hc.number?_release hmem hn
      have hdistinct := hc.distinct_guard hx
      rw [List.nodup_cons] at hdistinct
      have hothers : ∀ y ∈ c.held.eraseIdx i, y ∈ c.held := fun y hy =>
        List.mem_of_mem_eraseIdx hy
      have hsound := hc.host.settle x.guard.descriptor
      refine ⟨(hsound.assign _ _).close _, fun y hy => hc.guards y (hothers y hy), fun y hy => ?_,
        fun file hfile => ?_, hdistinct.2, fun y hy => hc.made y (hothers y hy),
        fun y hy => hc.target y (hothers y hy), fun y hy => ?_⟩
      · obtain ⟨m, hmade, hm⟩ := hc.kept y (hothers y hy)
        refine ⟨m, hmade, ?_⟩
        have hne : y.guard.saved ≠ x.guard.saved := fun heq =>
          hdistinct.1 (heq ▸ saved_mem_taken hy)
        rw [hnumber, if_neg hne, if_neg (hc.guards y (hothers y hy)).2, hm]
      · have hne : file ≠ x.guard.saved := fun heq => hdistinct.1 (heq ▸ file_mem_taken hfile)
        rw [hnumber, if_neg hne]
        split
        · exact nofun
        · exact hc.files file hfile
      · dsimp only
        rw [kinds_release]
        exact hc.lasting y (hothers y hy)

/-! ## Steps and runs -/

theorem point_cases (fd : Descriptor) (c : Custody) (mode : WriteMode) (path : Text) :
    (∃ e, c.point fd mode path = (.error e, c)) ∨
      ∃ sink tree, Opening c.host mode path sink tree ∧
        let opened := c.host.withOpened mode sink tree
        let file := c.host.files.firstFree
        (opened.files.number? fd = none ∧
            c.point fd mode path = (.error (.io (.os .badDescriptor)), { c with
              host := opened.settle fd, files := c.files ++ [file] })) ∨
          ∃ saved, opened.files.number? fd = some saved ∧
            c.point fd mode path = (.ok (), { c with
              host := opened.acquired fd file
              files := c.files ++ [file]
              held := c.held ++ [⟨⟨fd, opened.files.firstFree⟩,
                c.host.files.descriptions.length, opened.settle fd⟩] }) := by
  unfold point
  rcases openTarget_cases c.host mode path with ⟨e, he⟩ | ⟨sink, tree, hopening, hopened⟩
  · left
    exact ⟨_, by rw [he]⟩
  · right
    refine ⟨sink, tree, hopening, ?_⟩
    have hfile := number?_withOpened_firstFree c.host mode sink tree
    rw [hopened]
    cases hsaved : (c.host.withOpened mode sink tree).files.number? fd with
    | none => exact .inl ⟨hsaved, by simp only [acquire_closed hsaved]⟩
    | some saved => exact .inr ⟨saved, hsaved, by simp only [acquire_eq hsaved hfile]⟩

theorem length_withOpened (h : Host) (mode : WriteMode) (sink : Sink) (tree : FileTree) :
    (h.withOpened mode sink tree).files.descriptions.length = h.files.descriptions.length + 1 := by
  simp [Host.withOpened]

theorem Secure.point (hc : c.Secure fd) (mode : WriteMode) (path : Text) :
    (c.point fd mode path).2.Secure fd := by
  rcases point_cases fd c mode path with
    ⟨e, hpoint⟩ | ⟨sink, tree, hopening, ⟨-, hpoint⟩ | ⟨saved, hsaved, hpoint⟩⟩
  · rw [hpoint]
    exact hc
  · rw [hpoint]
    exact (hc.withOpened hopening).settle
  · rw [hpoint]
    refine (hc.withOpened hopening).acquired hsaved (number?_withOpened_firstFree ..) ?_
    exact Nat.lt_of_lt_of_eq (Nat.lt_succ_self _) (length_withOpened ..).symm

theorem Secure.apply (hc : c.Secure fd) (step : Step) : (step.apply fd c).Secure fd := by
  cases step with
  | write data => exact hc.of_stays (hc.host.write fd data) (stays_write c.host fd data)
  | point mode path => exact hc.point mode path
  | close i => exact hc.close i
  | release i => exact hc.release i

theorem Secure.run (hc : c.Secure fd) (steps : List Step) : (c.run fd steps).Secure fd := by
  induction steps generalizing c with
  | nil => exact hc
  | cons step steps ih => exact ih (hc.apply step)

/-- A guard that is released has the descriptor stand for what it stood for when the guard was
made. -/
theorem Secure.number?_released (hc : c.Secure fd) {i : Nat} {x : Hold} (hx : c.held[i]? = some x) :
    (c.release i).host.files.number? fd = x.made.files.number? fd := by
  have hmem := List.mem_of_getElem? hx
  obtain ⟨n, hmade, hn⟩ := hc.kept x hmem
  rw [release_of_some hx, hmade]
  dsimp only
  rw [hc.number?_release hmem hn, if_neg (hc.guards x hmem).2.symm, if_pos rfl]

end Custody

end LineShell
