import LineShell.Proofs.Environment.ChangeDir
import LineShell.Proofs.Execution.Terminal
import LineShell.Proofs.Host.Spelling

/-!
# Where a session may move

A session may move to a directory that the path leads to and that may be searched, if the path of
the directory can be spelled out, and to nothing else; what it is refused for says what the path led
to instead.  A `cd` moves the session or prints the refusal, and then leaves it where it was.
-/

namespace LineShell

namespace FileTree

variable {t : FileTree} {path : Text}

def Admits (t : FileTree) (path : Text) (p : Place) : Prop :=
  ∃ mode, t.Leads path (.ok (p, .directory mode)) ∧ mode.executable = true

/-- Why a path is no way to a directory that may be searched and whose path can be spelled out. -/
inductive Refuses (t : FileTree) (path : Text) : IOError → Prop
  | astray {e : IOError} (hpath : t.Leads path (.error e)) : Refuses t path e
  | elsewhere {p : Place} {entry : Entry} (hpath : t.Leads path (.ok (p, entry)))
      (hentry : entry.isDirectory = false) : Refuses t path (.os .notDirectory)
  | closed {p : Place} {mode : Mode} (hpath : t.Leads path (.ok (p, .directory mode)))
      (hmode : mode.executable = false) : Refuses t path (.os .accessDenied)
  | unspelled {p : Place} (hpath : t.Admits path p) (hlong : ¬ t.Spelled path) :
      Refuses t path (.os .nameTooLong)

theorem Admits.enterable {p : Place} (hpath : t.Admits path p)
    (habs : Path.isAbsolute path = true) : t.Enterable p := by
  obtain ⟨mode, hleads, hmode⟩ := hpath
  exact enterable_of_find habs ((leads_iff habs Place.root).mp hleads) hmode

def refusals : List IOError :=
  [.os .noEntry, .os .notDirectory, .os .accessDenied, .os .tooManyLinks, .os .nameTooLong,
    .nulInPath]

theorem Resolves.error_mem {links : Nat} {here : Place} {steps : List Path.Step} {slash : Bool}
    {e : Errno} (h : Resolves t links here steps slash (.error e)) : .os e ∈ refusals := by
  generalize hr : (.error e : Except Errno (Place × Entry)) = r at h
  induction h with
  | arrived | last => cases hr
  | stay _ _ ih | up _ _ ih | down _ _ _ _ ih | link _ _ _ _ ih => exact ih hr
  | nowhere | barred | tooLong | missing | tooMany | beyond =>
      cases hr
      simp [refusals]

theorem Refuses.mem {e : IOError} (h : t.Refuses path e) : e ∈ refusals := by
  cases h with
  | astray hpath =>
      generalize hr : (.error e : Except IOError (Place × Entry)) = r at hpath
      cases hpath with
      | nul hnul | tooLong hnul hlong =>
          cases hr
          simp [refusals]
      | @walked r hnul hshort hwalk =>
          cases r with
          | ok found => cases hr
          | error e' =>
              cases hr
              exact hwalk.error_mem
  | elsewhere | closed | unspelled => simp [refusals]

end FileTree

namespace Environment

variable {env : Environment} {h : Host} {path : Text}

theorem leads_resolve_iff (hcwd : Path.isAbsolute env.cwd = true)
    {r : Except IOError (Place × Entry)} :
    h.tree.Leads (env.resolve path) r ↔ h.find (env.resolve path) = r :=
  FileTree.leads_iff (Path.isAbsolute_join hcwd path) h.workDir

theorem admits_of_find (hcwd : Path.isAbsolute env.cwd = true) {p : Place} {mode : Mode}
    (hfind : h.find (env.resolve path) = .ok (p, .directory mode))
    (hmode : mode.executable = true) : h.tree.Admits (env.resolve path) p :=
  ⟨mode, (leads_resolve_iff hcwd).mpr hfind, hmode⟩

theorem isSpellable_resolve_iff (hcwd : Path.isAbsolute env.cwd = true) {found : Place × Entry}
    (hfind : h.find (env.resolve path) = .ok found) :
    h.tree.isSpellable h.workDir (env.resolve path) = true ↔ h.tree.Spelled (env.resolve path) :=
  FileTree.isSpellable_iff (Path.isAbsolute_join hcwd path) hfind

theorem changeDir_eq_ok_iff_admits (hcwd : Path.isAbsolute env.cwd = true) {moved : Environment} :
    env.changeDir h path = .ok moved ↔
      ∃ p, h.tree.Admits (env.resolve path) p ∧ h.tree.Spelled (env.resolve path) ∧
        moved = { env with cwd := p.path } := by
  simp only [changeDir_eq_ok_iff, FileTree.Admits, leads_resolve_iff hcwd]
  constructor
  · rintro ⟨p, mode, hfind, hmode, hspelled, hmoved⟩
    exact ⟨p, ⟨mode, hfind, hmode⟩, (isSpellable_resolve_iff hcwd hfind).mp hspelled, hmoved⟩
  · rintro ⟨p, ⟨mode, hfind, hmode⟩, hspelled, hmoved⟩
    exact ⟨p, mode, hfind, hmode, (isSpellable_resolve_iff hcwd hfind).mpr hspelled, hmoved⟩

theorem changeDir_eq_error_iff_refuses (hcwd : Path.isAbsolute env.cwd = true) {e : IOError} :
    env.changeDir h path = .error e ↔ h.tree.Refuses (env.resolve path) e := by
  rw [changeDir_eq]
  constructor
  · intro herror
    cases hfind : h.find (env.resolve path) with
    | error e' =>
        rw [hfind] at herror
        cases herror
        exact .astray ((leads_resolve_iff hcwd).mpr hfind)
    | ok found =>
        obtain ⟨p, entry⟩ := found
        have hleads := (leads_resolve_iff hcwd).mpr hfind
        rw [hfind] at herror
        cases entry with
        | directory mode =>
            cases hmode : mode.executable with
            | true =>
                have hspelled := isSpellable_resolve_iff hcwd hfind
                simp only [Entry.isDirectory, Entry.isPassable, hmode, Bool.not_true,
                  Bool.false_eq_true, if_false] at herror
                split at herror
                · cases herror
                · next hlong =>
                    cases herror
                    exact .unspelled ⟨mode, hleads, hmode⟩ (hlong ∘ hspelled.mpr)
            | false =>
                simp only [Entry.isDirectory, Entry.isPassable, hmode] at herror
                cases herror
                exact .closed hleads hmode
        | file _ _ | link _ | device _ =>
            cases herror
            exact .elsewhere hleads rfl
  · rintro (hpath | ⟨hpath, hentry⟩ | ⟨hpath, hmode⟩ | ⟨⟨mode, hpath, hmode⟩, hlong⟩)
    · rw [(leads_resolve_iff hcwd).mp hpath]
    · rw [(leads_resolve_iff hcwd).mp hpath]
      simp [hentry]
    · rw [(leads_resolve_iff hcwd).mp hpath]
      simp [Entry.isDirectory, Entry.isPassable, hmode]
    · have hfind := (leads_resolve_iff hcwd).mp hpath
      rw [← isSpellable_resolve_iff hcwd hfind] at hlong
      rw [hfind]
      simp only [Entry.isDirectory, Entry.isPassable, hmode]
      exact if_neg hlong

end Environment

namespace Shell

variable {s : Shell}

inductive CdTarget (env : Environment) : Text → Text → Prop
  | home {target : Text} (hhome : env.get? Builtin.homeVariable = some target) :
      CdTarget env ['~'] target
  | named {arg : Text} (harg : arg ≠ ['~']) : CdTarget env arg arg

/-- What a `cd` comes to for an argument: the session moves and nothing is printed, or it stays and
a message ends in why. -/
inductive CdEnds (arg : Text) (s : Shell) : Except ExecError Outcome × Shell → Prop
  | homeless (harg : arg = ['~']) (hhome : s.env.get? Builtin.homeVariable = none) :
      CdEnds arg s (.ok (.code 1), s.withHost (s.host.delivered "cd: HOME not set\n".toList))
  | moved {target : Text} {p : Place} (htarget : CdTarget s.env arg target)
      (hpath : s.host.tree.Admits (s.env.resolve target) p)
      (hspelled : s.host.tree.Spelled (s.env.resolve target)) :
      CdEnds arg s (.ok (.code 0), ⟨{ s.env with cwd := p.path }, s.host.delivered [], s.own⟩)
  | refused {target : Text} {e : IOError} (htarget : CdTarget s.env arg target)
      (hpath : s.host.tree.Refuses (s.env.resolve target) e) :
      CdEnds arg s (.ok (.code 1),
        s.withHost (s.host.delivered ("cd: ".toList ++ arg ++ ": ".toList ++ e.describe ++ ['\n'])))

theorem runCd_of_target {env : Environment} {arg target : Text} (htarget : CdTarget env arg target)
    (rest : List Text) (h : Host) :
    Builtin.runCd (arg :: rest) env h =
      match env.changeDir h target with
      | .ok moved => ⟨[], .code 0, moved⟩
      | .error e => ⟨["cd: ".toList, arg, ": ".toList, e.describe, ['\n']], .code 1, env⟩ := by
  cases htarget with
  | home hhome =>
      cases hmoved : env.changeDir h target <;> simp [Builtin.runCd, hhome, hmoved]
  | named harg =>
      cases hmoved : env.changeDir h arg <;> simp [Builtin.runCd, harg, hmoved]

theorem exists_cdTarget (env : Environment) (arg : Text) :
    (arg = ['~'] ∧ env.get? Builtin.homeVariable = none) ∨ ∃ target, CdTarget env arg target := by
  by_cases harg : arg = ['~']
  · subst harg
    cases hhome : env.get? Builtin.homeVariable with
    | none => exact .inl ⟨rfl, rfl⟩
    | some target => exact .inr ⟨target, .home hhome⟩
  · exact .inr ⟨arg, .named harg⟩

theorem exists_cdEnds (hcwd : Path.isAbsolute s.env.cwd = true) (arg : Text) :
    ∃ r, CdEnds arg s r := by
  rcases exists_cdTarget s.env arg with ⟨harg, hhome⟩ | ⟨target, htarget⟩
  · exact ⟨_, .homeless harg hhome⟩
  · cases hmoved : s.env.changeDir s.host target with
    | ok moved =>
        obtain ⟨p, hpath, hspelled, -⟩ := (Environment.changeDir_eq_ok_iff_admits hcwd).mp hmoved
        exact ⟨_, .moved htarget hpath hspelled⟩
    | error e =>
        exact ⟨_, .refused htarget ((Environment.changeDir_eq_error_iff_refuses hcwd).mp hmoved)⟩

theorem CdEnds.runBuiltin_eq {arg : Text} {r : Except ExecError Outcome × Shell}
    (h : CdEnds arg s r) (hcwd : Path.isAbsolute s.env.cwd = true) (hroom : ¬ s.host.OnFull)
    (rest : List Text) : runBuiltin .cd (arg :: rest) s = r := by
  rw [runBuiltin_of_room hroom, Builtin.run]
  cases h with
  | homeless harg hhome =>
      simp only [Builtin.runCd, harg, hhome, if_true, List.flatten_singleton, withHost]
  | moved htarget hpath hspelled =>
      rw [runCd_of_target htarget,
        (Environment.changeDir_eq_ok_iff_admits hcwd).mpr ⟨_, hpath, hspelled, rfl⟩]
      rfl
  | refused htarget hpath =>
      rw [runCd_of_target htarget, (Environment.changeDir_eq_error_iff_refuses hcwd).mpr hpath]
      simp only [List.flatten_cons, List.flatten_nil, List.append_nil, List.append_assoc, withHost]

theorem runBuiltin_cd_iff (hcwd : Path.isAbsolute s.env.cwd = true) (hroom : ¬ s.host.OnFull)
    (arg : Text) (rest : List Text) (r : Except ExecError Outcome × Shell) :
    runBuiltin .cd (arg :: rest) s = r ↔ CdEnds arg s r := by
  constructor
  · rintro rfl
    obtain ⟨r, hr⟩ := exists_cdEnds hcwd arg
    rw [hr.runBuiltin_eq hcwd hroom]
    exact hr
  · intro hr
    exact hr.runBuiltin_eq hcwd hroom rest

/-- From an absolute working directory a path is decided by what it leads to.  To a directory that
may be searched, as then all above it may, the session moves if every entry on the way fits into a
look-up; then it has the directory's own path, and nothing else of it changes.  For everything else
it is refused.  A `cd` prints why, and stays. -/
theorem moves_decided (hcwd : Path.isAbsolute s.env.cwd = true) (path : Text) :
    (∀ moved, s.env.changeDir s.host path = .ok moved ↔
        ∃ p, s.host.tree.Admits (s.env.resolve path) p ∧ s.host.tree.Enterable p ∧
          s.host.tree.Spelled (s.env.resolve path) ∧ moved = { s.env with cwd := p.path }) ∧
      (∀ e, s.env.changeDir s.host path = .error e ↔
        s.host.tree.Refuses (s.env.resolve path) e ∧ e ∈ FileTree.refusals) ∧
      (¬ s.host.OnFull → ∀ rest r,
        runBuiltin .cd (path :: rest) s = r ↔ CdEnds path s r) := by
  refine ⟨fun moved => ?_, fun e => ?_, ?_⟩
  · -- where a path leads that may be searched, all above it may
    rw [Environment.changeDir_eq_ok_iff_admits hcwd]
    refine exists_congr fun p => and_congr_right fun hpath => (and_iff_right ?_).symm
    exact hpath.enterable (Path.isAbsolute_join hcwd path)
  · rw [Environment.changeDir_eq_error_iff_refuses hcwd]
    exact ⟨fun hpath => ⟨hpath, hpath.mem⟩, And.left⟩
  · exact fun hroom rest r => runBuiltin_cd_iff hcwd hroom path rest r

theorem moves_decided_home :
    let tree := ((FileTree.bare.make ["in".toList, "d".toList] (.directory 0o600)).make
      ["l".toList] (.link "d".toList))
    let s := ofParts (.ofVariables "/gone".toList [("HOME".toList, "/l/./in".toList)])
      (.start tree Place.root)
    (Path.isAbsolute s.env.cwd = true ∧ ¬ s.host.OnFull) ∧
      s.host.tree.Refuses (s.env.resolve "..".toList) (.os .noEntry) ∧
      runBuiltin .cd [['~'], "x".toList] s =
        (.ok (.code 1), s.withHost (s.host.delivered "cd: ~: Permission denied\n".toList)) ∧
      runBuiltin .cd ["/l/".toList] s =
        (.ok (.code 0), ⟨{ s.env with cwd := "/d".toList }, s.host.delivered [], s.own⟩) := by
  intro tree s
  have hcwd : Path.isAbsolute s.env.cwd = true := by decide
  have hout : s.host.OnTerminal .stdout := rfl
  have hroom := hout.not_onFull
  have hup : s.env.changeDir s.host "..".toList = .error (.os .noEntry) := by decide +kernel
  have hhome : s.env.changeDir s.host "/l/./in".toList = .error (.os .accessDenied) := by
    decide +kernel
  have hlink : s.env.changeDir s.host "/l/".toList =
      .ok { s.env with cwd := "/d".toList } := by
    decide +kernel
  obtain ⟨-, hrefused, -⟩ := moves_decided hcwd "..".toList
  obtain ⟨-, hbarred, -⟩ := moves_decided hcwd "/l/./in".toList
  obtain ⟨hmoves, -, hcd⟩ := moves_decided hcwd "/l/".toList
  obtain ⟨-, -, htilde⟩ := moves_decided hcwd ['~']
  refine ⟨⟨hcwd, hroom⟩, ((hrefused _).mp hup).1, ?_, ?_⟩
  · have htext : "cd: ".toList ++ ['~'] ++ ": ".toList ++ (IOError.os .accessDenied).describe ++
        ['\n'] = "cd: ~: Permission denied\n".toList := by
      decide +kernel
    have hvalue : s.env.get? Builtin.homeVariable = some "/l/./in".toList := by decide +kernel
    rw [← htext]
    exact (htilde hroom _ _).mpr (.refused (.home hvalue) ((hbarred _).mp hhome).1)
  · obtain ⟨p, hadmits, -, hspelled, hp⟩ := (hmoves _).mp hlink
    rw [hp]
    exact (hcd hroom _ _).mpr (.moved (.named (by decide)) hadmits hspelled)

/-- A directory that may be searched, behind a link so deep that its own path is too long. -/
theorem not_moved_too_deep :
    let long : Char → Name := fun c => c :: List.replicate 62 '𝐱'
    let upper : Place := ("hgfedcba".toList.map long)
    let lower : Place := ("rqponmlkj".toList.map long)
    let tree := ((FileTree.bare.make upper (.directory 0o755)).make ["l".toList]
      (.link upper.path)).make (lower ++ ["l".toList]) (.directory 0o755)
    let h : Host := .start tree Place.root
    let env := Environment.ofVariables "/".toList []
    let path := "l".toList ++ lower.path
    Path.isAbsolute env.cwd = true ∧
      h.tree.Admits (env.resolve path) (lower ++ upper) ∧
      env.changeDir h path = .error (.os .nameTooLong) := by
  intro long upper lower tree h env path
  have hcwd : Path.isAbsolute env.cwd = true := by decide
  have hfind : h.find (env.resolve path) = .ok (lower ++ upper, .directory 0o755) := by
    decide +kernel
  exact ⟨hcwd, Environment.admits_of_find hcwd hfind (by decide), by decide +kernel⟩

end Shell

end LineShell
