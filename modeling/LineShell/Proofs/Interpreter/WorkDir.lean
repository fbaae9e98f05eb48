import LineShell.Proofs.Execution.WorkDir
import LineShell.Proofs.Host.Spelling
import LineShell.Proofs.Interpreter.Play

/-!
# The working directory of a session

A session that starts in a directory with a canonical path, which may be entered from the root on,
is in such a directory after every line: links and steps up in what a `cd` is given do not show in
the path, and no line takes a directory away.  So the working directory is never what keeps a
program from being run, and the program is run there.
-/

namespace LineShell

open Host
open FileTree (SameDirectories)

/-- An attempt to run a program in a directory, which was no obstacle to it: what came of it is what
comes of it at the place of the directory, and a process that started is there. -/
structure Launch.MadeIn (l : Launch) (t : FileTree) (dir : Place) : Prop where
  workDir : l.workDir = dir.path
  unhindered : ∃ h : Host, t.SameDirectories h.tree ∧
    l.started = h.prepare l.program l.argv l.environ l.workDir ∧
    l.started = h.prepareIn dir l.program l.argv l.environ
  process : ∀ p, l.started = .ok p → p.workDir = dir

namespace Shell

structure Stands (s : Shell) (dir : Place) : Prop where
  cwd : s.env.cwd = dir.path
  enterable : s.host.tree.Enterable dir

variable {s s' : Shell} {dir : Place}

/-! ## One line -/

theorem stands_of_changeDir {h : Host} {env moved : Environment} {target : Text}
    (hcwd : Path.isAbsolute env.cwd = true) (hmoved : env.changeDir h target = .ok moved) :
    ∃ p : Place, moved.cwd = p.path ∧ h.tree.Enterable p := by
  obtain ⟨p, mode, hfind, hmode, -, rfl⟩ := Environment.changeDir_eq_ok_iff.mp hmoved
  have habs := Path.isAbsolute_join hcwd target
  exact ⟨p, rfl, FileTree.enterable_of_find habs hfind hmode⟩

theorem Steady.stands {argv : List Text} (hsteady : Steady argv s s') (hs : s.Stands dir) :
    ∃ dir', s'.Stands dir' := by
  rcases hsteady.cwd with hsame | ⟨h, target, hdirs, hmoved⟩
  · exact ⟨dir, hsame.trans hs.cwd, hsteady.directories.enterable hs.enterable⟩
  · have hcwd : Path.isAbsolute s.env.cwd = true := by
      rw [hs.cwd]
      exact dir.isAbsolute_path
    obtain ⟨p, hp, henter⟩ := stands_of_changeDir hcwd hmoved
    exact ⟨p, hp, (hdirs.symm.trans hsteady.directories).enterable henter⟩

theorem steady_line (line : Text) (s : Shell) :
    ∃ argv, Steady argv s ((Move.line line).apply s) := by
  cases hline : Command.ofLine line with
  | error e =>
      refine ⟨[], ?_⟩
      rw [Move.apply, evalLine_error hline]
      exact .refl [] s
  | ok c =>
      refine ⟨c.argv, ?_⟩
      rw [Move.apply, evalLine_ok hline]
      exact steady_execute hline s

theorem attempt_madeIn {h : Host} (hlimits : h.tree.WithinLimits)
    (hs : (s.withHost h).Stands dir) (program : Text) (argv : List Text) :
    ((s.withHost h).attempt program argv).MadeIn h.tree dir := by
  have husable := hlimits.usable hs.enterable
  obtain ⟨mode, hfind, hmode⟩ := FileTree.find_path husable hs.enterable h.workDir
  have hprepare := prepare_eq_prepareIn (h := h) (Place.nul_not_mem_path husable) hfind hmode
    program argv s.env.block
  rw [← hs.cwd] at hprepare
  refine ⟨hs.cwd, ⟨h, .refl h.tree, rfl, hprepare⟩, ?_⟩
  intro p hstarted
  exact workDir_of_prepareIn (hprepare.symm.trans hstarted)

theorem Steady.launches_madeIn {argv : List Text} (hsteady : Steady argv s s')
    (hlimits : s.host.tree.WithinLimits) (hs : s.Stands dir) :
    ∃ new, s'.host.launches = s.host.launches ++ new ∧
      ∀ l ∈ new, l.MadeIn s.host.tree dir := by
  rcases hsteady.launches with hnone | ⟨h, program, hdirs, hattempt⟩
  · exact ⟨[], by rw [hnone, List.append_nil], by simp⟩
  · refine ⟨_, hattempt, ?_⟩
    intro l hl
    rw [List.mem_singleton.mp hl]
    have hs' : (s.withHost h).Stands dir := ⟨hs.cwd, hdirs.enterable hs.enterable⟩
    obtain ⟨hworkDir, ⟨k, hdirs', hprepare⟩, hprocess⟩ :=
      attempt_madeIn (hdirs.withinLimits hlimits) hs' program argv
    exact ⟨hworkDir, ⟨k, hdirs.trans hdirs', hprepare⟩, hprocess⟩

/-! ## Runs -/

theorem stands_apply (hs : s.Stands dir) (move : Move) :
    (∃ dir', (move.apply s).Stands dir') ∧
      s.host.tree.SameDirectories (move.apply s).host.tree := by
  have hkept := kept_sameDirectories s.host.tree
  cases move with
  | line text =>
      obtain ⟨argv, hsteady⟩ := steady_line text s
      exact ⟨hsteady.stands hs, hsteady.directories⟩
  | read prompt source =>
      have hdirs := hkept.readLine (.refl s.host.tree) prompt source
      exact ⟨⟨dir, hs.cwd, hdirs.enterable hs.enterable⟩, hdirs⟩
  | report e =>
      have hdirs := hkept.report (.refl s.host.tree) e
      exact ⟨⟨dir, hs.cwd, hdirs.enterable hs.enterable⟩, hdirs⟩

theorem stands_play (hs : s.Stands dir) (moves : List Move) :
    (∃ dir', (s.play moves).Stands dir') ∧
      s.host.tree.SameDirectories (s.play moves).host.tree := by
  induction moves generalizing s dir with
  | nil => exact ⟨⟨dir, hs⟩, .refl s.host.tree⟩
  | cons move moves ih =>
      obtain ⟨⟨dir', hs'⟩, hdirs⟩ := stands_apply hs move
      obtain ⟨hstands, hdirs'⟩ := ih hs'
      exact ⟨hstands, hdirs.trans hdirs'⟩

theorem canonicalize_cwd (hlimits : s.host.tree.WithinLimits) (hs : s.Stands dir) :
    s.host.canonicalize s.env.cwd = .ok s.env.cwd := by
  have husable := hlimits.usable hs.enterable
  obtain ⟨mode, hfind, -⟩ := FileTree.find_path husable hs.enterable s.host.workDir
  have hspelled := (FileTree.isSpellable_iff dir.isAbsolute_path hfind).mpr
    (FileTree.spelled_path husable hs.enterable)
  rw [hs.cwd, canonicalize, find, hfind]
  simp only [hspelled, if_true]

theorem execute_pwd (hout : s.host.OnTerminal .stdout) (args : List Text) :
    execute .silent (.plain (Builtin.pwd.name :: args)) s =
      (.ok (.code 0), ⟨s.env, s.host.shown (s.env.cwd ++ ['\n']), s.own⟩) := by
  rw [execute_plain]
  simp only [runWords, Builtin.ofName?_name, noting_silent, runBuiltin_terminal hout, Builtin.run,
    flatten_pair]

/-- In every run of a session that starts in a directory that may be entered, whose path is its
canonical one, the session is in such a directory.  On the terminal `pwd` shows its path, and
whatever program the next line attempts to run, the directory does not keep it from running there.
-/
theorem stands_throughout (hlimits : s.host.tree.WithinLimits) (hs : s.Stands dir)
    (moves : List Move) :
    let k := s.play moves
    ∃ dir : Place, k.Stands dir ∧ dir.Usable ∧ k.host.canonicalize k.env.cwd = .ok k.env.cwd ∧
      (s.host.OnTerminal .stdout → ∀ args,
        execute .silent (.plain (Builtin.pwd.name :: args)) k =
          (.ok (.code 0), ⟨k.env, k.host.shown (k.env.cwd ++ ['\n']), k.own⟩)) ∧
      ∀ line, ∃ new, ((Move.line line).apply k).host.launches = k.host.launches ++ new ∧
        ∀ l ∈ new, l.MadeIn k.host.tree dir := by
  intro k
  obtain ⟨⟨dir', hs'⟩, hdirs⟩ := stands_play hs moves
  have hlimits' := hdirs.withinLimits hlimits
  refine ⟨dir', hs', hlimits'.usable hs'.enterable, canonicalize_cwd hlimits' hs', ?_, ?_⟩
  · intro hout
    exact execute_pwd ((restored_play moves s).sink?_of_some hout)
  · intro line
    obtain ⟨argv, hsteady⟩ := steady_line line k
    exact hsteady.launches_madeIn hlimits' hs'

theorem stands_throughout_link :
    let tree := ((FileTree.bare.make ["e".toList, "d".toList] (.directory 0o755)).make
      ["l".toList] (.link "d/e".toList)).make ["r".toList] (.file 0o755 Reporter.image)
    let s := ofParts (.ofVariables "/d".toList []) (.start tree Place.root)
    let moves : List Move := [.line "cd ../l/../e/.".toList, .line "cd missing > f".toList]
    (tree.WithinLimits ∧ s.Stands ["d".toList]) ∧
      (s.play moves).env.cwd = "/d/e".toList ∧
      (s.play moves).host.canonicalize (s.play moves).env.cwd = .ok (s.play moves).env.cwd ∧
      ((Move.line "/r cwd".toList).apply (s.play moves)).host.out =
        Utf8.encode "cwd=/d/e\n".toList := by
  intro tree s moves
  have hlimits : tree.WithinLimits :=
    FileTree.withinLimits_of_entries (by decide +kernel)
  have hroot : tree.Enterable Place.root :=
    FileTree.enterable_iff.mpr ⟨by decide +kernel, trivial⟩
  have hs : s.Stands ["d".toList] :=
    ⟨by decide +kernel, FileTree.enterable_iff.mpr ⟨by decide +kernel, hroot⟩⟩
  obtain ⟨dir, -, -, hcanonical, -⟩ := stands_throughout hlimits hs moves
  refine ⟨⟨hlimits, hs⟩, ?_, hcanonical, ?_⟩
  · decide +kernel
  · decide +kernel

end Shell

end LineShell
