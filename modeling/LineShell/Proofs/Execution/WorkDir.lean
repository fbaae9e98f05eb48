import LineShell.Proofs.Command
import LineShell.Proofs.Environment.ChangeDir
import LineShell.Proofs.Execution.Restoration
import LineShell.Proofs.Execution.Terminal
import LineShell.Proofs.Host.Directories

/-!
# What a command does about directories

A command leaves all directories as they are.  It moves a session at most once, to a directory
that it looked up in a tree with the same directories, and it attempts at most once to run a
program, in the working directory of the session.
-/

namespace LineShell

open Host

namespace Host

variable {h : Host}

theorem launches_flush (h : Host) : h.flush.2.launches = h.launches :=
  ((outputStable_launches h.launches).flush ⟨rfl, rfl⟩).2.2

theorem launches_printAll (h : Host) (pieces : List Text) :
    (h.printAll pieces).2.launches = h.launches :=
  ((outputStable_launches h.launches).printAll ⟨rfl, rfl⟩ pieces).2.2

theorem launches_writeStream (h : Host) (stream : Stream) (data : Bytes) :
    (h.writeStream stream data).2.launches = h.launches :=
  ((outputStable_launches h.launches).writeStream ⟨rfl, rfl⟩ stream data).2.2

theorem launches_launch (h : Host) (program : Text) (argv environ : List Text) (workDir : Text) :
    (h.launch program argv environ workDir).2.launches = h.launches ++
      [⟨program, argv, environ, workDir, h.prepare program argv environ workDir⟩] := by
  rw [launch_eq]
  dsimp only
  cases h.prepare program argv environ workDir with
  | error e => rfl
  | ok p => exact launches_run p _

theorem launches_settle (h : Host) (fd : Descriptor) : (h.settle fd).launches = h.launches := by
  unfold settle
  split
  · exact launches_flush h
  · rfl

theorem sameDirectories_settle (h : Host) (fd : Descriptor) :
    h.tree.SameDirectories (h.settle fd).tree :=
  (kept_sameDirectories h.tree).settle (.refl h.tree) fd

end Host

namespace Shell

structure Steady (argv : List Text) (s s' : Shell) : Prop where
  directories : s.host.tree.SameDirectories s'.host.tree
  cwd : s'.env.cwd = s.env.cwd ∨ ∃ h target, s.host.tree.SameDirectories h.tree ∧
    s.env.changeDir h target = .ok s'.env
  launches : s'.host.launches = s.host.launches ∨ ∃ h program,
    s.host.tree.SameDirectories h.tree ∧
      s'.host.launches = s.host.launches ++ [(s.withHost h).attempt program argv]

variable {s s' : Shell} {argv : List Text}

/-! ## Words -/

theorem env_runBuiltin (b : Builtin) (args : List Text) (s : Shell) :
    (runBuiltin b args s).2.env = (b.run args s.env s.host).env := by
  unfold runBuiltin
  dsimp only
  split <;> rfl

theorem env_reportNotFound (name : Text) (s : Shell) :
    ∃ status, (reportNotFound name s).2.env = s.env.setStatus status := by
  unfold reportNotFound
  split
  · exact ⟨s.env.status, rfl⟩
  · split
    · exact ⟨s.env.status, rfl⟩
    · exact ⟨statusNotFound, rfl⟩

theorem env_runProgram (name path : Text) (args : List Text) (s : Shell) :
    ∃ status, (runProgram .silent name path args s).2.env = s.env.setStatus status := by
  simp only [runProgram, noting_silent]
  split
  · exact ⟨s.env.status, rfl⟩
  · split
    · exact ⟨_, rfl⟩
    · dsimp only [reportLaunch]
      split
      · exact ⟨s.env.status, rfl⟩
      · exact ⟨statusCannotExecute, rfl⟩

theorem env_runWords (argv : List Text) (s : Shell) :
    (∃ status, (runWords .silent argv s).2.env = s.env.setStatus status) ∨
      ∃ target, s.env.changeDir s.host target = .ok (runWords .silent argv s).2.env := by
  have hsame : s.env = s.env.setStatus s.env.status := rfl
  cases argv with
  | nil => exact .inl ⟨_, hsame⟩
  | cons name args =>
      simp only [runWords, noting_silent]
      cases Builtin.ofName? name with
      | some b =>
          dsimp only
          rw [env_runBuiltin]
          rcases b.env_run args s.env s.host with henv | ⟨-, target, moved, hmoved, hrun⟩
          · exact .inl ⟨_, henv.trans hsame⟩
          · exact .inr ⟨target, by rw [hmoved, hrun]⟩
      | none =>
          left
          dsimp only
          cases Lookup.resolveIn s.host s.env name with
          | none => exact env_reportNotFound name s
          | some path => exact env_runProgram name path args s

theorem cwd_runWords (argv : List Text) (s : Shell) :
    (runWords .silent argv s).2.env.cwd = s.env.cwd ∨
      ∃ target, s.env.changeDir s.host target = .ok (runWords .silent argv s).2.env :=
  (env_runWords argv s).imp_left fun ⟨_, henv⟩ => by rw [henv, Environment.setStatus]

theorem launches_runBuiltin (b : Builtin) (args : List Text) (s : Shell) :
    (runBuiltin b args s).2.host.launches = s.host.launches := by
  have hlaunches : (s.host.printAll (b.run args s.env s.host).pieces).2.flush.2.launches =
      s.host.launches := by
    rw [launches_flush, launches_printAll]
  unfold runBuiltin
  dsimp only
  split <;> exact hlaunches

theorem launches_reportNotFound (name : Text) (s : Shell) :
    (reportNotFound name s).2.host.launches = s.host.launches := by
  have hprinted := launches_printAll s.host [name, ": command not found\n".toList]
  unfold reportNotFound
  split
  · next e h heq =>
      rw [heq] at hprinted
      exact hprinted
  · next h heq =>
      rw [heq] at hprinted
      have hflushed := (launches_flush h).trans hprinted
      split
      · next e k hflush =>
          rw [hflush] at hflushed
          exact hflushed
      · next k hflush =>
          rw [hflush] at hflushed
          exact hflushed

theorem launches_reportLaunch (name : Text) (cause : IOError) (s : Shell) :
    (reportLaunch name cause (finish statusCannotExecute) s).2.host.launches =
      s.host.launches := by
  have hwritten := launches_writeStream s.host .stderr
    (Utf8.encode (name ++ ": ".toList ++ cause.message ++ ['\n']))
  unfold reportLaunch
  dsimp only
  split
  · next e k heq =>
      rw [heq] at hwritten
      exact hwritten
  · next k heq =>
      rw [heq] at hwritten
      exact hwritten

theorem launches_runProgram (name path : Text) (args : List Text) (s : Shell) :
    (∃ e, (runProgram .silent name path args s).1 = .error e) ∧
        (runProgram .silent name path args s).2.host.launches = s.host.launches ∨
      (runProgram .silent name path args s).2.host.launches = s.host.launches ++
        [(s.withHost s.host.flush.2).attempt (s.env.resolve path) (name :: args)] := by
  have hflushed := launches_flush s.host
  simp only [runProgram, noting_silent]
  rcases hflush : s.host.flush with ⟨e | _, h⟩
  · rw [hflush] at hflushed
    exact .inl ⟨⟨.io e, rfl⟩, hflushed⟩
  · right
    rw [hflush] at hflushed
    have hlaunched := launches_launch h (s.env.resolve path) (name :: args) s.env.block s.env.cwd
    rw [hflushed] at hlaunched
    dsimp only
    rcases hlaunch : h.launch (s.env.resolve path) (name :: args) s.env.block s.env.cwd with
      ⟨cause | status, k⟩
    · rw [hlaunch] at hlaunched
      exact (launches_reportLaunch name cause (s.withHost k)).trans hlaunched
    · rw [hlaunch] at hlaunched
      exact hlaunched

theorem launches_runWords (argv : List Text) (s : Shell) :
    (runWords .silent argv s).2.host.launches = s.host.launches ∨
      ∃ program, (runWords .silent argv s).2.host.launches =
        s.host.launches ++ [(s.withHost s.host.flush.2).attempt program argv] := by
  cases argv with
  | nil => exact .inl rfl
  | cons name args =>
      simp only [runWords, noting_silent]
      cases Builtin.ofName? name with
      | some b => exact .inl (launches_runBuiltin b args s)
      | none =>
          dsimp only
          cases Lookup.resolveIn s.host s.env name with
          | none => exact .inl (launches_reportNotFound name s)
          | some path =>
              rcases launches_runProgram name path args s with ⟨-, hnone⟩ | hattempt
              · exact .inl hnone
              · exact .inr ⟨_, hattempt⟩

theorem steady_runWords (argv : List Text) (s : Shell) :
    Steady argv s (runWords .silent argv s).2 where
  directories := runWords_keeps (kept_sameDirectories s.host.tree) (.refl s.host.tree) argv
  cwd := (cwd_runWords argv s).imp_right fun ⟨target, hmoved⟩ =>
    ⟨s.host, target, .refl s.host.tree, hmoved⟩
  launches := (launches_runWords argv s).imp_right fun ⟨program, hattempt⟩ =>
    ⟨_, program, (kept_sameDirectories s.host.tree).flush (.refl s.host.tree), hattempt⟩

/-! ## Commands -/

theorem Steady.refl (argv : List Text) (s : Shell) : Steady argv s s :=
  ⟨.refl s.host.tree, .inl rfl, .inl rfl⟩

theorem Steady.framed {h k : Host} (hs : Steady argv (s.withHost h) s')
    (hbefore : s.host.tree.SameDirectories h.tree) (hlaunches : h.launches = s.host.launches)
    (hafter : s'.host.tree.SameDirectories k.tree) (hlaunches' : k.launches = s'.host.launches) :
    Steady argv s (s'.withHost k) where
  directories := hbefore.trans (hs.directories.trans hafter)
  cwd := hs.cwd.imp_right fun ⟨h', target, hdirs, hmoved⟩ =>
    ⟨h', target, hbefore.trans hdirs, hmoved⟩
  launches := by
    have hs' := hs.launches
    change s'.host.launches = h.launches ∨ ∃ h' program, h.tree.SameDirectories h'.tree ∧
      s'.host.launches = h.launches ++ [(s.withHost h').attempt program argv] at hs'
    change k.launches = _ ∨ ∃ h' program, _ ∧ k.launches = _
    rw [hlaunches', ← hlaunches]
    exact hs'.imp_right fun ⟨h', program, hdirs, hattempt⟩ =>
      ⟨h', program, hbefore.trans hdirs, hattempt⟩

/-- A command that a line makes leaves the directories, moves the session to a directory that it
looked up at most, and attempts to run a program in the working directory at most. -/
theorem steady_execute {words : List Text} {c : Command} (hwords : Command.ofWords words = .ok c)
    (s : Shell) : Steady c.argv s (execute .silent c s).2 := by
  rcases Command.plain_or_redirected hwords with hc | ⟨stream, r, hc⟩
  · have hexecute := congrFun (execute_plain c.argv) s
    rw [← hc] at hexecute
    rw [hexecute]
    exact steady_runWords c.argv s
  · have hexecute := execute_redirected_cases c.argv stream r s
    rw [← hc] at hexecute
    rcases hexecute with
      ⟨e, he⟩ | ⟨file, opened, e, hopen, he⟩ | ⟨file, opened, saved, hopen, -, he⟩
    · rw [he]
      exact .refl _ s
    · obtain ⟨hdirs, hlaunches⟩ := kept_openTarget hopen
      have hsettled := sameDirectories_settle opened stream.descriptor
      rw [he]
      exact ⟨hdirs.trans hsettled, .inl rfl, .inl ((launches_settle opened _).trans hlaunches)⟩
    · obtain ⟨hdirs, hlaunches⟩ := kept_openTarget hopen
      have hdirs' := sameDirectories_settle opened stream.descriptor
      have hlaunches' := launches_settle opened stream.descriptor
      rw [he]
      -- to switch descriptors and to switch them back changes nothing but the open files
      exact (steady_runWords c.argv _).framed (hdirs.trans hdirs') (hlaunches'.trans hlaunches)
        (sameDirectories_settle _ stream.descriptor) (launches_settle _ stream.descriptor)

end Shell

end LineShell
