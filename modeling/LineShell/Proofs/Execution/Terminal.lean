import LineShell.Execution
import LineShell.Proofs.Host.Preparation
import LineShell.Proofs.Host.Printing

/-!
# Commands on the terminal

What a command comes to while both standard streams are on the terminal: nothing that is printed can
fail, so a builtin, a name that is not found and a program each end in one way.  For a builtin it is
enough that standard output has room, wherever it leads.
-/

namespace LineShell

open Host

namespace Host

def shown (h : Host) (t : Text) : Host :=
  { h with out := h.out ++ h.pending ++ Utf8.encode t, pending := [] }

def recorded (h : Host) (l : Launch) : Host := { h with launches := h.launches ++ [l] }

variable {h : Host}

theorem printAll_flush_shown (hout : h.OnTerminal .stdout) (pieces : List Text) :
    ∃ k, h.printAll pieces = (.ok (), k) ∧ k.flush = (.ok (), h.shown pieces.flatten) := by
  obtain ⟨out, pending, hprinted, hflushed⟩ := printAll_flush_terminal hout pieces
  exact ⟨_, hprinted, hflushed⟩

theorem delivered_terminal (hout : h.OnTerminal .stdout) (t : Text) :
    h.delivered t = h.shown t := by
  rw [delivered, write_terminal hout, shown, List.append_assoc]
  rfl

theorem flush_shown (hout : h.OnTerminal .stdout) : h.flush = (.ok (), h.shown []) := by
  rw [flush_terminal hout, shown]
  simp [Utf8.encode]

theorem launches_write (h : Host) (fd : Descriptor) (data : Bytes) :
    (h.write fd data).2.launches = h.launches := by
  have hwritten := h.written fd data
  generalize (h.write fd data).2 = k at hwritten ⊢
  cases hwritten with
  | nowhere => rfl
  | @terminal stream => cases stream <;> rfl
  | file => rfl

theorem launch_eq (h : Host) (program : Text) (argv environ : List Text) (workDir : Text) :
    h.launch program argv environ workDir =
      let started := h.prepare program argv environ workDir
      let k := h.recorded ⟨program, argv, environ, workDir, started⟩
      match started with
      | .error e => (.error e, k)
      | .ok p => (.ok (Reporter.run p k).1, (Reporter.run p k).2) :=
  rfl

theorem outputStable_launches (launches : List Launch) :
    OutputStable fun h k : Host => h = k ∧ h.launches = launches where
  pending := by
    rintro h k ⟨rfl, -⟩
    rfl
  await := by
    rintro h k ⟨rfl, hh⟩ waiting
    exact ⟨rfl, hh⟩
  write := by
    rintro h k ⟨rfl, hh⟩ stream data
    exact ⟨rfl, rfl, (launches_write h stream.descriptor data).trans hh⟩

theorem launches_run (p : Process) (h : Host) : (Reporter.run p h).2.launches = h.launches :=
  ((outputStable_launches h.launches).act ⟨rfl, rfl⟩ p p.argv.tail).2.2

end Host

namespace Shell

variable {s : Shell}

theorem runBuiltin_of_room (hroom : ¬ s.host.OnFull) (b : Builtin) (args : List Text) :
    runBuiltin b args s =
      let r := b.run args s.env s.host
      (.ok r.outcome, ⟨r.env, s.host.delivered r.pieces.flatten, s.own⟩) := by
  obtain ⟨k, hprinted, hflushed⟩ :=
    printAll_flush_of_room hroom (b.run args s.env s.host).pieces
  simp only [runBuiltin, hprinted, hflushed]

theorem runBuiltin_terminal (hout : s.host.OnTerminal .stdout) (b : Builtin) (args : List Text) :
    runBuiltin b args s =
      let r := b.run args s.env s.host
      (.ok r.outcome, ⟨r.env, s.host.shown r.pieces.flatten, s.own⟩) := by
  obtain ⟨k, hprinted, hflushed⟩ :=
    printAll_flush_shown hout (b.run args s.env s.host).pieces
  simp only [runBuiltin, hprinted, hflushed]

theorem flatten_pair (t u : Text) : [t, u].flatten = t ++ u := by
  simp

theorem reportNotFound_terminal (hout : s.host.OnTerminal .stdout) (name : Text) :
    reportNotFound name s =
      (.ok (.code statusNotFound), ⟨s.env.setStatus statusNotFound,
        s.host.shown (name ++ ": command not found\n".toList), s.own⟩) := by
  obtain ⟨k, hprinted, hflushed⟩ :=
    printAll_flush_shown hout [name, ": command not found\n".toList]
  rw [flatten_pair] at hflushed
  simp only [reportNotFound, hprinted, hflushed, finish, withHost]

def spawnFailure (name : Text) (cause : IOError) : Text :=
  name ++ ": ".toList ++ cause.message ++ ['\n']

def attempt (s : Shell) (program : Text) (argv : List Text) : Launch :=
  ⟨program, argv, s.env.block, s.env.cwd, s.host.prepare program argv s.env.block s.env.cwd⟩

def attempted (s : Shell) (name program : Text) (args : List Text) :
    Except ExecError Outcome × Shell :=
  let l := s.attempt program (name :: args)
  let host := (s.host.shown []).recorded l
  match l.started with
  | .ok p =>
      let (status, host) := Reporter.run p host
      (.ok (.code status), ⟨s.env.setStatus status, host, s.own⟩)
  | .error cause =>
      (.ok (.code statusCannotExecute), ⟨s.env.setStatus statusCannotExecute,
        host.receive .stderr (Utf8.encode (spawnFailure name cause)), s.own⟩)

theorem launches_attempted (s : Shell) (name program : Text) (args : List Text) :
    (s.attempted name program args).2.host.launches =
      s.host.launches ++ [s.attempt program (name :: args)] := by
  unfold attempted
  dsimp only
  cases (s.attempt program (name :: args)).started with
  | ok p => exact launches_run p _
  | error cause => rfl

theorem runProgram_terminal (hout : s.host.OnTerminal .stdout) (herr : s.host.OnTerminal .stderr)
    (name path : Text) (args : List Text) :
    runProgram .silent name path args s = s.attempted name (s.env.resolve path) args := by
  have hprepare : (s.host.shown []).prepare (s.env.resolve path) (name :: args) s.env.block
      s.env.cwd = s.host.prepare (s.env.resolve path) (name :: args) s.env.block s.env.cwd :=
    prepare_congr (h := s.host.shown []) (k := s.host) rfl rfl rfl _ _ _ _
  have htold : ∀ l data, ((s.host.shown []).recorded l).writeStream .stderr data =
      (.ok (), ((s.host.shown []).recorded l).receive .stderr data) := by
    intro l data
    have herr' : ((s.host.shown []).recorded l).OnTerminal .stderr := herr
    exact writeStream_terminal herr' data
  simp only [runProgram, flush_shown hout, noting_silent, launch_eq, attempted, attempt, hprepare]
  cases s.host.prepare (s.env.resolve path) (name :: args) s.env.block s.env.cwd with
  | ok p => rfl
  | error cause => simp only [reportLaunch, withHost, htold, finish, spawnFailure]

end Shell

end LineShell
