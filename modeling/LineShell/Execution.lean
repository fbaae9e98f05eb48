import LineShell.Builtin
import LineShell.Host.Launch
import LineShell.Log
import LineShell.Redirection

/-!
# Executing commands

A session holds the environment and the host, and a state of the executor's own.  An executor
answers a command with an outcome or an error.  The shell's executor opens the redirections,
standard output first, runs a builtin or a program, and releases the redirections again on every
way out.  A shell that cannot write to its log leaves the session at once.
-/

namespace LineShell

structure Session (σ : Type) where
  env : Environment
  host : Host
  own : σ

abbrev Executor (σ : Type) := Command → Session σ → Except ExecError Outcome × Session σ

namespace Executor

def ofAnswers {σ : Type}
    (answer : Command → Environment → σ → Except ExecError Outcome × Environment × σ) :
    Executor σ := fun c s =>
  let (result, env, own) := answer c s.env s.own
  (result, { s with env := env, own := own })

end Executor

/-- Whether every note that the log asked for could be written. -/
inductive LogState where
  | intact
  | lost
  deriving DecidableEq, Repr

abbrev Shell := Session LogState

namespace Shell

def ofParts (env : Environment) (host : Host) : Shell := ⟨env, host, .intact⟩

def withHost (s : Shell) (host : Host) : Shell := { s with host := host }

def statusNotFound : Nat := 127

def statusCannotExecute : Nat := 126

abbrev Action := Shell → Except ExecError Outcome × Shell

def noting (log : Log) (e : Log.Event) (next : Action) : Action := fun s =>
  match s.host.note log e with
  | (.ok (), host) => next (s.withHost host)
  | (.error _, host) => (.ok .leave, ⟨s.env, host, .lost⟩)

@[simp] theorem noting_silent (e : Log.Event) (next : Action) : noting .silent e next = next := rfl

def runBuiltin (b : Builtin) (args : List Text) : Action := fun s =>
  let r := b.run args s.env s.host
  let (printed, host) := s.host.printAll r.pieces
  let (flushed, host) := host.flush
  let s : Shell := { s with env := r.env, host := host }
  match flushed, printed with
  | .error e, _ => (.error (.io e), s)
  | .ok (), .error e => (.error (.io e), s)
  | .ok (), .ok () => (.ok r.outcome, s)

def finish (status : Nat) : Action := fun s =>
  (.ok (.code status), { s with env := s.env.setStatus status })

def reportNotFound (name : Text) : Action := fun s =>
  match s.host.printAll [name, ": command not found\n".toList] with
  | (.error e, host) => (.error (.io e), s.withHost host)
  | (.ok (), host) =>
      match host.flush with
      | (.error e, host) => (.error (.io e), s.withHost host)
      | (.ok (), host) => finish statusNotFound (s.withHost host)

def reportLaunch (name : Text) (cause : IOError) (next : Action) : Action := fun s =>
  let message := name ++ ": ".toList ++ cause.message ++ ['\n']
  match s.host.writeStream .stderr (Utf8.encode message) with
  | (.error e, host) => (.error (.io e), s.withHost host)
  | (.ok (), host) => next (s.withHost host)

def runProgram (log : Log) (name path : Text) (args : List Text) : Action := fun s =>
  match s.host.flush with
  | (.error e, host) => (.error (.io e), s.withHost host)
  | (.ok (), host) =>
      match host.launch (s.env.resolve path) (name :: args) s.env.block s.env.cwd with
      | (.ok status, host) =>
          noting log (.finished name status) (finish status) (s.withHost host)
      | (.error cause, host) =>
          noting log (.launchFailed name cause)
            (reportLaunch name cause
              (noting log (.finished name statusCannotExecute) (finish statusCannotExecute)))
            (s.withHost host)

def runWords (log : Log) (argv : List Text) : Action := fun s =>
  match argv with
  | [] => (.ok (.code s.env.status), s)
  | name :: args =>
      match Builtin.ofName? name with
      | some b => noting log (.builtin name) (runBuiltin b args) s
      | none =>
          match Lookup.resolveIn s.host s.env name with
          | none => reportNotFound name s
          | some path => noting log (.resolved name path) (runProgram log name path args) s

def closing (fd : Descriptor) (next : Action) : Action := fun s =>
  next (s.withHost (s.host.close fd))

def holding (log : Log) (g : Guard) (next : Action) : Action := fun s =>
  let (result, s) := next s
  (result, s.withHost ((s.host.release g).note log (.restored g.descriptor)).2)

/-- Points a stream at a file while something is done.  The file's own descriptor is closed as soon
as the stream stands for the file. -/
def pointing (log : Log) (stream : Stream) (mode : WriteMode) (path : Text) (next : Action) :
    Action := fun s =>
  match s.host.openTarget mode path with
  | (.error e, host) => (.error e, s.withHost host)
  | (.ok file, host) =>
      match host.acquire stream.descriptor file with
      | (.error e, host) => (.error e, s.withHost (host.close file))
      | (.ok g, host) =>
          noting log (.redirected stream.descriptor g.saved)
            (holding log g (closing file next)) (s.withHost host)

def redirecting (log : Log) (stream : Stream) (next : Action) : Option Redirection → Action
  | none => next
  | some r => fun s =>
      let path := s.env.resolve r.target
      noting log (.opening stream.descriptor path r.mode)
        (pointing log stream r.mode path next) s

def execute (log : Log) : Executor LogState := fun c =>
  redirecting log .stdout (redirecting log .stderr (runWords log c.argv) c.stderr) c.stdout

end Shell

end LineShell
