import LineShell.Config
import LineShell.Execution
import LineShell.Source

/-!
# The interpreter

Lines are read and evaluated one after another until a command leaves the session, or until the
input ends and the configuration says to stop there.  An error of a line is reported and the next
line is read; only an error of the streams ends the run.
-/

namespace LineShell

structure Interpreter (σ : Type) where
  config : Config
  log : Log
  source : Source
  session : Session σ

namespace Session

def configured {σ : Type} (config : Config) (env : Environment) (host : Host) (own : σ) :
    Session σ :=
  ⟨env.preset config.presets.entries, host, own⟩

def evalLine {σ : Type} (log : Log) (exec : Executor σ) (line : Text) (s : Session σ) :
    Except ShellError Outcome × Session σ :=
  let words := Words.ofLine line
  let s := { s with host := (s.host.note log (.scanned words)).2 }
  match words with
  | [] => (.ok (.code s.env.status), s)
  | words =>
      match Command.ofWords words with
      | .error e => (.error (.parse e), s)
      | .ok c =>
          let (result, s) := exec c s
          (result.mapError .exec, s)

end Session

namespace Interpreter

def programName : Text := "minish".toList

def errorLine (e : ShellError) : Text := programName ++ ": ".toList ++ e.message ++ ['\n']

def report (e : ShellError) (h : Host) : Except IOError Unit × Host :=
  h.flush.2.writeStream .stderr (Utf8.encode (errorLine e))

def withHost {σ : Type} (i : Interpreter σ) (h : Host) : Interpreter σ :=
  { i with session := { i.session with host := h } }

def settle {σ : Type} (i : Interpreter σ) :
    Except ShellError Outcome → Option (Except ShellError Unit) × Interpreter σ
  | .ok .leave => (some (.ok ()), i)
  | .ok (.code status) => (none, i.withHost (i.session.host.note i.log (.lineDone status)).2)
  | .error e =>
      match report e i.session.host with
      | (.error cause, h) => (some (.error (.io cause)), i.withHost h)
      | (.ok (), h) => (none, i.withHost h)

def turn {σ : Type} (exec : Executor σ) (i : Interpreter σ) :
    Option (Except ShellError Unit) × Interpreter σ :=
  let (line, source, h) := i.source.readLine i.config.prompt i.session.host
  let i := { i.withHost h with source := source }
  match line with
  | .error e => (some (.error (.io e)), i)
  | .ok none =>
      match i.config.eof with
      | .exit => (some (.ok ()), i.withHost (h.note i.log .endOfInput).2)
      | .proceed => (none, i)
  | .ok (some line) =>
      let (result, session) := Session.evalLine i.log exec line i.session
      settle { i with session := session } result

def runFor {σ : Type} (exec : Executor σ) :
    Nat → Interpreter σ → Option (Except ShellError Unit) × Interpreter σ
  | 0, i => (none, i)
  | turns + 1, i =>
      match turn exec i with
      | (some result, i) => (some result, i)
      | (none, i) => runFor exec turns i

/-- Runs until the end.  There is no result if the run never ends: it has then met the end of the
input, and would go on meeting it. -/
def run {σ : Type} (exec : Executor σ) (i : Interpreter σ) :
    Option (Except ShellError Unit) × Interpreter σ :=
  runFor exec (i.source.remaining + 1) i

end Interpreter

end LineShell
