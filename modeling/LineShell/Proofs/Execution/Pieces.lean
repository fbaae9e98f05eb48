import LineShell.Proofs.Execution.Terminal
import LineShell.Proofs.Host.Overlay

/-!
# The pieces of a command

A command writes pieces to its two streams: what the log notes, what the shell prints, and what a
program writes.  Where nothing waits and both streams have room, these pieces are all that a host
gets from the words of a command, but for the record of a launch.
-/

namespace LineShell

open Host

def Log.written (log : Log) (e : Log.Event) : Bytes :=
  if log.enables e then Utf8.encode (e.line log.coloured) else []

def Log.noted (log : Log) (e : Log.Event) : Piece := (.stderr, log.written e)

theorem Host.note_eq (h : Host) (log : Log) (e : Log.Event) :
    h.note log e = h.writeStream .stderr (log.written e) := by
  unfold note Log.written
  split <;> rfl

def Host.writeAll (h : Host) (pieces : List Piece) : Host :=
  pieces.foldl (fun h piece => (h.write piece.1.descriptor piece.2).2) h

namespace Reporter

def emissions (p : Process) : List Text → List Piece
  | [] => []
  | arg :: rest =>
      match Action.ofArgument arg with
      | .write stream t => (stream, Utf8.encode (t ++ ['\n'])) :: emissions p rest
      | .listArguments => (.stdout, Utf8.encode (argumentLines 0 p.argv)) :: emissions p rest
      | .tellWorkDir =>
          (.stdout, Utf8.encode ("cwd=".toList ++ p.workDir.path ++ ['\n'])) :: emissions p rest
      | .tellImage =>
          (.stdout, Utf8.encode ("self=".toList ++ p.image.path ++ ['\n'])) :: emissions p rest
      | .listVariables => (.stdout, Utf8.encode (variableLines p.environ)) :: emissions p rest
      | .exit _ | .die _ => []
      | .nothing => emissions p rest

end Reporter

namespace Host

variable {h : Host}

end Host

namespace Shell

def programPieces (log : Log) (s : Shell) (name program : Text) (args : List Text) : List Piece :=
  match (s.attempt program (name :: args)).started with
  | .ok p =>
      Reporter.emissions p p.argv.tail ++ [log.noted (.finished name (Reporter.run p s.host).1)]
  | .error cause =>
      [log.noted (.launchFailed name cause), (.stderr, Utf8.encode (spawnFailure name cause)),
        log.noted (.finished name statusCannotExecute)]

/-- What the shell, its log and a program write for the words of a command, in order. -/
def pieces (log : Log) (s : Shell) : List Text → List Piece
  | [] => []
  | name :: args =>
      match Builtin.ofName? name, Lookup.resolveIn s.host s.env name with
      | some b, _ =>
          [log.noted (.builtin name),
            (.stdout, Utf8.encode (b.run args s.env s.host).pieces.flatten)]
      | none, none => [(.stdout, Utf8.encode (name ++ ": command not found\n".toList))]
      | none, some path =>
          log.noted (.resolved name path) :: programPieces log s name (s.env.resolve path) args

section Room

variable {s : Shell} (hout : ¬ s.host.OnFull) (hpending : s.host.pending = [])

include hout hpending

end Room

end Shell

end LineShell
