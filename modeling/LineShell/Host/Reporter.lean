import LineShell.Host
import LineShell.Text.Numeral

/-!
# The reporter

The one program that a host can run.  Its arguments tell it, from left to right, what to write
and how to end: a text for either stream, its arguments, its working directory, its own place, its
variables, an exit status or a signal to die of.  It ignores other arguments and failed writes.
-/

namespace LineShell

namespace Reporter

def executableMark : Bytes := [0x7F, 0x45, 0x4C, 0x46]

def image : Bytes := executableMark ++ Utf8.encode "reporter\n".toList ++ [0xFF]

inductive Action where
  | write (stream : Stream) (t : Text)
  | listArguments
  | tellWorkDir
  | tellImage
  | listVariables
  | exit (status : Nat)
  | die (signal : Nat)
  | nothing
  deriving DecidableEq, Repr

def harmlessSignals : List Int := [17, 18, 23, 28]

def lastSignal : Int := 64

def Action.ofArgument : Text → Action
  | 'o' :: 'u' :: 't' :: ':' :: t => .write .stdout t
  | 'e' :: 'r' :: 'r' :: ':' :: t => .write .stderr t
  | 'e' :: 'x' :: 'i' :: 't' :: ':' :: t => .exit (Text.leadingInteger t % 256).toNat
  | 's' :: 'i' :: 'g' :: ':' :: t =>
      let signal := Text.leadingInteger t
      if 1 ≤ signal ∧ signal ≤ lastSignal ∧ signal ∉ harmlessSignals then .die signal.toNat
      else .nothing
  | t =>
      if t = "argv".toList then .listArguments
      else if t = "cwd".toList then .tellWorkDir
      else if t = "self".toList then .tellImage
      else if t = "env".toList then .listVariables
      else .nothing

def argumentLines : Nat → List Text → Text
  | _, [] => []
  | i, arg :: rest =>
      "argv[".toList ++ Text.decimal i ++ "]=".toList ++ arg ++ ['\n'] ++ argumentLines (i + 1) rest

def variableLines (environ : List Text) : Text :=
  (Text.sortBy id environ).flatMap fun entry => "env:".toList ++ entry ++ ['\n']

def emit (h : Host) (stream : Stream) (t : Text) : Host :=
  (h.write stream.descriptor (Utf8.encode t)).2

def act (p : Process) : List Text → Host → Nat × Host
  | [], h => (0, h)
  | arg :: rest, h =>
      match Action.ofArgument arg with
      | .write stream t => act p rest (emit h stream (t ++ ['\n']))
      | .listArguments => act p rest (emit h .stdout (argumentLines 0 p.argv))
      | .tellWorkDir => act p rest (emit h .stdout ("cwd=".toList ++ p.workDir.path ++ ['\n']))
      | .tellImage => act p rest (emit h .stdout ("self=".toList ++ p.image.path ++ ['\n']))
      | .listVariables => act p rest (emit h .stdout (variableLines p.environ))
      | .exit status => (status, h)
      | .die signal => (128 + signal, h)
      | .nothing => act p rest h

def run (p : Process) (h : Host) : Nat × Host := act p p.argv.tail h

end Reporter

end LineShell
