import LineShell.Error
import LineShell.Host.OpenFiles
import LineShell.Log.Filter
import LineShell.Text.Quoted

/-!
# Log events

What a session notes about its own working, and how a note is written: the level, the place in the
program that it comes from, a message, and named values, with the colours of a terminal or without.
-/

namespace LineShell.Log

inductive Event where
  | scanned (words : List Text)
  | opening (fd : Descriptor) (path : Text) (mode : WriteMode)
  | redirected (fd saved : Descriptor)
  | restored (fd : Descriptor)
  | builtin (name : Text)
  | resolved (name path : Text)
  | launchFailed (name : Text) (cause : IOError)
  | finished (name : Text) (status : Nat)
  | lineDone (status : Int)
  | endOfInput
  deriving DecidableEq, Repr

def signed : Int → Text
  | .ofNat n => Text.decimal n
  | .negSucc n => '-' :: Text.decimal (n + 1)

def styled (coloured : Bool) (code : Nat) (t : Text) : Text :=
  if coloured then "\x1b[".toList ++ Text.decimal code ++ "m".toList ++ t ++ "\x1b[0m".toList
  else t

def italic (coloured : Bool) (t : Text) : Text := styled coloured 3 t

def dimmed (coloured : Bool) (t : Text) : Text := styled coloured 2 t

def Level.label (coloured : Bool) : Level → Text
  | error => styled coloured 31 "ERROR".toList
  | warn => styled coloured 33 " WARN".toList
  | info => styled coloured 32 " INFO".toList
  | debug => styled coloured 34 "DEBUG".toList
  | trace => styled coloured 35 "TRACE".toList

namespace Event

def level : Event → Level
  | scanned _ | lineDone _ => .trace
  | launchFailed _ _ => .warn
  | _ => .debug

def target : Event → Text
  | scanned _ | lineDone _ | endOfInput => "minish::repl".toList
  | redirected _ _ | restored _ => "minish::executor::redirect".toList
  | _ => "minish::executor::default_executor".toList

def message : Event → Text
  | scanned _ => "tokenized".toList
  | opening _ _ _ => "opening redirection target".toList
  | redirected _ _ => "descriptor redirected".toList
  | restored _ => "descriptor restored".toList
  | builtin _ => "running builtin".toList
  | resolved _ _ => "resolved external command".toList
  | launchFailed _ _ => "spawn failed".toList
  | finished _ _ => "external command finished".toList
  | lineDone _ => "line finished".toList
  | endOfInput => "end of input".toList

def modeName : WriteMode → Text
  | .truncate => "Truncate".toList
  | .append => "Append".toList

def values : Event → List (Text × Text)
  | scanned words => [("tokens".toList, Text.listed words)]
  | opening fd path mode =>
      [("fd".toList, signed fd), ("path".toList, path), ("mode".toList, modeName mode)]
  | redirected fd saved => [("fd".toList, signed fd), ("saved".toList, signed saved)]
  | restored fd => [("fd".toList, signed fd)]
  | builtin name => [("command".toList, Text.quoted name)]
  | resolved name path => [("command".toList, Text.quoted name), ("path".toList, path)]
  | launchFailed name cause =>
      [("command".toList, Text.quoted name), ("error".toList, cause.message)]
  | finished name status =>
      [("command".toList, Text.quoted name), ("code".toList, Text.decimal status)]
  | lineDone status => [("code".toList, signed status)]
  | endOfInput => []

def fields (e : Event) : List Text := "message".toList :: e.values.map (·.1)

def valueText (coloured : Bool) (v : Text × Text) : Text :=
  ' ' :: italic coloured v.1 ++ dimmed coloured "=".toList ++ v.2

def line (coloured : Bool) (e : Event) : Text :=
  e.level.label coloured ++ [' '] ++ dimmed coloured e.target ++ dimmed coloured ":".toList ++
    [' '] ++ e.message ++ e.values.flatMap (valueText coloured) ++ ['\n']

end Event

end LineShell.Log
