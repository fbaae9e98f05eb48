import LineShell.Words

/-!
# Commands

A command is the words in front of the first redirection operator, and that redirection.  The word
after the operator is the target, whatever it is; the words after the target are left out.
-/

namespace LineShell

inductive Stream where
  | stdout
  | stderr
  deriving DecidableEq, Repr

inductive WriteMode where
  | truncate
  | append
  deriving DecidableEq, Repr

structure Redirection where
  target : Text
  mode : WriteMode
  deriving DecidableEq, Repr

structure Command where
  argv : List Text
  stdout : Option Redirection
  stderr : Option Redirection
  deriving DecidableEq, Repr

inductive SyntaxError where
  | missingTarget (operator : Text)
  deriving DecidableEq, Repr

def SyntaxError.message : SyntaxError → Text
  | .missingTarget _ => "syntax error near unexpected token `newline'".toList

def redirectionOperator? (word : Text) : Option (Stream × WriteMode) :=
  if word = ['>'] then some (.stdout, .truncate)
  else if word = ['1', '>'] then some (.stdout, .truncate)
  else if word = ['>', '>'] then some (.stdout, .append)
  else if word = ['1', '>', '>'] then some (.stdout, .append)
  else if word = ['2', '>'] then some (.stderr, .truncate)
  else if word = ['2', '>', '>'] then some (.stderr, .append)
  else none

namespace Command

def name? (c : Command) : Option Text := c.argv.head?

def args (c : Command) : List Text := c.argv.tail

def plain (argv : List Text) : Command := ⟨argv, none, none⟩

def redirected (argv : List Text) (stream : Stream) (redirection : Redirection) : Command :=
  match stream with
  | .stdout => ⟨argv, some redirection, none⟩
  | .stderr => ⟨argv, none, some redirection⟩

def ofWords : List Text → Except SyntaxError Command
  | [] => .ok (plain [])
  | word :: rest =>
      match redirectionOperator? word, rest with
      | none, rest =>
          (ofWords rest).map fun c => { c with argv := word :: c.argv }
      | some (stream, mode), target :: _ => .ok (redirected [] stream ⟨target, mode⟩)
      | some _, [] => .error (.missingTarget word)

def ofLine (line : Text) : Except SyntaxError Command := ofWords (Words.ofLine line)

end Command

end LineShell
