import LineShell.Host.Output
import LineShell.Text.Lines

/-!
# Sources of lines

A script holds its lines ready.  Standard input is read octet by octet up to a newline, after the
prompt was printed.  Standard input that cannot be read fails after the prompt.
-/

namespace LineShell

inductive Source where
  | script (lines : List Text)
  | input (data : Bytes)
  | unreadable (cause : IOError)

namespace Source

def newline : UInt8 := 0x0A

def inputLines (data : Bytes) : List Text :=
  (cutAfter (· == newline) data).map fun piece => Text.dropLineEnd (Utf8.decodeLossy piece)

def takeLine : Bytes → Bytes × Bytes
  | [] => ([], [])
  | b :: rest =>
      if b == newline then ([b], rest)
      else
        let (piece, later) := takeLine rest
        (b :: piece, later)

def remaining : Source → Nat
  | script lines => lines.length
  | input data => (cutAfter (· == newline) data).length
  | unreadable _ => 0

def printPrompt (h : Host) (prompt : Text) : Except IOError Unit × Host :=
  match h.print prompt with
  | (.error e, h) => (.error e, h)
  | (.ok (), h) => h.flush

def readLine (prompt : Text) (src : Source) (h : Host) :
    Except IOError (Option Text) × Source × Host :=
  match src with
  | script [] => (.ok none, src, h)
  | script (line :: rest) => (.ok (some line), script rest, h)
  | input data =>
      match printPrompt h prompt with
      | (.error e, h) => (.error e, src, h)
      | (.ok (), h) =>
          match takeLine data with
          | ([], rest) => (.ok none, input rest, h)
          | (piece, rest) =>
              (.ok (some (Text.dropLineEnd (Utf8.decodeLossy piece))), input rest, h)
  | unreadable cause =>
      match printPrompt h prompt with
      | (.error e, h) => (.error e, src, h)
      | (.ok (), h) => (.error cause, src, h)

end Source

end LineShell
