import LineShell.Text.Blank

/-!
# Modes of patterns

A mode says how the text of a pattern is read and what its items may match.  There are no tables
of characters, so a pattern over characters knows no kinds of them, no edges of words, and no
letter that may have either case.  A pattern over octets knows these for ASCII; an item that could
match an octet beyond ASCII would match inside a character, and is refused.
-/

namespace LineShell.Text.Pattern

/-- What a pattern can match in one place: a character, which is an octet if its code was given as
one; any character; a kind of characters or all others; an end of the text; an edge of a word. -/
inductive Item where
  | char (c : Char) (octet : Bool)
  | anyChar
  | kind (negated : Bool)
  | edge
  | wordEdge
  deriving DecidableEq, Repr

/-- Whether a pattern matches characters rather than octets, whether letters have either case, and
whether white space and comments are left out. -/
structure Mode where
  unicode : Bool
  eitherCase : Bool
  spaced : Bool
  deriving DecidableEq, Repr

def isAscii (c : Char) : Bool := decide (c.toNat < 0x80)

/-- What is left after white space and comments, which go from a number sign to the end of the
line.  The flag says whether the text begins inside a comment. -/
def afterSpace : Bool → Text → Text
  | _, [] => []
  | true, c :: rest => afterSpace (c != '\n') rest
  | false, c :: rest =>
      if c = '#' then afterSpace true rest
      else if isBlank c then afterSpace false rest
      else c :: rest

def flagLetters : Text := "imsUuRx-".toList

def flag? (flags : Text) (letter : Char) : Option Bool :=
  if flags.contains letter then some ((flags.takeWhile (· != '-')).contains letter) else none

namespace Mode

def start : Mode := ⟨true, false, false⟩

def after (m : Mode) (flags : Text) : Mode :=
  ⟨(flag? flags 'u').getD m.unicode, (flag? flags 'i').getD m.eitherCase,
    (flag? flags 'x').getD m.spaced⟩

def skip (m : Mode) (t : Text) : Text := if m.spaced then afterSpace false t else t

/-- The character that is looked at ahead of a text: the next one that counts, except that one
number sign and the white space after it are passed over and the comment is not.  A text without
such a character shows its first one. -/
def peek? (m : Mode) (t : Text) : Option Char :=
  if m.spaced then
    let body := t.dropWhile isBlank
    let shown := if body.head? = some '#' then body.tail.dropWhile isBlank else body
    shown.head? <|> t.head?
  else t.head?

def allows (m : Mode) : Item → Bool
  | .char c octet => if m.unicode then !m.eitherCase else !octet || isAscii c
  | .anyChar => m.unicode
  | .kind negated => !m.unicode && !negated
  | .edge => true
  | .wordEdge => !m.unicode

def allowsMember (m : Mode) : Item → Bool
  | .char c _ => if m.unicode then !m.eitherCase else isAscii c
  | .kind negated => !m.unicode && !negated
  | .anyChar | .edge | .wordEdge => false

def allowsNamed (m : Mode) (negated : Bool) : Bool :=
  if m.unicode then !m.eitherCase else !negated

def allowsNegation (m : Mode) : Bool := m.unicode

end Mode

end LineShell.Text.Pattern
