import LineShell.Text.Pattern.Mode

/-!
# Escapes in patterns

What a backslash and the characters after it stand for: a mark, a control, a code, a kind of
characters, or a place.
-/

namespace LineShell.Text.Pattern

def marks : Text := "\\.+*?()|[]\x7b\x7d^$#&-~".toList

def isEscapable (c : Char) : Bool :=
  marks.contains c || (isAscii c && !c.isAlphanum && c != '<' && c != '>')

def letters : List (Char × Item) :=
  [('a', .char '\x07' false), ('f', .char '\x0c' false), ('t', .char '\t' false),
    ('n', .char '\n' false), ('r', .char '\r' false), ('v', .char '\x0b' false),
    ('d', .kind false), ('s', .kind false), ('w', .kind false),
    ('D', .kind true), ('S', .kind true), ('W', .kind true),
    ('A', .edge), ('z', .edge), ('b', .wordEdge), ('B', .wordEdge), ('<', .wordEdge),
    ('>', .wordEdge)]

def codeLengths : List (Char × Nat) := [('x', 2), ('u', 4), ('U', 8)]

def hexDigit? (c : Char) : Option Nat := "0123456789abcdef".toList.idxOf? c.toLower

def code? (m : Mode) : Nat → Nat → Text → Option (Nat × Text)
  | 0, value, t => some (value, t)
  | count + 1, value, t =>
      match m.skip t with
      | [] => none
      | c :: rest => (hexDigit? c).bind fun digit => code? m count (value * 16 + digit) rest

/-- The item that a backslash makes of the text after it, and the rest.  Two digits give the code
of an octet, more of them that of a character. -/
def escaped? (m : Mode) : Text → Option (Item × Text)
  | [] => none
  | c :: rest =>
      match codeLengths.lookup c with
      | some count =>
          (code? m count 0 rest).bind fun (n, rest) =>
            if n.isValidChar then some (.char (Char.ofNat n) (c == 'x'), rest) else none
      | none =>
          if isEscapable c then some (.char c false, rest)
          else (letters.lookup c).map fun item => (item, rest)

def item? (m : Mode) : Text → Option (Item × Text)
  | [] => none
  | '\\' :: rest => escaped? m rest
  | c :: rest => some (.char c false, rest)

end LineShell.Text.Pattern
