import LineShell.Text.Printable

/-!
# Quoted texts

A quoted text stands between double quotes and shows every character that it holds.  A quote, a
backslash and the common controls are marked by a backslash; any other character that would not
show up on its own is written as its code.
-/

namespace LineShell.Text

def hexadecimal (n : Nat) : Text := Nat.toDigits 16 n

def coded (c : Char) : Text := "\\u\x7b".toList ++ hexadecimal c.toNat ++ "\x7d".toList

def escape (c : Char) : Text :=
  if c = '"' ∨ c = '\\' then ['\\', c]
  else if c = '\n' then "\\n".toList
  else if c = '\r' then "\\r".toList
  else if c = '\t' then "\\t".toList
  else if c = '\x00' then "\\0".toList
  else if extendsGrapheme c || !isPrintable c then coded c
  else [c]

def quoted (t : Text) : Text := '"' :: t.flatMap escape ++ ['"']

def listed (words : List Text) : Text :=
  "[".toList ++ ", ".toList.intercalate (words.map quoted) ++ "]".toList

end LineShell.Text
