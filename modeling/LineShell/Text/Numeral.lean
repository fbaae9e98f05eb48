import LineShell.Text

/-!
# Numerals

Which texts are written numbers, and which numbers digits stand for.
-/

namespace LineShell.Text

def digitsValue (digits : Text) : Nat := digits.foldl (fun n c => n * 10 + (c.toNat - 48)) 0

def natural? (t : Text) : Option Nat :=
  let digits := if t.head? = some '+' then t.tail else t
  if digits ≠ [] ∧ digits.all Char.isDigit then some (digitsValue digits) else none

def withoutSign (t : Text) : Text :=
  if t.head? = some '+' ∨ t.head? = some '-' then t.tail else t

/-- The integer that a text begins with after ASCII white space, which is zero without digits. -/
def leadingInteger (t : Text) : Int :=
  let signed := t.dropWhile fun c => c == ' ' || (decide (9 ≤ c.toNat) && decide (c.toNat ≤ 13))
  let n : Int := digitsValue ((withoutSign signed).takeWhile Char.isDigit)
  if signed.head? = some '-' then -n else n

def isExponent : Text → Bool
  | [] => true
  | c :: rest =>
      let digits := withoutSign rest
      c.toLower == 'e' && !digits.isEmpty && digits.all Char.isDigit

/-- Whether a text is a number with an optional sign, point and exponent; a number may be infinite
or none at all. -/
def isNumeral (t : Text) : Bool :=
  let t := withoutSign t
  let whole := t.takeWhile Char.isDigit
  let rest := t.drop whole.length
  let fraction := if rest.head? = some '.' then rest.tail.takeWhile Char.isDigit else []
  let exponent := if rest.head? = some '.' then rest.tail.drop fraction.length else rest
  ["inf", "infinity", "nan"].contains (String.ofList (t.map Char.toLower)) ||
    (!(whole ++ fraction).isEmpty && isExponent exponent)

end LineShell.Text
