import LineShell.Text

/-!
# Words

A line is cut into words at the spaces that are neither quoted nor escaped.  Single quotes keep
what they hold.  Double quotes keep what they hold too, but for a backslash before a double quote
or a backslash, which is dropped.  Outside quotes a backslash takes the next character as it is.
A line never fails to scan: its end closes an open quote, and a backslash that waits for a
character outside quotes is dropped.  A word of no characters is no word.
-/

namespace LineShell

inductive Quoting where
  | bare
  | bareEscape
  | single
  | double
  | doubleEscape
  deriving DecidableEq, Repr

namespace Words

def close (scanned : Text × List Text) : List Text :=
  match scanned.1 with
  | [] => scanned.2
  | word => word :: scanned.2

def push (c : Char) (scanned : Text × List Text) : Text × List Text :=
  (c :: scanned.1, scanned.2)

def scan : Quoting → Text → Text × List Text
  | .doubleEscape, [] => (['\\'], [])
  | _, [] => ([], [])
  | .bare, ' ' :: rest => ([], close (scan .bare rest))
  | .bare, '\\' :: rest => scan .bareEscape rest
  | .bare, '\'' :: rest => scan .single rest
  | .bare, '"' :: rest => scan .double rest
  | .bare, c :: rest => push c (scan .bare rest)
  | .bareEscape, c :: rest => push c (scan .bare rest)
  | .single, '\'' :: rest => scan .bare rest
  | .single, c :: rest => push c (scan .single rest)
  | .double, '\\' :: rest => scan .doubleEscape rest
  | .double, '"' :: rest => scan .bare rest
  | .double, c :: rest => push c (scan .double rest)
  | .doubleEscape, '"' :: rest => push '"' (scan .double rest)
  | .doubleEscape, '\\' :: rest => push '\\' (scan .double rest)
  | .doubleEscape, c :: rest => push '\\' (push c (scan .double rest))

theorem scan_bare_cons {c : Char} (h : c ≠ ' ' ∧ c ≠ '\'' ∧ c ≠ '"' ∧ c ≠ '\\') (rest : Text) :
    scan .bare (c :: rest) = push c (scan .bare rest) := by
  simp [scan, h]

def ofLine (line : Text) : List Text := close (scan .bare line)

end Words

end LineShell
