import LineShell.Text.Pattern.Escape

/-!
# Classes in patterns

A class stands between brackets.  It has characters, ranges of them, kinds and other classes as
members, and operators between its members.  Reading a class gives its depth: how many parts of
it stand inside each other.
-/

namespace LineShell.Text.Pattern

def rowDepth : List Nat → Nat
  | [] => 0
  | [depth] => depth
  | depths => depths.foldr max 0 + 1

/-- An open bracket: whether nothing but hyphens has been read, the depth of what is on the left of
the next operator, if there has been one before, and the depths of the members after that. -/
structure Bracket where
  fresh : Bool
  left : Option Nat
  members : List Nat
  deriving DecidableEq, Repr

namespace Bracket

def start : Bracket := ⟨true, none, []⟩

def depth (b : Bracket) : Nat :=
  match b.left with
  | none => rowDepth b.members
  | some left => rowDepth [left, rowDepth b.members]

def add (b : Bracket) (depth : Nat) : Bracket := ⟨false, b.left, depth :: b.members⟩

/-- Whether a character at the beginning stands for itself: a hyphen behind nothing but hyphens, or
a closing bracket behind nothing at all. -/
def takes (b : Bracket) (c : Char) : Bool :=
  b.fresh && (c == '-' || (c == ']' && b.members.isEmpty))

def begun (b : Bracket) (c : Char) : Bracket := ⟨c == '-', b.left, 0 :: b.members⟩

def operated (b : Bracket) : Bracket := ⟨false, some b.depth, []⟩

end Bracket

def classNames : List Text :=
  ["alnum", "alpha", "ascii", "blank", "cntrl", "digit", "graph", "lower", "print", "punct",
    "space", "upper", "word", "xdigit"].map String.toList

def named? (t : Text) : Option (Bool × Text) :=
  let forms := classNames.flatMap fun name =>
    [(false, ":".toList ++ name ++ ":]".toList), (true, ":^".toList ++ name ++ ":]".toList)]
  (forms.find? (·.2.isPrefixOf t)).map fun (negated, form) => (negated, t.drop form.length)

def isOperator (c : Char) : Bool := c == '&' || c == '-' || c == '~'

/-- What follows the first member of a class: an item, or a range of characters.  A hyphen in front
of a closing bracket or another hyphen makes no range. -/
def afterMember? (m : Mode) (t : Text) : Option Text :=
  match item? m t with
  | none => none
  | some (first, rest) =>
      let single := if m.allowsMember first then some rest else none
      match m.skip rest with
      | '-' :: rest =>
          if m.peek? rest = some ']' ∨ m.peek? rest = some '-' then single
          else
            match first, item? m (m.skip rest) with
            | .char low _, some (.char high octet, rest) =>
                if m.allowsMember first && m.allowsMember (.char high octet)
                    && decide (low.toNat ≤ high.toNat) then some rest
                else none
            | _, _ => none
      | _ => single

def openBracket? (m : Mode) (t : Text) : Option Text :=
  match m.skip t with
  | '^' :: rest => if m.allowsNegation then some rest else none
  | t => some t

/-- The depth of a class that is open, inside others, and what follows it.  Each step takes a
character at least, so the length of the text is a number of steps that is enough. -/
def bracketDepth? (m : Mode) : Nat → List Bracket → Bracket → Text → Option (Nat × Text)
  | 0, _, _, _ => none
  | steps + 1, outer, b, t =>
      match m.skip t with
      | [] => none
      | c :: rest =>
          if b.takes c then
            if m.allowsMember (.char c false) then bracketDepth? m steps outer (b.begun c) rest
            else none
          else if c = ']' then
            match outer with
            | [] => some (b.depth + 1, rest)
            | around :: outer => bracketDepth? m steps outer (around.add (b.depth + 1)) rest
          else if c = '[' then
            match named? rest with
            | some (negated, rest) =>
                if m.allowsNamed negated then bracketDepth? m steps outer (b.add 0) rest else none
            | none => (openBracket? m rest).bind (bracketDepth? m steps (b :: outer) .start)
          else if isOperator c ∧ rest.head? = some c then
            bracketDepth? m steps outer b.operated rest.tail
          else (afterMember? m (c :: rest)).bind (bracketDepth? m steps outer (b.add 0))

end LineShell.Text.Pattern
