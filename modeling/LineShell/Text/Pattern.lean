import LineShell.Text.Alphanumeric
import LineShell.Text.Pattern.Bracket

/-!
# Patterns

Which texts are regular expressions.  There are alternatives, groups with names and flags, the
operators `?`, `*` and `+`, bracketed classes and escapes; a repetition cannot be counted.  Reading
a pattern gives its depth, which is limited.
-/

namespace LineShell.Text.Pattern

structure Element where
  depth : Nat
  repeatable : Bool
  deriving DecidableEq, Repr

/-- What is open, a group or all of the pattern: the mode that holds at this place, the depths of
the alternatives before, and the elements of the one that is being read, the last one first. -/
structure Scope where
  mode : Mode
  alternatives : List Nat
  elements : List Element
  deriving DecidableEq, Repr

namespace Scope

def start (mode : Mode) : Scope := ⟨mode, [], []⟩

def add (s : Scope) (e : Element) : Scope := { s with elements := e :: s.elements }

def alternated (s : Scope) : Scope :=
  ⟨s.mode, rowDepth (s.elements.map Element.depth) :: s.alternatives, []⟩

def depth (s : Scope) : Nat := rowDepth s.alternated.alternatives

def repeated? (s : Scope) : Option Scope :=
  match s.elements with
  | [] => none
  | e :: before =>
      if e.repeatable then some { s with elements := ⟨e.depth + 1, true⟩ :: before } else none

end Scope

structure Progress where
  outer : List Scope
  scope : Scope
  names : List Text
  deriving DecidableEq, Repr

namespace Progress

def start : Progress := ⟨[], .start .start, []⟩

def add (p : Progress) (e : Element) : Progress := { p with scope := p.scope.add e }

def opened (p : Progress) (mode : Mode) : Progress :=
  { p with outer := p.scope :: p.outer, scope := .start mode }

def closed? (p : Progress) : Option Progress :=
  match p.outer with
  | [] => none
  | around :: outer =>
      some { p with outer := outer, scope := around.add ⟨p.scope.depth + 1, true⟩ }

end Progress

/-- The opening of a group with flags, after its question mark.  Flags alone are an element, and
hold up to the end of the scope that they are in. -/
def openFlags? (p : Progress) (t : Text) : Option (Progress × Text) :=
  let flags := t.takeWhile fun c => c != ':' && c != ')'
  let mode := p.scope.mode.after flags
  if !flags.all flagLetters.contains || !decide flags.Nodup || flags.getLast? == some '-' then none
  else
    match t.drop flags.length with
    | ':' :: rest => some (p.opened mode, rest)
    | ')' :: rest =>
        if flags = [] then none
        else some ({ p with scope := { p.scope.add ⟨0, false⟩ with mode := mode } }, rest)
    | _ => none

def isNameStart (c : Char) : Bool := c == '_' || isAlphabetic c

def isNamePart (c : Char) : Bool :=
  c == '_' || c == '.' || c == '[' || c == ']' || isAlphanumeric c

def openNamed? (p : Progress) (t : Text) : Option (Progress × Text) :=
  let name := t.takeWhile (· != '>')
  let isName := (name.head?.any isNameStart) && name.all isNamePart && !p.names.contains name
  match t.drop name.length with
  | '>' :: rest =>
      if isName then some ({ p.opened p.scope.mode with names := name :: p.names }, rest) else none
  | _ => none

/-- The opening of a group, after its parenthesis.  There is no looking ahead or back. -/
def openGroup? (p : Progress) : Text → Option (Progress × Text)
  | '?' :: 'P' :: '<' :: rest => openNamed? p rest
  | '?' :: '<' :: rest => openNamed? p rest
  | '?' :: rest => openFlags? p rest
  | rest => some (p.opened p.scope.mode, rest)

def outerItem? (m : Mode) : Text → Option (Item × Text)
  | '.' :: rest => some (.anyChar, rest)
  | '^' :: rest | '$' :: rest => some (.edge, rest)
  | t => item? m t

def advance? (steps : Nat) (p : Progress) : Text → Option (Progress × Text)
  | [] | '\x7b' :: _ => none
  | '(' :: rest => openGroup? p (p.scope.mode.skip rest)
  | ')' :: rest => p.closed?.map fun p => (p, rest)
  | '|' :: rest => some ({ p with scope := p.scope.alternated }, rest)
  | '[' :: rest => do
      let inner ← openBracket? p.scope.mode rest
      let (depth, rest) ← bracketDepth? p.scope.mode steps [] .start inner
      return (p.add ⟨depth, true⟩, rest)
  | c :: rest =>
      if c = '?' ∨ c = '*' ∨ c = '+' then
        p.scope.repeated?.map fun scope =>
          ({ p with scope := scope }, if rest.head? = some '?' then rest.tail else rest)
      else
        (outerItem? p.scope.mode (c :: rest)).bind fun (item, rest) =>
          if p.scope.mode.allows item then some (p.add ⟨0, true⟩, rest) else none

def depthFrom? : Nat → Progress → Text → Option Nat
  | 0, p, t => if p.outer = [] ∧ p.scope.mode.skip t = [] then some p.scope.depth else none
  | steps + 1, p, t =>
      match p.scope.mode.skip t with
      | [] => if p.outer = [] then some p.scope.depth else none
      | t => (advance? (steps + 1) p t).bind fun (p, rest) => depthFrom? steps p rest

/-- The depth of a pattern: how many groups, repetitions, classes, rows and alternatives stand
inside each other.  Each step takes a character at least. -/
def depth? (t : Text) : Option Nat := depthFrom? t.length .start t

def maxDepth : Nat := 250

end Pattern

def isPattern (t : Text) : Bool := (Pattern.depth? t).any (· ≤ Pattern.maxDepth)

end LineShell.Text
