import LineShell.Text.Blank
import LineShell.Text.Numeral
import LineShell.Text.Pattern
import LineShell.Text.Utf8

/-!
# Log directives

A directive lets events through up to a level.  In writing it is a level alone, or a target, then
in brackets a span with a field in braces, and after an equals sign a level; every part may be
left out, and without a level all levels are let through.
-/

namespace LineShell.Log

inductive Level where
  | error
  | warn
  | info
  | debug
  | trace
  deriving DecidableEq, Repr

namespace Level

/-- How talkative a level is; zero is left for no events at all. -/
def rank : Level → Nat
  | error => 1
  | warn => 2
  | info => 3
  | debug => 4
  | trace => 5

def limits : List (Text × Nat) :=
  [("off".toList, 0), ("error".toList, error.rank), ("warn".toList, warn.rank),
    ("info".toList, info.rank), ("debug".toList, debug.rank), ("trace".toList, trace.rank)]

def limit? (t : Text) : Option Nat :=
  match limits.lookup (t.map Char.toLower) with
  | some n => some n
  | none => (Text.natural? t).filter (· ≤ trace.rank)

end Level

structure Field where
  name : Text
  value : Option Text
  deriving DecidableEq, Repr

structure Directive where
  target : Text
  span : Option Text
  field : Option Field
  limit : Nat
  deriving DecidableEq, Repr

/-- Why a text is no directive: it does not have the form, or a part of it would begin or end
inside a character. -/
inductive Flaw where
  | malformed
  | insideCharacter
  deriving DecidableEq, Repr

def Field.isValue (t : Text) : Bool := Text.isPattern t || Text.isNumeral t

def Field.ofText (t : Text) : Except Flaw Field :=
  match Text.fields '=' t with
  | [] | [[]] => .error .malformed
  | [name] => .ok ⟨name, none⟩
  | name :: value :: _ =>
      if Field.isValue value then .ok ⟨name, some value⟩ else .error .malformed

namespace Directive

def everywhere (limit : Nat) : Directive := ⟨[], none, none, limit⟩

/-- Whether a directive speaks of an event with a target and fields.  No event of a session stands
in a span, and values are looked at in spans only. -/
def covers (d : Directive) (target : Text) (fields : List Text) : Bool :=
  d.span.isNone && d.target.isPrefixOf target &&
    match d.field with
    | none => true
    | some f => f.value.isNone && fields.contains f.name

/-- Whether a directive takes the place of an earlier one for an event that both speak of: a longer
target counts first, then a field, then the order of the fields. -/
def supersedes (d earlier : Directive) : Bool :=
  if d.target.length = earlier.target.length then
    match earlier.field, d.field with
    | none, _ => true
    | some _, none => false
    | some old, some new => !decide (new.name < old.name)
  else decide (earlier.target.length < d.target.length)

def mayBegin (c : Char) : Bool := Text.isAlphanumeric c || c == '-' || c == ':' || c == '_'

inductive Stage where
  | start
  | target
  | span (first : Nat)
  | field (first : Nat)
  | fieldEnd
  | spanEnd
  | level (first : Nat)
  deriving DecidableEq, Repr

def cut (t : Text) (first last : Nat) : Except Flaw Text :=
  match Utf8.slice? first last t with
  | some part => .ok part
  | none => .error .insideCharacter

def step (piece : Text) (offset : Nat) (c : Char) : Stage → Directive →
    Except Flaw (Stage × Directive)
  | .start, d =>
      if c = '[' then .ok (.span (offset + 1), d)
      else if mayBegin c then .ok (.target, d)
      else .error .malformed
  | .target, d =>
      if c = '=' then
        (cut piece 0 offset).map fun target => (.level (offset + 1), { d with target := target })
      else if c = '[' then
        (cut piece 0 offset).map fun target => (.span (offset + 1), { d with target := target })
      else .ok (.target, d)
  | .span first, d =>
      if c = ']' then
        (cut piece first offset).map fun name => (.spanEnd, { d with span := some name })
      else if c = '\x7b' then
        (cut piece first offset).map fun name =>
          (.field (offset + 1), { d with span := if name = [] then none else some name })
      else .ok (.span first, d)
  | .field first, d =>
      if c = '\x7d' then
        match cut piece first offset with
        | .error flaw => .error flaw
        | .ok t => (Field.ofText t).map fun f => (.fieldEnd, { d with field := some f })
      else .ok (.field first, d)
  | .fieldEnd, d => if c = ']' then .ok (.spanEnd, d) else .error .malformed
  | .spanEnd, d => if c = '=' then .ok (.level (offset + 1), d) else .error .malformed
  | .level first, d => .ok (.level first, d)

def finish (piece : Text) : Stage → Directive → Except Flaw Directive
  | .target, d =>
      match Level.limit? piece with
      | some limit => .ok { d with limit := limit }
      | none => .ok { d with target := piece }
  | .level first, d =>
      match Utf8.drop? first piece with
      | none => .error .insideCharacter
      | some [] => .ok d
      | some level =>
          match Level.limit? level with
          | some limit => .ok { d with limit := limit }
          | none => .error .malformed
  | .spanEnd, d => .ok d
  | _, _ => .error .malformed

def readFrom (piece : Text) (offset : Nat) : Text → Stage → Directive → Except Flaw Directive
  | [], stage, d => finish piece stage d
  | c :: rest, stage, d =>
      match step piece offset c stage d with
      | .error flaw => .error flaw
      | .ok (stage, d) => readFrom piece (offset + c.utf8Size) rest stage d

/-- The directive of a piece of text.  White space around it takes no part in finding where its
parts begin and end, but they are cut from the piece as it stands. -/
def ofText (piece : Text) : Except Flaw Directive :=
  readFrom piece 0 piece.trim .start (everywhere Level.trace.rank)

end Directive

end LineShell.Log
