import LineShell.Dictionary
import LineShell.Text.Blank
import LineShell.Text.Lines

/-!
# Settings

A configuration has a line for each setting: a key, an equals sign and a value.  White space
around a key means nothing, and neither do blank lines and lines whose first character is `#`.
A later setting takes the place of an earlier one.  The first line that is no setting is the
offence that the whole text is refused for.
-/

namespace LineShell

inductive EofPolicy where
  | exit
  | proceed
  deriving DecidableEq, Repr

structure Config where
  prompt : Text
  eof : EofPolicy
  log : Text
  presets : Dictionary Text
  deriving DecidableEq

inductive Fault where
  | noEqualsSign (line : Text)
  | invalidEofPolicy (value : Text)
  | unknownKey (key : Text)
  deriving DecidableEq, Repr

/-- A line that is no setting, with its number counted from one. -/
structure Offence where
  line : Nat
  fault : Fault
  deriving DecidableEq, Repr

def Fault.message : Fault → Text
  | .noEqualsSign line => "No '=' found: ".toList ++ line
  | .invalidEofPolicy value => "Invalid eof behavior: ".toList ++ value
  | .unknownKey key => "Unknown key: ".toList ++ key

def Offence.message (o : Offence) : Text :=
  "Line ".toList ++ Text.decimal o.line ++ ": ".toList ++ o.fault.message

def EofPolicy.ofText? (t : Text) : Option EofPolicy :=
  if t = "exit".toList then some .exit
  else if t = "continue".toList then some .proceed
  else none

inductive Setting where
  | prompt (value : Text)
  | eof (policy : EofPolicy)
  | log (value : Text)
  | preset (name value : Text)
  deriving DecidableEq, Repr

namespace Setting

/-- The name in a key after all its leading `env.` marks. -/
def unmarked : Text → Text
  | 'e' :: 'n' :: 'v' :: '.' :: rest => unmarked rest
  | name => name

def ofKey (key value : Text) : Except Fault Setting :=
  if key = "prompt".toList then .ok (.prompt value)
  else if key = "eof".toList then
    match EofPolicy.ofText? value.trim with
    | some policy => .ok (.eof policy)
    | none => .error (.invalidEofPolicy value.trim)
  else if key = "log".toList then .ok (.log value.trim)
  else if "env.".toList.isPrefixOf key then .ok (.preset (unmarked key) value)
  else .error (.unknownKey key)

def ofLine (line : Text) : Except Fault (Option Setting) :=
  match line.trimStart with
  | [] | '#' :: _ => .ok none
  | _ =>
      match line.splitFirst? '=' with
      | none => .error (.noEqualsSign line)
      | some (key, value) => (ofKey key.trim value).map some

end Setting

namespace Config

def default : Config := ⟨"$ ".toList, .exit, "warn".toList, .empty⟩

instance : Inhabited Config := ⟨default⟩

def apply (c : Config) : Setting → Config
  | .prompt value => { c with prompt := value }
  | .eof policy => { c with eof := policy }
  | .log value => { c with log := value }
  | .preset name value => { c with presets := c.presets.insert name value }

def applyLines (number : Nat) : List Text → Config → Except Offence Config
  | [], c => .ok c
  | line :: rest, c =>
      match Setting.ofLine line with
      | .error fault => .error ⟨number, fault⟩
      | .ok none => applyLines (number + 1) rest c
      | .ok (some setting) => applyLines (number + 1) rest (c.apply setting)

def ofText (src : Text) : Except Offence Config := applyLines 1 src.lines default

end Config

end LineShell
