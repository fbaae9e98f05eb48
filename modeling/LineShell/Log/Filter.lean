import LineShell.Log.Directive

/-!
# Log filters

A filter is a list of directives, written between commas.  Of those that speak of an event the most
particular one decides, and of equally particular ones the last.
-/

namespace LineShell.Log

abbrev Filter := List Directive

namespace Filter

def silent : Filter := []

def everywhere (limit : Nat) : Filter := [.everywhere limit]

def deciding? (f : Filter) (target : Text) (fields : List Text) : Option Directive :=
  f.foldl
    (fun best d => if d.covers target fields && best.all d.supersedes then some d else best)
    none

def enables (f : Filter) (level : Level) (target : Text) (fields : List Text) : Bool :=
  (f.deciding? target fields).any (level.rank ≤ ·.limit)

def ofText (t : Text) : Except Flaw Filter :=
  match (Text.fields ',' t).filter fun piece => !piece.isEmpty with
  | [] => .ok (everywhere Level.error.rank)
  | pieces => pieces.mapM Directive.ofText

/-- The filter of the first text that has the form of one, or a filter to fall back on.  There is
none if a text before that would be cut inside a character. -/
def ofFirst? (fallback : Filter) : List Text → Option Filter
  | [] => some fallback
  | t :: rest =>
      match ofText t with
      | .ok f => some f
      | .error .malformed => ofFirst? fallback rest
      | .error .insideCharacter => none

end Filter

end LineShell.Log
