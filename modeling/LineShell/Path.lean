import LineShell.Text.Utf8

/-!
# Paths

A path is a text; joining keeps it as it was typed.  Its steps are what a walk follows: slashes
that repeat count once, and a slash at the end asks for a directory.
-/

namespace LineShell

abbrev Name := Text

namespace Path

def isAbsolute (path : Text) : Bool := path.head? == some '/'

/-- Anchors a path at a base.  An absolute path stays as it is; otherwise one slash separates the
two, unless the base is empty or ends in one. -/
def join (base path : Text) : Text :=
  if isAbsolute path then path
  else if base = [] ∨ base.getLast? = some '/' then base ++ path
  else base ++ '/' :: path

theorem join_of_isAbsolute (base : Text) {path : Text} (h : isAbsolute path = true) :
    join base path = path :=
  if_pos h

theorem isAbsolute_join {base : Text} (h : isAbsolute base = true) (path : Text) :
    isAbsolute (join base path) = true := by
  unfold join
  split
  · next hpath => exact hpath
  · cases base with
    | nil => cases h
    | cons c rest => split <;> exact h

theorem slash_mem_of_isAbsolute {path : Text} (h : isAbsolute path = true) : '/' ∈ path := by
  cases path with
  | nil => cases h
  | cons c rest =>
      have hc : c = '/' := by simpa [isAbsolute] using h
      rw [hc]
      exact List.mem_cons_self

inductive Step where
  | stay
  | up
  | down (name : Name)
  deriving DecidableEq, Repr

def Step.ofField (field : Text) : Step :=
  if field = ['.'] then .stay
  else if field = ['.', '.'] then .up
  else .down field

def steps (path : Text) : List Step :=
  ((Text.fields '/' path).filter fun field => !field.isEmpty).map Step.ofField

def endsInSlash (path : Text) : Bool := path.getLast? == some '/'

def maxName : Nat := 255

def maxPath : Nat := 4096

def isTooLong (limit : Nat) (t : Text) : Bool := decide (limit < (Utf8.encode t).length)

end Path

/-- A place in the tree of files: the names that lead to it from the root, the last one first. -/
abbrev Place := List Name

namespace Place

def root : Place := []

def parent (p : Place) : Place := p.tail

def path (p : Place) : Text :=
  match p with
  | [] => ['/']
  | _ => p.reverse.flatMap fun name => '/' :: name

def isWithin (p above : Place) : Bool := above.isSuffixOf p

end Place

end LineShell
