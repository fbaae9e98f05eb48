import LineShell.Error
import LineShell.Host.FileTree

/-!
# Walking a path

A walk follows the steps of a path from a directory, with search permission on every directory
that it passes.  A link sends it on from the link's directory, or from the root, along the link's
target and then the steps that were left; after too many links it gives up.  A walk may end at an
entry that is not there, which a caller that creates files then fills.

A walk looks up names in directories, whatever the whole path may be.  To spell out the path of
where a walk ends, the path of every entry on the way is looked up in full.
-/

namespace LineShell

inductive Arrival where
  | found (place : Place)
  | vacant (place : Place)
  deriving DecidableEq, Repr

/-- Whether the walk looks for an entry, or for one to write that is created if needed. -/
inductive Intent where
  | find
  | create
  deriving DecidableEq, Repr

namespace FileTree

/-- Follows steps from a directory; `jump` goes on from a link.  A slash at the end of the path
asks for a directory, which a file to be created never is. -/
def follow (t : FileTree) (intent : Intent)
    (jump : Place → Text → List Path.Step → Bool → Except Errno Arrival) :
    Place → List Path.Step → Bool → Except Errno Arrival
  | here, [], _ => .ok (.found here)
  | here, step :: rest, slash =>
      if !t.isSearchable here then .error .accessDenied
      else
        match step with
        | .stay => follow t intent jump here rest slash
        | .up => follow t intent jump here.parent rest slash
        | .down name =>
            if intent = .create ∧ rest = [] ∧ slash then .error .isDirectory
            else if Path.isTooLong Path.maxName name then .error .nameTooLong
            else
              match t.get? (name :: here) with
              | none => if rest = [] then .ok (.vacant (name :: here)) else .error .noEntry
              | some (.directory _) => follow t intent jump (name :: here) rest slash
              | some (.link target) => jump here target rest slash
              | some _ =>
                  if rest = [] ∧ !slash then .ok (.found (name :: here))
                  else .error .notDirectory

def walk (t : FileTree) (intent : Intent) :
    Nat → Place → List Path.Step → Bool → Except Errno Arrival
  | 0 => follow t intent fun _ _ _ _ => .error .tooManyLinks
  | links + 1 =>
      follow t intent fun here target rest slash =>
        walk t intent links (if Path.isAbsolute target then Place.root else here)
          (Path.steps target ++ rest) (slash || (rest.isEmpty && Path.endsInSlash target))

def maxLinks : Nat := 40

def locate (t : FileTree) (start : Place) (intent : Intent) (path : Text) :
    Except IOError Arrival :=
  if '\x00' ∈ path then .error .nulInPath
  else if path = [] then .error (.os .noEntry)
  else if Path.isTooLong (Path.maxPath - 1) path then .error (.os .nameTooLong)
  else
    (t.walk intent maxLinks (if Path.isAbsolute path then Place.root else start)
      (Path.steps path) (Path.endsInSlash path)).mapError .os

def find (t : FileTree) (start : Place) (path : Text) : Except IOError (Place × Entry) :=
  match t.locate start .find path with
  | .error e => .error e
  | .ok (.vacant _) => .error (.os .noEntry)
  | .ok (.found p) =>
      match t.get? p with
      | none => .error (.os .noEntry)
      | some e => .ok (p, e)

/-- The text under which an entry is looked up in full: a directory that is not the end of the path
has a slash behind it. -/
def spelling (p : Place) (goesOn : Bool) : Text := if goesOn then p.path ++ ['/'] else p.path

def fits (p : Place) (goesOn : Bool) : Bool :=
  !Path.isTooLong (Path.maxPath - 1) (spelling p goesOn)

def spell (t : FileTree) (jump : Place → Text → List Path.Step → Bool → Bool) :
    Place → List Path.Step → Bool → Bool
  | _, [], _ => true
  | here, .stay :: rest, slash => spell t jump here rest slash
  | here, .up :: rest, slash => spell t jump here.parent rest slash
  | here, .down name :: rest, slash =>
      match t.get? (name :: here) with
      | some (.directory _) =>
          fits (name :: here) (!rest.isEmpty || slash) && spell t jump (name :: here) rest slash
      | some (.link target) => fits (name :: here) false && jump here target rest slash
      | _ => fits (name :: here) false

def spells (t : FileTree) : Nat → Place → List Path.Step → Bool → Bool
  | 0 => spell t fun _ _ _ _ => false
  | links + 1 =>
      spell t fun here target rest slash =>
        spells t links (if Path.isAbsolute target then Place.root else here)
          (Path.steps target ++ rest) (slash || (rest.isEmpty && Path.endsInSlash target))

def isSpellable (t : FileTree) (start : Place) (path : Text) : Bool :=
  t.spells maxLinks (if Path.isAbsolute path then Place.root else start) (Path.steps path)
    (Path.endsInSlash path)

/-- Makes the directories on the way to a place that are missing, where a link stands for what it
leads to; the result names the place without links. -/
def reach (t : FileTree) : Place → FileTree × Place
  | [] => (t, Place.root)
  | name :: above =>
      let (t, dir) := t.reach above
      match t.get? (name :: dir) with
      | none => (t.put (name :: dir) (.directory 0o755), name :: dir)
      | some (.link _) =>
          match t.find dir name with
          | .error _ => (t, name :: dir)
          | .ok (p, _) => (t, p)
      | some _ => (t, name :: dir)

def makeDirectories (t : FileTree) (p : Place) : FileTree := (t.reach p).1

def make (t : FileTree) (p : Place) (e : Entry) : FileTree :=
  let (t, dir) := t.reach p.parent
  t.put (p.take 1 ++ dir) e

end FileTree

end LineShell
