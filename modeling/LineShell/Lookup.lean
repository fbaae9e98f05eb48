import LineShell.Environment

/-!
# Finding programs

A name with a slash is a path of its own.  Any other name is looked for in the directories of the
search path, from left to right; an empty entry of the search path names no directory.
-/

namespace LineShell

namespace Host

def isExecutable (h : Host) (path : Text) : Bool :=
  match h.find path with
  | .ok (_, .file _ _) => (h.mayPass path).isOk
  | _ => false

end Host

namespace Lookup

def directories (searchPath : Text) : List Text :=
  (Text.fields ':' searchPath).filter fun dir => !dir.isEmpty

def candidates (searchPath cwd name : Text) : List Text :=
  (directories searchPath).map fun dir => Path.join (Path.join cwd dir) name

def resolve (h : Host) (searchPath : Option Text) (cwd name : Text) : Option Text :=
  if name.contains '/' then
    if h.isExecutable (Path.join cwd name) then some name else none
  else
    match searchPath with
    | none => none
    | some searchPath => (candidates searchPath cwd name).find? h.isExecutable

def searchVariable : Text := "PATH".toList

def resolveIn (h : Host) (env : Environment) (name : Text) : Option Text :=
  resolve h (env.get? searchVariable) env.cwd name

end Lookup

end LineShell
