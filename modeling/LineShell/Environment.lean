import LineShell.Dictionary
import LineShell.Host

/-!
# The session's environment

The variables, each of which may be exported to programs, the working directory as a text, and the
status of the last program.
-/

namespace LineShell

structure Variable where
  value : Text
  exported : Bool
  deriving DecidableEq, Repr

structure Environment where
  vars : Dictionary Variable
  cwd : Text
  status : Int
  deriving DecidableEq

namespace Environment

/-- An environment whose variables are all exported; a later one takes an earlier one's place. -/
def ofVariables (cwd : Text) (vars : List (Text × Text)) : Environment :=
  ⟨.ofList (vars.map fun (name, value) => (name, ⟨value, true⟩)), cwd, 0⟩

def get? (env : Environment) (name : Text) : Option Text := (env.vars.get? name).map (·.value)

/-- Gives a variable a value.  A new variable is not exported. -/
def set (env : Environment) (name value : Text) : Environment :=
  let exported := ((env.vars.get? name).map (·.exported)).getD false
  { env with vars := env.vars.insert name ⟨value, exported⟩ }

def markExported (env : Environment) (name : Text) : Environment :=
  match env.vars.get? name with
  | none => env
  | some v => { env with vars := env.vars.insert name { v with exported := true } }

def exported (env : Environment) : List (Text × Text) :=
  (env.vars.entries.filter (·.2.exported)).map fun (name, v) => (name, v.value)

def block (env : Environment) : List Text :=
  env.exported.map fun (name, value) => name ++ '=' :: value

def setStatus (env : Environment) (status : Int) : Environment := { env with status := status }

def preset (env : Environment) (presets : List (Text × Text)) : Environment :=
  presets.foldl (fun env (name, value) => (env.set name value).markExported name) env

def resolve (env : Environment) (path : Text) : Text := Path.join env.cwd path

def changeDir (env : Environment) (h : Host) (path : Text) : Except IOError Environment :=
  let candidate := env.resolve path
  match h.find candidate with
  | .error e => .error e
  | .ok (_, entry) =>
      if !entry.isDirectory then .error (.os .notDirectory)
      else
        match h.mayPass candidate with
        | .error e => .error e
        | .ok () =>
            match h.canonicalize candidate with
            | .error e => .error e
            | .ok cwd => .ok { env with cwd := cwd }

end Environment

end LineShell
