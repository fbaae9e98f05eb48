import LineShell.Host.Reporter
import LineShell.Host.Script

/-!
# Launching programs

A program is launched in a working directory, with arguments and variables.  The first thing that
is wrong decides the error: a NUL character, the working directory, the file, and last what the
file holds.  A script is run by the program that it names, with itself as an argument.  Every
attempt is kept on record.
-/

namespace LineShell.Host

/-- An argument or variable has to be shorter than this, in octets. -/
def maxArgument : Nat := 131072

def openProgram (h : Host) (dir : Place) (path : Text) : Except IOError (Place × Bytes) :=
  match h.tree.find dir path with
  | .error e => .error e
  | .ok (place, .file mode content) =>
      if !mode.executable then .error (.os .accessDenied)
      else if h.files.isWriting place then .error (.os .textFileBusy)
      else .ok (place, content)
  | .ok _ => .error (.os .accessDenied)

/-- The interpreter of a script.  An empty name stands for the directory itself. -/
def openInterpreter (h : Host) (dir : Place) (name : Text) : Except IOError (Place × Bytes) :=
  openProgram h dir (if name = [] then ['.'] else name)

def maxScripts : Nat := 5

def load (h : Host) (dir : Place) (environ : List Text) :
    Nat → Text → List Text → Place → Bytes → Except IOError Process
  | scripts, path, argv, place, content =>
      if Reporter.image.isPrefixOf content then .ok ⟨place, argv, environ, dir⟩
      else
        match Script.ofContent? content with
        | none => .error (.os .execFormat)
        | some script =>
            match openInterpreter h dir script.interpreter, scripts with
            | .error e, _ => .error e
            | .ok _, 0 => .error (.os .tooManyLinks)
            | .ok (place, content), scripts + 1 =>
                load h dir environ scripts script.interpreter
                  (script.interpreter :: script.argument.toList ++ path :: argv.tail) place content

def prepare (h : Host) (program : Text) (argv environ : List Text) (workDir : Text) :
    Except IOError Process :=
  if '\x00' ∈ program ∨ (argv ++ environ).any (·.contains '\x00') ∨ '\x00' ∈ workDir then
    .error .nulInData
  else
    match h.find workDir with
    | .error e => .error e
    | .ok (dir, .directory mode) =>
        if !mode.executable then .error (.os .accessDenied)
        else
          match openProgram h dir program with
          | .error e => .error e
          | .ok (place, content) =>
              if (argv ++ environ).any (Path.isTooLong (maxArgument - 1)) then
                .error (.os .argumentsTooLong)
              else load h dir environ maxScripts program argv place content
    | .ok _ => .error (.os .notDirectory)

def launch (h : Host) (program : Text) (argv environ : List Text) (workDir : Text) :
    Except IOError Nat × Host :=
  let started := h.prepare program argv environ workDir
  let h := { h with launches := h.launches ++ [⟨program, argv, environ, workDir, started⟩] }
  match started with
  | .error e => (.error e, h)
  | .ok p =>
      let (status, h) := Reporter.run p h
      (.ok status, h)

end LineShell.Host
