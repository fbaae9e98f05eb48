import LineShell.Interpreter

/-!
# The program

The configuration file is the one that a variable names, or a file in the home directory.  A
file that is missing means the defaults, and so does one that cannot be loaded, after a message.
The program then evaluates standard input until it ends, or until its log cannot be written.  It
breaks off when one of its own messages cannot be written.
-/

namespace LineShell

namespace Config

def pathVariable : Text := "MINISH_CONFIG".toList

def fileName : Text := ".minishrc".toList

def defaultPath (configured home : Option Text) : Option Text :=
  match configured with
  | some path => some path
  | none => home.map fun dir => Path.join dir fileName

def load (h : Host) (path : Text) : Except ConfigError Config :=
  match h.readText path with
  | .error e => .error (.io e)
  | .ok src => (ofText src).mapError fun o => .malformed o.message

def loadOrDefault (h : Host) (path : Text) : Except ConfigError Config :=
  match load h path with
  | .error (.io (.os .noEntry)) => .ok default
  | result => result

end Config

namespace Program

/-- The variables of a process, from entries of the form `NAME=VALUE`.  A name is never empty, so
an equals sign at the very beginning belongs to it; entries without a name are left out. -/
def variablePairs (block : List Text) : List (Text × Text) :=
  block.filterMap fun entry =>
    match entry with
    | [] => none
    | c :: rest => (Text.splitFirst? '=' rest).map fun (name, value) => (c :: name, value)

def value? (block : List Text) (name : Text) : Option Text :=
  block.findSome? fun entry =>
    if (name ++ ['=']).isPrefixOf entry then some (entry.drop (name.length + 1)) else none

def configPath? (block : List Text) : Option Text :=
  Config.defaultPath (value? block Config.pathVariable) (value? block Builtin.homeVariable)

def configuration (block : List Text) (h : Host) : Config × Text :=
  match configPath? block with
  | none => (.default, [])
  | some path =>
      match Config.loadOrDefault h path with
      | .ok config => (config, [])
      | .error e =>
          (.default, Interpreter.programName ++ ": ".toList ++ path ++ ": ".toList ++ e.message ++
            ['\n'])

def complain (block : List Text) (h : Host) : Except IOError Unit × Host :=
  h.writeStream .stderr (Utf8.encode (configuration block h).2)

def configure (block : List Text) (h : Host) : Config × Host :=
  ((configuration block h).1, (complain block h).2)

def logVariable : Text := "MINISH_LOG".toList

def plainVariable : Text := "NO_COLOR".toList

/-- The log of the first text that a filter can be read from: that of the variable, then that of the
configuration, then warnings.  There is none if a text is cut inside a character. -/
def log? (block : List Text) (config : Config) : Option Log :=
  let warnings := Log.Filter.everywhere Log.Level.warn.rank
  let texts := (value? block logVariable).toList ++ [config.log]
  let coloured := ((value? block plainVariable).getD []).isEmpty
  (Log.Filter.ofFirst? warnings texts).map fun filter => ⟨filter, coloured⟩

def interpreter (block : List Text) (config : Config) (log : Log) (source : Source) (h : Host) :
    Interpreter LogState :=
  let env := Environment.ofVariables h.workDir.path (variablePairs block)
  ⟨config, log, source, Session.configured config env h .intact⟩

def statusBroken : Nat := 101

def conclude (result : Except ShellError Unit) (s : Shell) : Nat × Host :=
  match result, s.own with
  | .ok (), .intact => (0, s.host.flush.2)
  | .ok (), .lost => (statusBroken, s.host.flush.2)
  | .error e, _ =>
      match s.host.writeStream .stderr (Utf8.encode (Interpreter.errorLine e)) with
      | (.error _, h) => (statusBroken, h.flush.2)
      | (.ok (), h) => (1, h.flush.2)

/-- Runs the program with a block of variables.  There is no exit status if it never ends. -/
def run (block : List Text) (source : Source) (h : Host) : Option Nat × Host :=
  let (config, configured) := configure block h
  match (complain block h).1, log? block config with
  | .error _, _ | .ok (), none => (some statusBroken, configured.flush.2)
  | .ok (), some log =>
      match Interpreter.run (Shell.execute log)
          (interpreter block config log source configured) with
      | (none, i) => (none, i.session.host)
      | (some result, i) =>
          let (status, h) := conclude result i.session
          (some status, h)

end Program

end LineShell
