import LineShell.Lookup

/-!
# Builtin commands

The commands that run inside the session.  A builtin computes what it prints, as the pieces that
are written one after another, its outcome, and the environment after it.
-/

namespace LineShell

inductive Outcome where
  | code (status : Int)
  | leave
  deriving DecidableEq, Repr

inductive Builtin where
  | exit
  | echo
  | pwd
  | cd
  | type
  deriving DecidableEq, Repr

structure BuiltinResult where
  pieces : List Text
  outcome : Outcome
  env : Environment
  deriving DecidableEq

namespace Builtin

def all : List Builtin := [.exit, .echo, .pwd, .cd, .type]

def name : Builtin → Text
  | exit => "exit".toList
  | echo => "echo".toList
  | pwd => "pwd".toList
  | cd => "cd".toList
  | type => "type".toList

def ofName? (t : Text) : Option Builtin := all.find? (·.name == t)

def homeVariable : Text := "HOME".toList

def runCd (args : List Text) (env : Environment) (h : Host) : BuiltinResult :=
  match args with
  | [] => ⟨[], .code 0, env⟩
  | arg :: _ =>
      match if arg = ['~'] then env.get? homeVariable else some arg with
      | none => ⟨["cd: HOME not set\n".toList], .code 1, env⟩
      | some target =>
          match env.changeDir h target with
          | .ok moved => ⟨[], .code 0, moved⟩
          | .error e =>
              ⟨["cd: ".toList, arg, ": ".toList, e.describe, ['\n']], .code 1, env⟩

def runType (args : List Text) (env : Environment) (h : Host) : BuiltinResult :=
  match args with
  | [] => ⟨[], .code 0, env⟩
  | arg :: _ =>
      match ofName? arg with
      | some _ => ⟨[arg, " is a shell builtin\n".toList], .code 0, env⟩
      | none =>
          match Lookup.resolveIn h env arg with
          | some path => ⟨[arg, " is ".toList, path, ['\n']], .code 0, env⟩
          | none => ⟨[arg, ": not found\n".toList], .code 1, env⟩

def run (b : Builtin) (args : List Text) (env : Environment) (h : Host) : BuiltinResult :=
  match b with
  | exit => ⟨[], .leave, env⟩
  | echo => ⟨[[' '].intercalate args, ['\n']], .code 0, env⟩
  | pwd => ⟨[env.cwd, ['\n']], .code 0, env⟩
  | cd => runCd args env h
  | type => runType args env h

theorem ofName?_name (b : Builtin) : ofName? b.name = some b := by
  cases b <;> decide

theorem eq_name_of_ofName? {t : Text} {b : Builtin} (h : ofName? t = some b) : t = b.name := by
  have hname := List.find?_some h
  simp only [beq_iff_eq] at hname
  exact hname.symm

end Builtin

end LineShell
