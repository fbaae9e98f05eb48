import LineShell.Execution
import LineShell.Proofs.Environment.Visibility
import Mathlib.Data.List.Forall2

/-!
# Commands and what they do not see

On one host, environments that are alike give every command the same result, and leave the same
host and environments that are alike again.  So it goes on over any sequence of commands: what is
written, to streams and to files, and what programs are given is the same, whatever the variables
hold that are not exported.
-/

namespace LineShell

def history {σ : Type} (exec : Executor σ) :
    List Command → Session σ → List (Except ExecError Outcome × Session σ)
  | [], _ => []
  | c :: rest, s => exec c s :: history exec rest (exec c s).2

namespace Shell

structure Indistinct (s s' : Shell) : Prop where
  env : s.env.Alike s'.env
  host : s.host = s'.host
  own : s.own = s'.own

structure SameAnswer (a b : Except ExecError Outcome × Shell) : Prop where
  result : a.1 = b.1
  after : Indistinct a.2 b.2

def Uniform (next : Action) : Prop := ∀ s s', Indistinct s s' → SameAnswer (next s) (next s')

variable {log : Log} {next : Action}

theorem uniform_noting (hnext : Uniform next) (e : Log.Event) : Uniform (noting log e next) := by
  rintro ⟨env, h, own⟩ ⟨env', -, -⟩ ⟨henv, rfl, rfl⟩
  unfold noting
  dsimp only
  rcases h.note log e with ⟨cause | u, k⟩
  · exact ⟨rfl, henv, rfl, rfl⟩
  · exact hnext _ _ ⟨henv, rfl, rfl⟩

theorem uniform_finish (status : Nat) : Uniform (finish status) :=
  fun _ _ hs => ⟨rfl, hs.env.setStatus status, hs.host, hs.own⟩

theorem uniform_runBuiltin (b : Builtin) (args : List Text) : Uniform (runBuiltin b args) := by
  rintro ⟨env, h, own⟩ ⟨env', -, -⟩ ⟨henv, rfl, rfl⟩
  obtain ⟨hpieces, houtcome, hmoved⟩ := henv.runBuiltin b args h
  unfold runBuiltin
  dsimp only
  rw [← hpieces, ← houtcome]
  rcases h.printAll (b.run args env h).pieces with ⟨printed, k⟩
  dsimp only
  rcases k.flush with ⟨cause | u, k⟩
  · exact ⟨rfl, hmoved, rfl, rfl⟩
  · cases printed <;> exact ⟨rfl, hmoved, rfl, rfl⟩

theorem uniform_reportNotFound (name : Text) : Uniform (reportNotFound name) := by
  rintro ⟨env, h, own⟩ ⟨env', -, -⟩ ⟨henv, rfl, rfl⟩
  unfold reportNotFound
  dsimp only
  rcases h.printAll [name, ": command not found\n".toList] with ⟨cause | u, k⟩
  · exact ⟨rfl, henv, rfl, rfl⟩
  · dsimp only
    rcases k.flush with ⟨cause | u, k⟩
    · exact ⟨rfl, henv, rfl, rfl⟩
    · exact uniform_finish statusNotFound _ _ ⟨henv, rfl, rfl⟩

theorem uniform_reportLaunch (hnext : Uniform next) (name : Text) (cause : IOError) :
    Uniform (reportLaunch name cause next) := by
  rintro ⟨env, h, own⟩ ⟨env', -, -⟩ ⟨henv, rfl, rfl⟩
  unfold reportLaunch
  dsimp only
  rcases h.writeStream .stderr (Utf8.encode (name ++ ": ".toList ++ cause.message ++ ['\n'])) with
    ⟨e | u, k⟩
  · exact ⟨rfl, henv, rfl, rfl⟩
  · exact hnext _ _ ⟨henv, rfl, rfl⟩

theorem uniform_runProgram (name path : Text) (args : List Text) :
    Uniform (runProgram log name path args) := by
  rintro ⟨env, h, own⟩ ⟨env', -, -⟩ ⟨henv, rfl, rfl⟩
  unfold runProgram
  dsimp only
  rcases h.flush with ⟨cause | u, k⟩
  · exact ⟨rfl, henv, rfl, rfl⟩
  · dsimp only
    -- of the variables a program gets the exported ones only, in one order
    rw [← henv.resolve_eq, ← henv.block_eq, ← henv.cwd]
    rcases k.launch (env.resolve path) (name :: args) env.block env.cwd with ⟨cause | status, k⟩
    · refine uniform_noting (uniform_reportLaunch (uniform_noting ?_ _) name cause) _ _ _
        ⟨henv, rfl, rfl⟩
      exact uniform_finish statusCannotExecute
    · exact uniform_noting (uniform_finish status) _ _ _ ⟨henv, rfl, rfl⟩

theorem uniform_runWords (argv : List Text) : Uniform (runWords log argv) := by
  rintro ⟨env, h, own⟩ ⟨env', -, -⟩ ⟨henv, rfl, rfl⟩
  cases argv with
  | nil =>
      have hstatus : env.status = env'.status := henv.status
      refine ⟨?_, henv, rfl, rfl⟩
      simp only [runWords, hstatus]
  | cons name args =>
      unfold runWords
      dsimp only
      rw [← henv.resolveIn_eq]
      cases Builtin.ofName? name with
      | some b => exact uniform_noting (uniform_runBuiltin b args) _ _ _ ⟨henv, rfl, rfl⟩
      | none =>
          dsimp only
          cases Lookup.resolveIn h env name with
          | none => exact uniform_reportNotFound name _ _ ⟨henv, rfl, rfl⟩
          | some path =>
              exact uniform_noting (uniform_runProgram name path args) _ _ _ ⟨henv, rfl, rfl⟩

theorem uniform_holding (hnext : Uniform next) (g : Guard) : Uniform (holding log g next) := by
  intro s s' hs
  obtain ⟨hresult, henv, hhost, hown⟩ := hnext s s' hs
  refine ⟨hresult, henv, ?_, hown⟩
  simp only [holding, withHost, hhost]

theorem uniform_closing (hnext : Uniform next) (fd : Descriptor) : Uniform (closing fd next) := by
  rintro ⟨env, h, own⟩ ⟨env', -, -⟩ ⟨henv, rfl, rfl⟩
  exact hnext _ _ ⟨henv, rfl, rfl⟩

theorem uniform_pointing (hnext : Uniform next) (stream : Stream) (mode : WriteMode)
    (path : Text) : Uniform (pointing log stream mode path next) := by
  rintro ⟨env, h, own⟩ ⟨env', -, -⟩ ⟨henv, rfl, rfl⟩
  unfold pointing
  dsimp only
  rcases h.openTarget mode path with ⟨cause | file, k⟩
  · exact ⟨rfl, henv, rfl, rfl⟩
  · dsimp only
    rcases k.acquire stream.descriptor file with ⟨cause | g, k⟩
    · exact ⟨rfl, henv, rfl, rfl⟩
    · exact uniform_noting (uniform_holding (uniform_closing hnext file) g) _ _ _ ⟨henv, rfl, rfl⟩

theorem uniform_redirecting (hnext : Uniform next) (stream : Stream)
    (redirection : Option Redirection) : Uniform (redirecting log stream next redirection) := by
  cases redirection with
  | none => exact hnext
  | some r =>
      intro s s' hs
      simp only [redirecting, ← hs.env.resolve_eq]
      exact uniform_noting (uniform_pointing hnext stream r.mode _) _ s s' hs

theorem uniform_execute (c : Command) : Uniform (execute log c) :=
  uniform_redirecting (uniform_redirecting (uniform_runWords c.argv) .stderr c.stderr) .stdout
    c.stdout

/-- Variables that are not exported are invisible: after each of a sequence of commands the results
and the hosts, with all that was written and launched, are the same, and the environments are alike
again. -/
theorem unexported_invisible (log : Log) (commands : List Command) {s s' : Shell}
    (hs : Indistinct s s') :
    List.Forall₂ SameAnswer (history (execute log) commands s)
      (history (execute log) commands s') := by
  induction commands generalizing s s' with
  | nil => exact .nil
  | cons c rest ih =>
      have hfirst : SameAnswer (execute log c s) (execute log c s') := uniform_execute c s s' hs
      exact .cons hfirst (ih hfirst.after)

theorem unexported_invisible_secret :
    let tree := FileTree.bare.make ["r".toList] (.file 0o755 Reporter.image)
    let env := Environment.ofVariables "/".toList [("PATH".toList, "/".toList)]
    let s := ofParts env (.start tree Place.root)
    let s' := ofParts (env.set "SECRET".toList "1".toList) (.start tree Place.root)
    let commands := [Command.plain ["type".toList, "r".toList],
      .redirected ["r".toList, "env".toList] .stdout ⟨"f".toList, .append⟩,
      .plain ["cd".toList, "~".toList]]
    (Indistinct s s' ∧ s.env ≠ s'.env) ∧
      List.Forall₂ SameAnswer (history (execute .silent) commands s)
        (history (execute .silent) commands s') := by
  intro tree env s s' commands
  have hexported : s.env.exported = s'.env.exported := by decide +kernel
  have hs : Indistinct s s' :=
    ⟨⟨fun pair => by rw [hexported], by decide +kernel, by decide +kernel, rfl, rfl⟩, rfl, rfl⟩
  exact ⟨⟨hs, by decide +kernel⟩, unexported_invisible .silent commands hs⟩

end Shell

end LineShell
