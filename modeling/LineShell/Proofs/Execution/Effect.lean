import LineShell.Proofs.Environment.ChangeDir
import LineShell.Proofs.Execution.Restoration

/-!
# What a command does to the environment

Recording a status is the last thing that is done for a program, and a `cd` that moves prints
nothing.  So while what waits for standard output can be delivered, a command that fails leaves the
environment as it was.
-/

namespace LineShell

open Host

/-! ## Statuses -/

theorem Reporter.Action.exit_lt {arg : Text} {status : Nat} (h : ofArgument arg = .exit status) :
    status < 256 := by
  unfold ofArgument at h
  split at h
  · cases h
  · cases h
  · cases h
    omega
  · dsimp only at h
    split at h <;> cases h
  · repeat' split at h
    all_goals cases h

theorem Reporter.Action.die_le {arg : Text} {signal : Nat} (h : ofArgument arg = .die signal) :
    signal ≤ 64 := by
  unfold ofArgument at h
  split at h
  · cases h
  · cases h
  · cases h
  · dsimp only at h
    split at h
    · next hsignal =>
        cases h
        have hlast : lastSignal = 64 := rfl
        omega
    · cases h
  · repeat' split at h
    all_goals cases h

theorem Reporter.status_act_lt (p : Process) (args : List Text) (h : Host) :
    (act p args h).1 < 256 := by
  induction args generalizing h with
  | nil =>
      unfold act
      omega
  | cons arg args ih =>
      unfold act
      cases haction : Action.ofArgument arg with
      | write stream t => exact ih _
      | listArguments => exact ih _
      | tellWorkDir => exact ih _
      | tellImage => exact ih _
      | listVariables => exact ih _
      | exit status => exact Action.exit_lt haction
      | die signal =>
          have hsignal := Action.die_le haction
          dsimp only
          omega
      | nothing => exact ih h

theorem Host.launch_status_lt {h k : Host} {program workDir : Text} {argv environ : List Text}
    {status : Nat} (hlaunch : h.launch program argv environ workDir = (.ok status, k)) :
    status < 256 := by
  unfold launch at hlaunch
  dsimp only at hlaunch
  split at hlaunch
  · cases hlaunch
  · next p hstarted =>
      cases hlaunch
      exact Reporter.status_act_lt p p.argv.tail _

namespace Shell

/-! ## Words -/

inductive Effect (s : Shell) : List Text → Except ExecError Outcome → Environment → Prop
  | nothing : Effect s [] (.ok (.code s.env.status)) s.env
  | builtin {name : Text} {args : List Text} {b : Builtin} (hname : Builtin.ofName? name = some b) :
      Effect s (name :: args) (.ok (b.run args s.env s.host).outcome) (b.run args s.env s.host).env
  | program {name : Text} {args : List Text} {status : Nat}
      (hname : Builtin.ofName? name = none) (hstatus : status < 256) :
      Effect s (name :: args) (.ok (.code status)) (s.env.setStatus status)
  | failure (words : List Text) (e : ExecError) : Effect s words (.error e) s.env

variable {s : Shell}

theorem effect_runBuiltin (hflush : s.host.flush.1 = .ok ()) {name : Text} {b : Builtin}
    (hname : Builtin.ofName? name = some b) (args : List Text) :
    Effect s (name :: args) (runBuiltin b args s).1 (runBuiltin b args s).2.env := by
  have hmoved := b.env_run args s.env s.host
  unfold runBuiltin
  dsimp only
  rcases hprinted : s.host.printAll (b.run args s.env s.host).pieces with ⟨printed, h⟩
  rcases hflushed : h.flush with ⟨flushed, k⟩
  -- a builtin that moved had nothing to print, and what waited before could be delivered
  have hfail : ∀ e, (flushed = .error e ∨ printed = .error e) →
      (b.run args s.env s.host).env = s.env := by
    intro e he
    rcases hmoved with hsame | ⟨-, target, moved, -, hrun⟩
    · exact hsame
    · rw [hrun] at hprinted
      cases hprinted
      rw [hflushed] at hflush
      rcases he with he | he
      · rw [he] at hflush
        cases hflush
      · cases he
  cases flushed with
  | error e =>
      dsimp only
      rw [hfail e (.inl rfl)]
      exact .failure _ _
  | ok u =>
      cases printed with
      | error e =>
          dsimp only
          rw [hfail e (.inr rfl)]
          exact .failure _ _
      | ok u => exact .builtin hname

theorem effect_reportNotFound {name : Text} (hname : Builtin.ofName? name = none)
    (args : List Text) :
    Effect s (name :: args) (reportNotFound name s).1 (reportNotFound name s).2.env := by
  unfold reportNotFound
  rcases s.host.printAll [name, ": command not found\n".toList] with ⟨_ | _, h⟩
  · exact .failure _ _
  · dsimp only
    rcases h.flush with ⟨_ | _, k⟩
    · exact .failure _ _
    · exact .program hname (by decide)

theorem effect_runProgram {name : Text} (hname : Builtin.ofName? name = none) (path : Text)
    (args : List Text) :
    Effect s (name :: args) (runProgram .silent name path args s).1
      (runProgram .silent name path args s).2.env := by
  simp only [runProgram, noting_silent]
  rcases s.host.flush with ⟨_ | _, h⟩
  · exact .failure _ _
  · dsimp only
    rcases hlaunch : h.launch (s.env.resolve path) (name :: args) s.env.block s.env.cwd with
      ⟨cause | status, k⟩
    · dsimp only [reportLaunch]
      rcases (s.withHost k).host.writeStream .stderr
        (Utf8.encode (name ++ ": ".toList ++ cause.message ++ ['\n'])) with ⟨_ | _, k'⟩
      · exact .failure _ _
      · exact .program hname (by decide)
    · exact .program hname (launch_status_lt hlaunch)

theorem effect_runWords (hflush : s.host.flush.1 = .ok ()) (words : List Text) :
    Effect s words (runWords .silent words s).1 (runWords .silent words s).2.env := by
  cases words with
  | nil => exact .nothing
  | cons name args =>
      simp only [runWords, noting_silent]
      cases hname : Builtin.ofName? name with
      | some b => exact effect_runBuiltin hflush hname args
      | none =>
          dsimp only
          cases Lookup.resolveIn s.host s.env name with
          | none => exact effect_reportNotFound hname args
          | some path => exact effect_runProgram hname path args

end Shell

end LineShell
