import LineShell.Proofs.Execution.Agreement
import LineShell.Proofs.Host.Acceptance

/-!
# What waits after a command

A command that finds nothing waiting leaves nothing waiting, with one exception: on the device
without room, text of the shell's own waits on if its first piece does.
-/

namespace LineShell

open Host

namespace Host

variable {h : Host}

theorem pending_flush_onFull (hfull : h.OnFull) : h.flush.2.pending = h.pending := by
  by_cases hpending : h.pending = []
  · rw [flush_of_pending_eq_nil hpending]
  · have hstuck : h.Stuck := ⟨hfull, hpending⟩
    rw [hstuck.flush]

theorem pending_flush_printAll_iff (hpending : h.pending = []) (pieces : List Text) :
    (h.printAll pieces).2.flush.2.pending = [] ↔ ¬ (h.OnFull ∧ waitsFirst pieces = true) := by
  by_cases hfull : h.OnFull
  · rw [pending_flush_onFull (kept_onFull.printAll hfull pieces),
      pending_printAll_iff hfull hpending]
    simp [hfull]
  · have hprinted := kept_not_onFull.printAll hfull pieces
    simp [pending_flush (flush_of_room hprinted), hfull]

theorem pending_printAll_error {pieces : List Text} {e : IOError} {k : Host}
    (hprinted : h.printAll pieces = (.error e, k)) : k.flush.2.pending = k.pending := by
  by_cases hfull : h.OnFull
  · have hk := kept_onFull.printAll hfull pieces
    rw [hprinted] at hk
    exact pending_flush_onFull hk
  · have hok := printAll_of_room hfull pieces
    rw [hprinted] at hok
    cases hok

theorem pending_launch (h : Host) (program : Text) (argv environ : List Text) (workDir : Text) :
    (h.launch program argv environ workDir).2.pending = h.pending := by
  unfold Host.launch
  cases h.prepare program argv environ workDir with
  | error e => rfl
  | ok p => exact pending_act p p.argv.tail _

end Host

namespace Shell

variable {s : Shell}

/-- The pieces that the shell itself prints to standard output for the words of a command. -/
def printed (s : Shell) : List Text → List Text
  | [] => []
  | name :: args =>
      match Builtin.ofName? name, Lookup.resolveIn s.host s.env name with
      | some b, _ => (b.run args s.env s.host).pieces
      | none, none => [name, ": command not found\n".toList]
      | none, some _ => []

theorem pending_runBuiltin_iff (hpending : s.host.pending = []) (b : Builtin)
    (args : List Text) :
    (runBuiltin b args s).2.host.pending = [] ↔
      ¬ (s.host.OnFull ∧ waitsFirst (b.run args s.env s.host).pieces = true) := by
  rw [← pending_flush_printAll_iff hpending]
  unfold runBuiltin
  dsimp only
  split <;> rfl

theorem pending_reportNotFound_iff (hpending : s.host.pending = []) (name : Text) :
    (reportNotFound name s).2.host.pending = [] ↔
      ¬ (s.host.OnFull ∧ waitsFirst [name, ": command not found\n".toList] = true) := by
  rw [← pending_flush_printAll_iff hpending]
  unfold reportNotFound
  rcases hprinted : s.host.printAll [name, ": command not found\n".toList] with ⟨_ | _, k⟩
  · dsimp only
    rw [pending_printAll_error hprinted]
    rfl
  · dsimp only
    rcases k.flush with ⟨_ | _, k'⟩ <;> rfl

theorem pending_runProgram (hpending : s.host.pending = []) (name path : Text)
    (args : List Text) : (runProgram .silent name path args s).2.host.pending = [] := by
  simp only [runProgram, flush_of_pending_eq_nil hpending, noting_silent, withHost]
  have hlaunch := pending_launch s.host (s.env.resolve path) (name :: args) s.env.block s.env.cwd
  rw [hpending] at hlaunch
  split
  · next status h hlaunched =>
      rw [hlaunched] at hlaunch
      exact hlaunch
  · next cause h hlaunched =>
      rw [hlaunched] at hlaunch
      have hwrite := pending_writeStream h .stderr
        (Utf8.encode (name ++ ": ".toList ++ cause.message ++ ['\n']))
      dsimp only [reportLaunch]
      split
      · next e k htold =>
          simp only [htold] at hwrite
          exact hwrite.trans hlaunch
      · next k htold =>
          simp only [htold] at hwrite
          exact hwrite.trans hlaunch

/-- What waits after a command is what the shell printed to the device without room. -/
theorem pending_runWords_iff (hpending : s.host.pending = []) (argv : List Text) :
    (runWords .silent argv s).2.host.pending = [] ↔
      ¬ (s.host.OnFull ∧ waitsFirst (s.printed argv) = true) := by
  cases argv with
  | nil => simp [runWords, printed, waitsFirst, hpending]
  | cons name args =>
      simp only [runWords, printed, noting_silent]
      cases Builtin.ofName? name with
      | some b => exact pending_runBuiltin_iff hpending b args
      | none =>
          cases Lookup.resolveIn s.host s.env name with
          | none => exact pending_reportNotFound_iff hpending name
          | some path => simp [pending_runProgram hpending, waitsFirst]

end Shell

end LineShell
