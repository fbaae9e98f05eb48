import LineShell.Proofs.Execution.Restoration
import LineShell.Proofs.Execution.Waiting

/-!
# Commands that end well

A command that finds nothing waiting in front of standard output and ends without an error has
delivered all that it printed, wherever its streams led meanwhile and whatever was noted.
-/

namespace LineShell

open Host

namespace Host

variable {h : Host}

theorem pending_of_flush {k : Host} (hflush : h.flush = (.ok (), k)) : k.pending = [] := by
  have hdrained := pending_flush (h := h) (by rw [hflush])
  rwa [hflush] at hdrained

theorem pending_note (h : Host) (log : Log) (e : Log.Event) :
    (h.note log e).2.pending = h.pending := by
  unfold note
  split
  · exact pending_writeStream h .stderr _
  · rfl

theorem pending_settle (hpending : h.pending = []) (fd : Descriptor) :
    (h.settle fd).pending = [] := by
  unfold settle
  split
  · rw [flush_of_pending_eq_nil hpending, hpending]
  · exact hpending

end Host

namespace Shell

def Drains (next : Action) : Prop :=
  ∀ s outcome t, s.host.pending = [] → next s = (.ok outcome, t) → t.host.pending = []

variable {log : Log} {next : Action}

theorem drains_noting (hnext : Drains next) (e : Log.Event) : Drains (noting log e next) := by
  intro s outcome t hpending hdone
  have hnoted := (pending_note s.host log e).trans hpending
  unfold noting at hdone
  rcases hnote : s.host.note log e with ⟨cause | u, h⟩
  · simp only [hnote] at hdone hnoted
    cases hdone
    exact hnoted
  · simp only [hnote] at hdone hnoted
    exact hnext _ outcome t hnoted hdone

theorem drains_finish (status : Nat) : Drains (finish status) := by
  rintro s outcome t hpending ⟨⟩
  exact hpending

theorem drains_runBuiltin (b : Builtin) (args : List Text) : Drains (runBuiltin b args) := by
  intro s outcome t _ hdone
  unfold runBuiltin at hdone
  dsimp only at hdone
  split at hdone
  · cases hdone
  · cases hdone
  · next hflushed _ =>
      cases hdone
      exact pending_flush hflushed

theorem drains_reportNotFound (name : Text) : Drains (reportNotFound name) := by
  intro s outcome t _ hdone
  unfold reportNotFound at hdone
  split at hdone
  · cases hdone
  · split at hdone
    · cases hdone
    · next hflushed =>
        cases hdone
        exact pending_of_flush hflushed

theorem drains_reportLaunch (hnext : Drains next) (name : Text) (cause : IOError) :
    Drains (reportLaunch name cause next) := by
  intro s outcome t hpending hdone
  unfold reportLaunch at hdone
  have htold := (pending_writeStream s.host .stderr
    (Utf8.encode (name ++ ": ".toList ++ cause.message ++ ['\n']))).trans hpending
  dsimp only at hdone
  split at hdone
  · cases hdone
  · next h heq =>
      rw [heq] at htold
      exact hnext _ outcome t htold hdone

theorem drains_runProgram (name path : Text) (args : List Text) :
    Drains (runProgram log name path args) := by
  intro s outcome t _ hdone
  unfold runProgram at hdone
  rcases hflushed : s.host.flush with ⟨e | u, h⟩
  · rw [hflushed] at hdone
    cases hdone
  · rw [hflushed] at hdone
    have hlaunch :=
      (pending_launch h (s.env.resolve path) (name :: args) s.env.block s.env.cwd).trans
        (pending_of_flush hflushed)
    dsimp only at hdone
    split at hdone
    · next status k heq =>
        rw [heq] at hlaunch
        exact drains_noting (drains_finish status) _ _ outcome t hlaunch hdone
    · next cause k heq =>
        rw [heq] at hlaunch
        have hfinish : Drains (noting log (.finished name statusCannotExecute)
            (finish statusCannotExecute)) := drains_noting (drains_finish statusCannotExecute) _
        exact drains_noting (drains_reportLaunch hfinish name cause) _ _ outcome t hlaunch hdone

theorem drains_runWords (argv : List Text) : Drains (runWords log argv) := by
  intro s outcome t hpending hdone
  cases argv with
  | nil =>
      cases hdone
      exact hpending
  | cons name args =>
      unfold runWords at hdone
      dsimp only at hdone
      split at hdone
      · next b _ => exact drains_noting (drains_runBuiltin b args) _ s outcome t hpending hdone
      · split at hdone
        · exact drains_reportNotFound name s outcome t hpending hdone
        · next path _ =>
            exact drains_noting (drains_runProgram name path args) _ s outcome t hpending hdone

theorem drains_holding (hnext : Drains next) (g : Guard) : Drains (holding log g next) := by
  intro s outcome t hpending hdone
  unfold holding at hdone
  rcases hinner : next s with ⟨result, u⟩
  rw [hinner] at hdone
  cases hdone
  have hinner := hnext s outcome u hpending hinner
  have hreleased : (u.host.release g).pending = [] := pending_settle hinner g.descriptor
  exact (pending_note _ log _).trans hreleased

theorem drains_closing (hnext : Drains next) (fd : Descriptor) : Drains (closing fd next) :=
  fun s outcome t hpending hdone =>
    hnext (s.withHost (s.host.close fd)) outcome t hpending hdone

theorem drains_pointing (hnext : Drains next) (stream : Stream) (mode : WriteMode)
    (path : Text) : Drains (pointing log stream mode path next) := by
  intro s outcome t hpending hdone
  have hopened := (pending_openTarget s.host mode path).trans hpending
  rcases hopen : s.host.openTarget mode path with ⟨e | file, opened⟩
  · simp only [pointing, hopen] at hdone
    cases hdone
  · rw [hopen] at hopened
    cases hsaved : opened.files.number? stream.descriptor with
    | none =>
        rw [pointing_closed hopen hsaved] at hdone
        cases hdone
    | some saved =>
        rw [pointing_opened hopen hsaved] at hdone
        have hacquired : (opened.acquired stream.descriptor file).pending = [] :=
          pending_settle hopened stream.descriptor
        exact drains_noting (drains_holding (drains_closing hnext file) _) _ _ outcome t hacquired
          hdone

theorem drains_redirecting (hnext : Drains next) (stream : Stream)
    (redirection : Option Redirection) : Drains (redirecting log stream next redirection) := by
  cases redirection with
  | none => exact hnext
  | some r =>
      intro s
      exact drains_noting (drains_pointing hnext stream r.mode _) _ s

theorem drains_execute (c : Command) : Drains (execute log c) :=
  drains_redirecting (drains_redirecting (drains_runWords c.argv) .stderr c.stderr) .stdout c.stdout

end Shell

end LineShell
