import LineShell.Interpreter
import LineShell.Proofs.Execution.Restoration

/-!
# Sessions as sequences of moves

Whatever becomes of a session is a sequence of three moves: a line is evaluated, a line is read
after a prompt, an error is reported.  Each turn of the interpreter is such a sequence, and no move
changes what a descriptor stands for.
-/

namespace LineShell

open Host

namespace Host.Kept

variable {P : Host → Prop} {h : Host}

theorem printPrompt (hP : Kept P) (hh : P h) (prompt : Text) :
    P (Source.printPrompt h prompt).2 := by
  have hprinted := hP.print hh prompt
  unfold Source.printPrompt
  rcases hprint : h.print prompt with ⟨_ | _, k⟩
  all_goals rw [hprint] at hprinted
  · exact hprinted
  · exact hP.flush hprinted

theorem readLine (hP : Kept P) (hh : P h) (prompt : Text) (source : Source) :
    P (source.readLine prompt h).2.2 := by
  have hprompt := hP.printPrompt hh prompt
  cases source with
  | script lines => cases lines <;> exact hh
  | input data =>
      unfold Source.readLine
      rcases hshown : Source.printPrompt h prompt with ⟨_ | _, k⟩
      all_goals rw [hshown] at hprompt
      · exact hprompt
      · dsimp only
        split <;> exact hprompt
  | unreadable cause =>
      unfold Source.readLine
      rcases hshown : Source.printPrompt h prompt with ⟨_ | _, k⟩
      all_goals rw [hshown] at hprompt; exact hprompt

theorem report (hP : Kept P) (hh : P h) (e : ShellError) : P (Interpreter.report e h).2 :=
  hP.writeStream (hP.flush hh) .stderr _

end Host.Kept

namespace Shell

inductive Move where
  | line (text : Text)
  | read (prompt : Text) (source : Source)
  | report (e : ShellError)

namespace Move

def apply : Move → Shell → Shell
  | line text, s => (Session.evalLine .silent (execute .silent) text s).2
  | read prompt source, s => s.withHost (source.readLine prompt s.host).2.2
  | report e, s => s.withHost (Interpreter.report e s.host).2

end Move

def play (s : Shell) : List Move → Shell
  | [] => s
  | move :: moves => (move.apply s).play moves

theorem play_append (s : Shell) (moves later : List Move) :
    s.play (moves ++ later) = (s.play moves).play later := by
  induction moves generalizing s with
  | nil => rfl
  | cons move moves ih => exact ih (move.apply s)

/-! ## What a line does -/

theorem evalLine_eq (log : Log) (line : Text) (s : Shell) :
    Session.evalLine log (execute log) line s =
      let s := s.withHost (s.host.note log (.scanned (Words.ofLine line))).2
      match Command.ofLine line with
      | .error e => (.error (.parse e), s)
      | .ok c => ((execute log c s).1.mapError .exec, (execute log c s).2) := by
  unfold Session.evalLine Command.ofLine
  cases Words.ofLine line with
  | nil => rfl
  | cons word words =>
      dsimp only
      cases Command.ofWords (word :: words) <;> rfl

theorem evalLine_ok {line : Text} {c : Command} (hline : Command.ofLine line = .ok c) (s : Shell) :
    (Session.evalLine .silent (execute .silent) line s).2 = (execute .silent c s).2 := by
  rw [evalLine_eq, hline]
  rfl

theorem evalLine_error {line : Text} {e : SyntaxError} (hline : Command.ofLine line = .error e)
    (s : Shell) : (Session.evalLine .silent (execute .silent) line s).2 = s := by
  rw [evalLine_eq, hline]
  rfl

/-! ## Restored descriptors -/

theorem restored_readLine (prompt : Text) (source : Source) (h : Host) :
    Restored h (source.readLine prompt h).2.2 :=
  .of_stays ((kept_stays h.files).readLine (.refl h.files) prompt source)

theorem restored_apply (move : Move) (s : Shell) : Restored s.host (move.apply s).host := by
  cases move with
  | line text =>
      cases hline : Command.ofLine text with
      | error e =>
          rw [Move.apply, evalLine_error hline]
          exact .of_stays (.refl s.host.files)
      | ok c =>
          rw [Move.apply, evalLine_ok hline]
          exact restores_execute c s (.inl rfl)
  | read prompt source => exact restored_readLine prompt source s.host
  | report e =>
      exact .of_stays ((kept_stays s.host.files).report (.refl s.host.files) e)

theorem restored_play (moves : List Move) (s : Shell) : Restored s.host (s.play moves).host := by
  induction moves generalizing s with
  | nil => exact .of_stays (.refl s.host.files)
  | cons move moves ih => exact (restored_apply move s).trans (ih (move.apply s))

/-! ## Turns of the interpreter -/

theorem session_settle_error {σ : Type} (i : Interpreter σ) (e : ShellError) :
    (i.settle (.error e)).2.session =
      { i.session with host := (Interpreter.report e i.session.host).2 } := by
  unfold Interpreter.settle
  dsimp only
  split
  · next cause h heq => rw [heq, Interpreter.withHost]
  · next h heq => rw [heq, Interpreter.withHost]

theorem log_settle (i : Interpreter LogState) (result : Except ShellError Outcome) :
    (i.settle result).2.log = i.log := by
  unfold Interpreter.settle
  cases result with
  | error e =>
      dsimp only
      split <;> rfl
  | ok outcome => cases outcome <;> rfl

theorem log_turn (exec : Executor LogState) (i : Interpreter LogState) :
    (i.turn exec).2.log = i.log := by
  unfold Interpreter.turn
  rcases i.source.readLine i.config.prompt i.session.host with ⟨_ | _ | line, source, h⟩
  · rfl
  · dsimp only
    split <;> rfl
  · exact log_settle _ _

theorem exists_play_settle (i : Interpreter LogState) (hlog : i.log = .silent)
    (result : Except ShellError Outcome) :
    ∃ moves, (i.settle result).2.session = play i.session moves := by
  cases result with
  | error e => exact ⟨[.report e], session_settle_error i e⟩
  | ok outcome =>
      refine ⟨[], ?_⟩
      cases outcome with
      | leave => rfl
      | code status =>
          unfold Interpreter.settle
          rw [hlog]
          rfl

theorem exists_play_turn (i : Interpreter LogState) (hlog : i.log = .silent) :
    ∃ moves, (i.turn (execute .silent)).2.session = play i.session moves := by
  unfold Interpreter.turn
  rcases hread : i.source.readLine i.config.prompt i.session.host with ⟨line, source, h⟩
  have hsession : play i.session [.read i.config.prompt i.source] = withHost i.session h := by
    simp only [play, Move.apply, hread]
  rcases line with e | _ | line
  · exact ⟨_, hsession.symm⟩
  · refine ⟨[.read i.config.prompt i.source], ?_⟩
    rw [hsession]
    dsimp only [Interpreter.withHost]
    rw [hlog]
    split <;> rfl
  · dsimp only
    obtain ⟨moves, hmoves⟩ := exists_play_settle
      { i with
        source := source
        session := (Session.evalLine i.log (execute .silent) line (withHost i.session h)).2 } hlog
      (Session.evalLine i.log (execute .silent) line (withHost i.session h)).1
    refine ⟨[.read i.config.prompt i.source] ++ .line line :: moves, ?_⟩
    rw [play_append, hsession]
    dsimp only [Interpreter.withHost]
    rw [hlog] at hmoves ⊢
    exact hmoves

/-- A run of the interpreter without a log is a sequence of moves. -/
theorem exists_play_runFor (turns : Nat) (i : Interpreter LogState) (hlog : i.log = .silent) :
    ∃ moves, (Interpreter.runFor (execute .silent) turns i).2.session = play i.session moves := by
  induction turns generalizing i with
  | zero => exact ⟨[], rfl⟩
  | succ turns ih =>
      obtain ⟨moves, hmoves⟩ := exists_play_turn i hlog
      have hlog' := log_turn (execute .silent) i
      unfold Interpreter.runFor
      rcases hturn : i.turn (execute .silent) with ⟨_ | result, i'⟩
      · rw [hturn] at hmoves hlog'
        obtain ⟨later, hlater⟩ := ih i' (hlog'.trans hlog)
        refine ⟨moves ++ later, ?_⟩
        rw [play_append, ← hmoves]
        exact hlater
      · rw [hturn] at hmoves
        exact ⟨moves, hmoves⟩

end Shell

end LineShell
