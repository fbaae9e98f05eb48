import LineShell.Proofs.Execution.Notes
import LineShell.Proofs.Interpreter.Play

/-!
# The lines that a run evaluates

Each turn of the interpreter reads a line and evaluates it, or finds that there is none.  Before the
line is evaluated and after that nothing is done but output.
-/

namespace LineShell

open Host

structure Evaluation where
  line : Text
  before : Shell
  result : Except ShellError Outcome
  after : Shell

namespace Interpreter

def evaluation? (i : Interpreter LogState) : Option Evaluation :=
  match i.source.readLine i.config.prompt i.session.host with
  | (.ok (some line), _, h) =>
      let before := Shell.withHost i.session h
      let (result, after) := Session.evalLine i.log (Shell.execute i.log) line before
      some ⟨line, before, result, after⟩
  | _ => none

def evaluations : Nat → Interpreter LogState → List Evaluation
  | 0, _ => []
  | turns + 1, i =>
      i.evaluation?.toList ++
        match i.turn (Shell.execute i.log) with
        | (some _, _) => []
        | (none, i) => evaluations turns i

variable {i : Interpreter LogState} {e : Evaluation}

def OutputOnly (s t : Shell) : Prop :=
  ∃ h, t = s.withHost h ∧ ∀ {P}, Kept P → P s.host → P h

theorem OutputOnly.kept {s t : Shell} (ho : OutputOnly s t) {P : Host → Prop} (hP : Kept P)
    (hs : P s.host) : P t.host := by
  obtain ⟨h, rfl, hkept⟩ := ho
  exact hkept hP hs

theorem OutputOnly.own {s t : Shell} (ho : OutputOnly s t) : t.own = s.own := by
  obtain ⟨h, rfl, -⟩ := ho
  rfl

theorem OutputOnly.restored {s t : Shell} (ho : OutputOnly s t) : Restored s.host t.host :=
  .of_stays (ho.kept (kept_stays s.host.files) (.refl s.host.files))

theorem outputOnly_settle (i : Interpreter LogState) (result : Except ShellError Outcome) :
    OutputOnly i.session (i.settle result).2.session := by
  cases result with
  | error e => exact ⟨_, Shell.session_settle_error i e, fun hP hs => hP.report hs e⟩
  | ok outcome =>
      cases outcome with
      | leave => exact ⟨_, rfl, fun _ hs => hs⟩
      | code status => exact ⟨_, rfl, fun hP hs => hP.note hs i.log _⟩

theorem turn_cases (i : Interpreter LogState) :
    (i.evaluation? = none ∧
      OutputOnly i.session (i.turn (Shell.execute i.log)).2.session) ∨
    ∃ e source, i.evaluation? = some e ∧ OutputOnly i.session e.before ∧
      i.source.readLine i.config.prompt i.session.host =
        (.ok (some e.line), source, e.before.host) ∧
      Session.evalLine i.log (Shell.execute i.log) e.line e.before = (e.result, e.after) ∧
      i.turn (Shell.execute i.log) =
        settle { i with source := source, session := e.after } e.result := by
  have hread : ∀ {P : Host → Prop}, Kept P → P i.session.host →
      P (i.source.readLine i.config.prompt i.session.host).2.2 :=
    fun hP hs => hP.readLine hs i.config.prompt i.source
  unfold evaluation? turn
  rcases heq : i.source.readLine i.config.prompt i.session.host with
    ⟨cause | _ | line, source, h⟩ <;> rw [heq] at hread
  · exact .inl ⟨rfl, h, rfl, hread⟩
  · refine .inl ⟨rfl, ?_⟩
    dsimp only [withHost]
    cases i.config.eof with
    | exit => exact ⟨_, rfl, fun hP hs => hP.note (hread hP hs) i.log .endOfInput⟩
    | proceed => exact ⟨h, rfl, hread⟩
  · right
    exact ⟨⟨line, Shell.withHost i.session h, _, _⟩, source, rfl, ⟨h, rfl, hread⟩, rfl, rfl, rfl⟩

theorem own_evalLine {log : Log} {line : Text} {s t : Shell}
    {result : Except ShellError Outcome}
    (heval : Session.evalLine log (Shell.execute log) line s = (result, t))
    (hstays : result ≠ .ok .leave) : t.own = s.own := by
  rw [Shell.evalLine_eq] at heval
  cases hline : Command.ofLine line with
  | error e =>
      simp only [hline] at heval
      cases heval
      rfl
  | ok c =>
      simp only [hline] at heval
      obtain ⟨hresult, rfl⟩ := Prod.ext_iff.mp heval
      rcases Shell.ends_execute log c (s.withHost (s.host.note log
        (.scanned (Words.ofLine line))).2) with ⟨hown, -⟩ | ⟨hleft, -⟩
      · exact hown
      · rw [hleft] at hresult
        exact absurd hresult.symm hstays

theorem own_turn (hgoes : (i.turn (Shell.execute i.log)).1 = none) :
    (i.turn (Shell.execute i.log)).2.session.own = i.session.own := by
  rcases turn_cases i with ⟨-, houtput⟩ | ⟨e, source, -, hbefore, -, heval, hturn⟩
  · exact houtput.own
  · rw [hturn] at hgoes ⊢
    have hstays : e.result ≠ .ok .leave := by
      intro hleft
      rw [hleft] at hgoes
      cases hgoes
    rw [(outputOnly_settle _ e.result).own, own_evalLine heval hstays, hbefore.own]

theorem restored_evalLine {log : Log} {line : Text} {s t : Shell}
    {result : Except ShellError Outcome}
    (heval : Session.evalLine log (Shell.execute log) line s = (result, t))
    (hown : t.own = .intact) : Restored s.host t.host := by
  have hscanned := Shell.restored_note log s.host (.scanned (Words.ofLine line))
  rw [Shell.evalLine_eq] at heval
  cases hline : Command.ofLine line with
  | error cause =>
      simp only [hline] at heval
      cases heval
      exact hscanned
  | ok c =>
      simp only [hline] at heval
      obtain ⟨-, rfl⟩ := Prod.ext_iff.mp heval
      exact hscanned.trans (Shell.restores_execute c _ (.inr hown))

end Interpreter

end LineShell
