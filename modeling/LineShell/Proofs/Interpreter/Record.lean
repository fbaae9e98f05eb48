import LineShell.Proofs.Command
import LineShell.Proofs.Execution.Effect
import LineShell.Proofs.Interpreter.Play

/-!
# What lines leave of the environment

A line that fails leaves the environment as it was.  The status of a program is recorded, a `cd`
that succeeds moves the session, and no line does anything else to it.  So the status after a run is
the last one that was recorded, or the first if none was.
-/

namespace LineShell

open Host

def Command.isExternal (c : Command) : Bool :=
  c.name?.any fun name => (Builtin.ofName? name).isNone

namespace Shell

def answer (s : Shell) (line : Text) : Except ShellError Outcome :=
  (Session.evalLine .silent (execute .silent) line s).1

/-- The status that a line records: that of a command that asked for a program. -/
def recorded? (line : Text) (answer : Except ShellError Outcome) : Option Int :=
  match Command.ofLine line, answer with
  | .ok c, .ok (.code status) => if c.isExternal then some status else none
  | _, _ => none

structure Governed (line : Text) (before after : Environment)
    (answer : Except ShellError Outcome) : Prop where
  vars : after.vars = before.vars
  failure : ∀ e, answer = .error e → after = before
  recorded : ∀ status, recorded? line answer = some status →
    after.status = status ∧ 0 ≤ status ∧ status ≤ 255 ∧ after.cwd = before.cwd
  unrecorded : recorded? line answer = none →
    after.status = before.status ∧
      (after.cwd ≠ before.cwd → ∃ c, Command.ofLine line = .ok c ∧
        c.name? = some Builtin.cd.name ∧ answer = .ok (.code 0))

variable {s : Shell}

/-! ## One line -/

theorem answer_ok {line : Text} {c : Command} (hline : Command.ofLine line = .ok c) :
    s.answer line = (execute .silent c s).1.mapError .exec := by
  rw [answer, evalLine_eq, hline]
  rfl

theorem answer_error {line : Text} {e : SyntaxError} (hline : Command.ofLine line = .error e) :
    s.answer line = .error (.parse e) := by
  rw [answer, evalLine_eq, hline]

theorem governed_of_unrecorded {line : Text} {answer : Except ShellError Outcome}
    (hnone : recorded? line answer = none) (env : Environment) :
    Governed line env env answer where
  vars := rfl
  failure _ _ := rfl
  recorded status hstatus := by
    rw [hnone] at hstatus
    cases hstatus
  unrecorded _ := ⟨rfl, fun hne => absurd rfl hne⟩

theorem governed_of_error {line : Text} (env : Environment) (e : ShellError) :
    Governed line env env (.error e) := by
  refine governed_of_unrecorded ?_ env
  unfold recorded?
  split
  · next h => cases h
  · rfl

theorem recorded?_eq_none {line : Text} {c : Command} (hline : Command.ofLine line = .ok c)
    (hc : c.isExternal = false) (answer : Except ShellError Outcome) :
    recorded? line answer = none := by
  unfold recorded?
  split
  · next c' status heq =>
      rw [hline] at heq
      cases heq
      simp [hc]
  · rfl

theorem governed_of_builtin {line name : Text} {args : List Text} {c : Command} {b : Builtin}
    (hline : Command.ofLine line = .ok c) (hwords : c.argv = name :: args)
    (hname : Builtin.ofName? name = some b) :
    Governed line s.env (b.run args s.env s.host).env (.ok (b.run args s.env s.host).outcome) := by
  have hbuiltin : c.isExternal = false := by
    simp [Command.isExternal, Command.name?, hwords, hname]
  rcases b.env_run args s.env s.host with hsame | ⟨rfl, target, moved, hmoved, hrun⟩
  · rw [hsame]
    exact governed_of_unrecorded (recorded?_eq_none hline hbuiltin _) s.env
  · obtain ⟨p, mode, -, -, -, rfl⟩ := Environment.changeDir_eq_ok_iff.mp hmoved
    have hcd : c.name? = some Builtin.cd.name := by
      rw [Command.name?, hwords, List.head?_cons, Builtin.eq_name_of_ofName? hname]
    rw [hrun]
    exact
      { vars := rfl
        failure := fun _ herror => nomatch herror
        recorded := fun status hstatus => by
          rw [recorded?_eq_none hline hbuiltin] at hstatus
          cases hstatus
        unrecorded := fun _ => ⟨rfl, fun _ => ⟨c, hline, hcd, rfl⟩⟩ }

theorem governed_of_program {line name : Text} {args : List Text} {c : Command} {status : Nat}
    (hline : Command.ofLine line = .ok c) (hwords : c.argv = name :: args)
    (hname : Builtin.ofName? name = none) (hstatus : status < 256) :
    Governed line s.env (s.env.setStatus status) (.ok (.code (status : Int))) := by
  have hsome : recorded? line (.ok (.code (status : Int))) = some (status : Int) := by
    simp [recorded?, hline, Command.isExternal, Command.name?, hwords, hname]
  refine ⟨rfl, fun _ herror => (nomatch herror), ?_, ?_⟩
  · intro code hcode
    rw [hsome] at hcode
    cases hcode
    exact ⟨rfl, by omega, by omega, rfl⟩
  · intro hnone
    rw [hsome] at hnone
    cases hnone

theorem Effect.governed {line : Text} {c : Command} (hline : Command.ofLine line = .ok c)
    {result : Except ExecError Outcome} {env : Environment} (he : Effect s c.argv result env) :
    Governed line s.env env (result.mapError .exec) := by
  generalize hwords : c.argv = words at he
  cases he with
  | failure _ e => exact governed_of_error s.env (.exec e)
  | nothing =>
      have hnone : c.isExternal = false := by simp [Command.isExternal, Command.name?, hwords]
      exact governed_of_unrecorded (recorded?_eq_none hline hnone _) s.env
  | builtin hname => exact governed_of_builtin hline hwords hname
  | program hname hstatus => exact governed_of_program hline hwords hname hstatus

theorem flush_pointed {h opened : Host} {stream : Stream} {mode : WriteMode} {path : Text}
    {file : Descriptor} {saved : Nat} (ha : h.Accepts .stdout)
    (hopen : h.openTarget mode path = (.ok file, opened))
    (hsaved : opened.files.number? stream.descriptor = some saved) :
    (opened.pointed stream.descriptor file).flush.1 = .ok () := by
  obtain ⟨sink, hsink, hne⟩ := ha
  cases stream with
  | stdout =>
      obtain ⟨-, _, -, hfiles⟩ := extends_openTarget hopen
      have hopened : opened.Accepts .stdout := ⟨sink, hfiles.sink?_of_some hsink, hne⟩
      have hpending : (opened.pointed Stream.stdout.descriptor file).pending = [] :=
        pending_flush (flush_of_room hopened.not_onFull)
      rw [flush_of_pending_eq_nil hpending]
  | stderr =>
      have hroom : ¬ (opened.pointed Stream.stderr.descriptor file).OnFull := by
        unfold OnFull
        rw [sink?_pointed hopen hsaved hsink, if_neg (by decide), Option.some.injEq]
        exact hne
      exact flush_of_room hroom

theorem governed_line (hout : s.host.Accepts .stdout) (line : Text) :
    Governed line s.env ((Move.line line).apply s).env (s.answer line) := by
  cases hline : Command.ofLine line with
  | error e =>
      rw [Move.apply, evalLine_error hline, answer_error hline]
      exact governed_of_error s.env _
  | ok c =>
      rw [Move.apply, evalLine_ok hline, answer_ok hline]
      rcases Command.plain_or_redirected hline with hc | ⟨stream, r, hc⟩
      · rw [hc, execute_plain]
        exact (effect_runWords (flush_of_room hout.not_onFull) c.argv).governed hline
      · rw [hc]
        rcases execute_redirected_cases c.argv stream r s with
          ⟨e, he⟩ | ⟨file, opened, e, -, he⟩ | ⟨file, opened, saved, hopen, hsaved, he⟩
        · rw [he]
          exact governed_of_error s.env _
        · rw [he]
          exact governed_of_error s.env _
        · rw [he]
          exact (effect_runWords (s := s.withHost (opened.pointed stream.descriptor file))
            (flush_pointed hout hopen hsaved) c.argv).governed hline

/-! ## Runs -/

def Move.recorded? (s : Shell) : Move → Option Int
  | line text => Shell.recorded? text (s.answer text)
  | read _ _ => none
  | report _ => none

def recordings (s : Shell) : List Move → List Int
  | [] => []
  | move :: moves => (move.recorded? s).toList ++ recordings (move.apply s) moves

theorem status_apply (hout : s.host.Accepts .stdout) (move : Move) :
    (move.apply s).env.status = (move.recorded? s).getD s.env.status := by
  cases move with
  | line text =>
      have hline := governed_line hout text
      cases hrecorded : Shell.recorded? text (s.answer text) with
      | none =>
          rw [(hline.unrecorded hrecorded).1]
          simp [Move.recorded?, hrecorded]
      | some status =>
          rw [(hline.recorded status hrecorded).1]
          simp [Move.recorded?, hrecorded]
  | read prompt source => rfl
  | report e => rfl

theorem status_play (hout : s.host.Accepts .stdout) (moves : List Move) :
    (s.play moves).env.status = (s.recordings moves).getLast?.getD s.env.status := by
  induction moves generalizing s with
  | nil => rfl
  | cons move moves ih =>
      have hnext : (move.apply s).host.Accepts .stdout := (restored_apply move s).accepts hout
      rw [play, ih hnext, status_apply hout, recordings, List.getLast?_append]
      cases (recordings (move.apply s) moves).getLast? with
      | some status => rfl
      | none => cases move.recorded? s <;> rfl

/-- In every run of a session whose standard output accepts what is written, each line changes the
environment only as its answer says, and the status is the last one that a line recorded. -/
theorem governed_and_last_recorded (hout : s.host.Accepts .stdout) (moves : List Move) :
    (∀ line, Governed line (s.play moves).env ((Move.line line).apply (s.play moves)).env
      ((s.play moves).answer line)) ∧
      (s.play moves).env.status = (s.recordings moves).getLast?.getD s.env.status := by
  constructor
  · exact governed_line ((restored_play moves s).accepts hout)
  · exact status_play hout moves

theorem governed_and_last_recorded_reporter :
    let tree := FileTree.bare.make ["r".toList] (.file 0o755 Reporter.image)
    let s := ofParts (.ofVariables "/".toList []) (.start tree Place.root)
    let moves : List Move :=
      [.line "/r exit:7".toList, .line "pwd > /dev".toList, .line "cd dev".toList]
    s.host.Accepts .stdout ∧
      (∀ line, Governed line (s.play moves).env ((Move.line line).apply (s.play moves)).env
        ((s.play moves).answer line)) ∧
      (s.play moves).env.status = 7 := by
  intro tree s moves
  have hout : s.host.Accepts .stdout := ⟨.terminal .stdout, rfl, by simp⟩
  obtain ⟨hline, hstatus⟩ := governed_and_last_recorded hout moves
  refine ⟨hout, hline, hstatus.trans ?_⟩
  decide +kernel

end Shell

end LineShell
