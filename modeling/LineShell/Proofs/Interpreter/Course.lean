import LineShell.Interpreter
import LineShell.Proofs.Host.Acceptance

/-!
# The course of a script

What an executor answers to the lines of a script, one after another, decides a run.  Lines without
words and lines with a syntax error never reach the executor, errors are reported one by one, and
the run ends with the first command that leaves the session, or at the end of the script if the
settings say so.
-/

namespace LineShell

open Host

abbrev Answering (σ : Type) :=
  Command → Environment → σ → Except ExecError Outcome × Environment × σ

def Command.ofLine? (line : Text) : Option Command :=
  match Words.ofLine line with
  | [] => none
  | words => (Command.ofWords words).toOption

inductive LineEvent where
  | blank
  | malformed (e : SyntaxError)
  | executed (c : Command) (result : Except ExecError Outcome)

namespace LineEvent

def command? : LineEvent → Option Command
  | executed c _ => some c
  | _ => none

def error? : LineEvent → Option ShellError
  | malformed e => some (.parse e)
  | executed _ (.error e) => some (.exec e)
  | _ => none

def leaves : LineEvent → Bool
  | executed _ (.ok .leave) => true
  | _ => false

/-- The answer to the line; one without words repeats the last status. -/
def answer (status : Int) : LineEvent → Except ShellError Outcome
  | blank => .ok (.code status)
  | malformed e => .error (.parse e)
  | executed _ result => result.mapError .exec

end LineEvent

structure Stage (σ : Type) where
  event : LineEvent
  env : Environment
  own : σ

namespace Stage

variable {σ : Type}

def ofLine (answer : Answering σ) (env : Environment) (own : σ) (line : Text) : Stage σ :=
  match Words.ofLine line with
  | [] => ⟨.blank, env, own⟩
  | words =>
      match Command.ofWords words with
      | .error e => ⟨.malformed e, env, own⟩
      | .ok c =>
          let (result, env, own) := answer c env own
          ⟨.executed c result, env, own⟩

def ofLines (answer : Answering σ) : Environment → σ → List Text → List (Stage σ)
  | _, _, [] => []
  | env, own, line :: rest =>
      let stage := ofLine answer env own line
      stage :: ofLines answer stage.env stage.own rest

def leaves (stage : Stage σ) : Bool := stage.event.leaves

def course (answer : Answering σ) (env : Environment) (own : σ) (lines : List Text) :
    List (Stage σ) :=
  let stages := ofLines answer env own lines
  stages.take (stages.findIdx leaves + 1)

theorem course_nil (answer : Answering σ) (env : Environment) (own : σ) :
    course answer env own [] = [] := rfl

theorem course_cons (answer : Answering σ) (env : Environment) (own : σ) (line : Text)
    (rest : List Text) :
    course answer env own (line :: rest) =
      let stage := ofLine answer env own line
      stage :: if stage.leaves then [] else course answer stage.env stage.own rest := by
  unfold course
  rw [ofLines]
  dsimp only
  rw [List.findIdx_cons, List.take_succ_cons]
  cases (ofLine answer env own line).leaves <;> rfl

theorem command?_ofLine (answer : Answering σ) (env : Environment) (own : σ) (line : Text) :
    (ofLine answer env own line).event.command? = Command.ofLine? line := by
  unfold ofLine Command.ofLine?
  cases Words.ofLine line with
  | nil => rfl
  | cons word words =>
      dsimp only
      cases Command.ofWords (word :: words) <;> rfl

theorem length_course (answer : Answering σ) (env : Environment) (own : σ) (lines : List Text)
    (hstay : (course answer env own lines).any leaves = false) :
    (course answer env own lines).length = lines.length := by
  induction lines generalizing env own with
  | nil => rfl
  | cons line rest ih =>
      rw [course_cons] at hstay ⊢
      dsimp only at hstay ⊢
      cases hleaves : (ofLine answer env own line).leaves with
      | true => simp [hleaves] at hstay
      | false =>
          simp only [hleaves, Bool.false_eq_true, if_false, List.any_cons, Bool.false_or] at hstay ⊢
          rw [List.length_cons, List.length_cons, ih _ _ hstay]

theorem length_course_le (answer : Answering σ) (env : Environment) (own : σ)
    (lines : List Text) : (course answer env own lines).length ≤ lines.length := by
  induction lines generalizing env own with
  | nil => exact Nat.le_refl 0
  | cons line rest ih =>
      rw [course_cons]
      dsimp only
      split
      · simp
      · simpa using ih _ _

theorem filterMap_command?_course (answer : Answering σ) (env : Environment) (own : σ)
    (lines : List Text) :
    (course answer env own lines).filterMap (·.event.command?) =
      (lines.take (course answer env own lines).length).filterMap Command.ofLine? := by
  induction lines generalizing env own with
  | nil => rfl
  | cons line rest ih =>
      rw [course_cons]
      dsimp only
      rw [List.length_cons, List.take_succ_cons, List.filterMap_cons, List.filterMap_cons,
        command?_ofLine]
      cases (ofLine answer env own line).leaves with
      | true => rfl
      | false =>
          simp only [Bool.false_eq_true, if_false]
          rw [ih]

theorem course_take_append (answer : Answering σ) (env : Environment) (own : σ)
    (lines later : List Text) (hleft : (course answer env own lines).any leaves = true) :
    course answer env own (lines.take (course answer env own lines).length ++ later) =
      course answer env own lines := by
  induction lines generalizing env own with
  | nil => cases hleft
  | cons line rest ih =>
      rw [course_cons] at hleft ⊢
      dsimp only at hleft ⊢
      rw [List.length_cons, List.take_succ_cons, List.cons_append, course_cons]
      dsimp only
      cases hleaves : (ofLine answer env own line).leaves with
      | true => rfl
      | false =>
          simp only [hleaves, Bool.false_eq_true, if_false, List.any_cons, Bool.false_or] at hleft ⊢
          rw [ih _ _ hleft]

end Stage

/-! ## Errors on the terminal -/

namespace Host

/-- Standard error is on its terminal, and standard output is not on that one. -/
structure Audible (h : Host) : Prop where
  err : h.OnTerminal .stderr
  out : h.files.sink? Stream.stdout.descriptor ≠ some (.terminal .stderr)

namespace Audible

variable {h : Host}

theorem of_stays {k : Host} (ha : h.Audible) (hk : h.files.Stays k.files) : k.Audible := by
  constructor
  · unfold OnTerminal
    rw [hk.sink?]
    exact ha.err
  · rw [hk.sink?]
    exact ha.out

theorem flush (ha : h.Audible) : h.flush.2.Audible ∧ h.flush.2.err = h.err := by
  constructor
  · exact ha.of_stays ((kept_stays h.files).flush (.refl h.files))
  · have hwrite : (h.writeStream .stdout h.pending).2.received .stderr = h.received .stderr := by
      rw [writeStream_snd, received_write ha.out]
    unfold Host.flush
    rcases hwritten : h.writeStream .stdout h.pending with ⟨_ | _, k⟩
    · rw [hwritten] at hwrite
      exact hwrite
    · rw [hwritten] at hwrite
      exact hwrite

theorem report (ha : h.Audible) (e : ShellError) :
    (Interpreter.report e h).1 = .ok () ∧ (Interpreter.report e h).2.Audible ∧
      (Interpreter.report e h).2.err = h.err ++ Utf8.encode (Interpreter.errorLine e) := by
  obtain ⟨hflushed, herr⟩ := ha.flush
  unfold Interpreter.report
  rw [writeStream_terminal hflushed.err]
  refine ⟨rfl, hflushed.of_stays ?_, ?_⟩
  · rw [files_receive]
    exact .refl _
  · rw [← herr]
    rfl

end Audible

end Host

/-! ## Turns -/

def Session.after {σ : Type} (s : Session σ) (stage : Stage σ) : Session σ :=
  match stage.event.error? with
  | none => ⟨stage.env, s.host, stage.own⟩
  | some e => ⟨stage.env, (Interpreter.report e s.host).2, stage.own⟩

namespace Session

variable {σ : Type}

@[simp] theorem env_after (s : Session σ) (stage : Stage σ) : (s.after stage).env = stage.env := by
  unfold after
  split <;> rfl

@[simp] theorem own_after (s : Session σ) (stage : Stage σ) : (s.after stage).own = stage.own := by
  unfold after
  split <;> rfl

theorem evalLine_ofAnswers (answer : Answering σ) (line : Text) (s : Session σ) :
    evalLine .silent (.ofAnswers answer) line s =
      let stage := Stage.ofLine answer s.env s.own line
      (stage.event.answer s.env.status, ⟨stage.env, s.host, stage.own⟩) := by
  unfold evalLine Stage.ofLine
  cases Words.ofLine line with
  | nil => rfl
  | cons word words =>
      dsimp only
      cases Command.ofWords (word :: words) <;> rfl

theorem audible_after {s : Session σ} (ha : s.host.Audible) (stage : Stage σ) :
    (s.after stage).host.Audible ∧
      (s.after stage).host.err =
        s.host.err ++ stage.event.error?.toList.flatMap fun e =>
          Utf8.encode (Interpreter.errorLine e) := by
  unfold after
  cases stage.event.error? with
  | none => simp [ha]
  | some e => simpa using (ha.report e).2

theorem audible_foldl_after {s : Session σ} (ha : s.host.Audible) (stages : List (Stage σ)) :
    (stages.foldl after s).host.err =
      s.host.err ++ (stages.filterMap (·.event.error?)).flatMap fun e =>
        Utf8.encode (Interpreter.errorLine e) := by
  induction stages generalizing s with
  | nil => simp
  | cons stage stages ih =>
      obtain ⟨hafter, herr⟩ := audible_after ha stage
      rw [List.foldl_cons, ih hafter, herr, List.append_assoc]
      cases hevent : stage.event.error? with
      | none => simp [hevent]
      | some e => simp [hevent]

theorem foldl_after_last (s : Session σ) (stages : List (Stage σ)) :
    (stages.foldl after s).env = (stages.getLast?.map (·.env)).getD s.env ∧
      (stages.foldl after s).own = (stages.getLast?.map (·.own)).getD s.own := by
  induction stages generalizing s with
  | nil => exact ⟨rfl, rfl⟩
  | cons stage stages ih =>
      rw [List.foldl_cons, (ih _).1, (ih _).2, env_after, own_after, List.getLast?_cons]
      cases stages.getLast? <;> exact ⟨rfl, rfl⟩

end Session

namespace Interpreter

variable {σ : Type}

def ofScript (config : Config) (lines : List Text) (s : Session σ) : Interpreter σ :=
  ⟨config, .silent, .script lines, s⟩

theorem turn_line (answer : Answering σ) (config : Config) (line : Text) (rest : List Text)
    {s : Session σ} (ha : s.host.Audible) :
    turn (.ofAnswers answer) (ofScript config (line :: rest) s) =
      let stage := Stage.ofLine answer s.env s.own line
      (if stage.leaves then some (.ok ()) else none, ofScript config rest (s.after stage)) := by
  unfold turn ofScript Source.readLine withHost
  dsimp only
  rw [Session.evalLine_ofAnswers]
  dsimp only
  generalize Stage.ofLine answer s.env s.own line = stage
  obtain ⟨event, env, own⟩ := stage
  have hreport : ∀ e, Interpreter.report e s.host = (.ok (), (Interpreter.report e s.host).2) :=
    fun e => Prod.ext (ha.report e).1 rfl
  rcases event with _ | e | ⟨c, e | _ | _⟩
  · rfl
  · simp only [LineEvent.answer, settle]
    rw [hreport (.parse e)]
    rfl
  · simp only [LineEvent.answer, Except.mapError, settle]
    rw [hreport (.exec e)]
    rfl
  · rfl
  · rfl

/-- A run follows the course of the script, and ends with it if a command left the session. -/
theorem runFor_course (answer : Answering σ) (config : Config) (lines : List Text)
    {s : Session σ} (ha : s.host.Audible) (turns : Nat) :
    let stages := Stage.course answer s.env s.own lines
    let final := ofScript config (lines.drop stages.length) (stages.foldl Session.after s)
    runFor (.ofAnswers answer) (stages.length + turns) (ofScript config lines s) =
      if stages.any Stage.leaves then (some (.ok ()), final)
      else runFor (.ofAnswers answer) turns final := by
  induction lines generalizing s with
  | nil =>
      simp [Stage.course_nil]
  | cons line rest ih =>
      have hturn := turn_line answer config line rest ha
      have hafter := (Session.audible_after ha (Stage.ofLine answer s.env s.own line)).1
      have hnext := ih hafter
      rw [Stage.course_cons]
      dsimp only at hturn hnext ⊢
      rw [List.length_cons, Nat.add_right_comm, runFor, hturn]
      cases hleaves : (Stage.ofLine answer s.env s.own line).leaves with
      | true => simp [hleaves]
      | false => simpa [hleaves] using hnext

theorem turn_end (exec : Executor σ) (config : Config) (s : Session σ) :
    turn exec (ofScript config [] s) =
      (if config.eof = .exit then some (.ok ()) else none, ofScript config [] s) := by
  obtain ⟨prompt, eof, log, presets⟩ := config
  cases eof <;> rfl

theorem runFor_end (exec : Executor σ) (config : Config) (s : Session σ) (turns : Nat) :
    runFor exec turns (ofScript config [] s) =
      (if 0 < turns ∧ config.eof = .exit then some (.ok ()) else none, ofScript config [] s) := by
  induction turns with
  | zero => rfl
  | succ turns ih =>
      rw [runFor, turn_end]
      by_cases heof : config.eof = .exit
      · simp [heof]
      · simp only [heof, and_false, if_false] at ih ⊢
        exact ih

theorem runFor_script (answer : Answering σ) (config : Config) (lines : List Text)
    {s : Session σ} (ha : s.host.Audible) {turns : Nat} (hturns : lines.length < turns) :
    let stages := Stage.course answer s.env s.own lines
    runFor (.ofAnswers answer) turns (ofScript config lines s) =
      (if stages.any Stage.leaves ∨ config.eof = .exit then some (.ok ()) else none,
        ofScript config (lines.drop stages.length) (stages.foldl Session.after s)) := by
  have hcourse := runFor_course answer config lines ha
    (turns - (Stage.course answer s.env s.own lines).length)
  have hlength := Stage.length_course_le answer s.env s.own lines
  dsimp only at hcourse ⊢
  rw [Nat.add_sub_of_le (by omega)] at hcourse
  rw [hcourse]
  cases hleft : (Stage.course answer s.env s.own lines).any Stage.leaves with
  | true => simp
  | false =>
      have hend := Stage.length_course answer s.env s.own lines hleft
      have hturns' : 0 < turns - lines.length := by omega
      rw [hend, List.drop_length, runFor_end]
      simp [hturns']

end Interpreter

/-! ## What the executor is given -/

def Executor.recording {σ : Type} (answer : Answering σ) : Answering (σ × List Command) :=
  fun c env (own, given) =>
    let (result, env, own) := answer c env own
    (result, env, own, given ++ [c])

namespace Stage

variable {σ : Type}

theorem ofLine_recording (answer : Answering σ) (env : Environment) (own : σ)
    (given : List Command) (line : Text) :
    ofLine (Executor.recording answer) env (own, given) line =
      let stage := ofLine answer env own line
      ⟨stage.event, stage.env, (stage.own, given ++ stage.event.command?.toList)⟩ := by
  unfold ofLine
  cases Words.ofLine line with
  | nil => simp [LineEvent.command?]
  | cons word words =>
      dsimp only
      cases Command.ofWords (word :: words) with
      | error e => simp [LineEvent.command?]
      | ok c => rfl

theorem map_event_course_recording (answer : Answering σ) (env : Environment) (own : σ)
    (given : List Command) (lines : List Text) :
    (course (Executor.recording answer) env (own, given) lines).map (·.event) =
      (course answer env own lines).map (·.event) := by
  induction lines generalizing env own given with
  | nil => rfl
  | cons line rest ih =>
      rw [course_cons, course_cons, ofLine_recording]
      by_cases hleaves : (ofLine answer env own line).event.leaves = true
      · simp [leaves, hleaves]
      · simp [leaves, hleaves, ih]

theorem after_recording (s : Session σ) (given : List Command) (stage : Stage σ) :
    Session.after ⟨s.env, s.host, (s.own, given)⟩
        ⟨stage.event, stage.env, (stage.own, given ++ stage.event.command?.toList)⟩ =
      ⟨(s.after stage).env, (s.after stage).host,
        ((s.after stage).own, given ++ stage.event.command?.toList)⟩ := by
  unfold Session.after
  dsimp only
  split <;> rfl

theorem filterMap_command?_cons (stage : Stage σ) (stages : List (Stage σ)) :
    (stage :: stages).filterMap (·.event.command?) =
      stage.event.command?.toList ++ stages.filterMap (·.event.command?) := by
  cases hevent : stage.event.command? <;> simp [hevent]

theorem foldl_after_recording (answer : Answering σ) (s : Session σ) (given : List Command)
    (lines : List Text) :
    (course (Executor.recording answer) s.env (s.own, given) lines).foldl Session.after
        ⟨s.env, s.host, (s.own, given)⟩ =
      let stages := course answer s.env s.own lines
      let last := stages.foldl Session.after s
      ⟨last.env, last.host, (last.own, given ++ stages.filterMap (·.event.command?))⟩ := by
  induction lines generalizing s given with
  | nil => simp [course_nil]
  | cons line rest ih =>
      rw [course_cons, course_cons, ofLine_recording]
      generalize ofLine answer s.env s.own line = stage
      dsimp only
      rw [List.foldl_cons, List.foldl_cons, after_recording, filterMap_command?_cons,
        ← List.append_assoc]
      by_cases hleaves : stage.event.leaves = true
      · simp [leaves, hleaves]
      · have hnext := ih (s.after stage) (given ++ stage.event.command?.toList)
        simp only [Session.env_after, Session.own_after] at hnext
        simp only [leaves, hleaves, Bool.false_eq_true, if_false, Session.env_after,
          Session.own_after]
        exact hnext

end Stage

namespace Interpreter

variable {σ : Type}

theorem runFor_mono (exec : Executor σ) {turns more : Nat} (hle : turns ≤ more)
    {i : Interpreter σ} {result : Except ShellError Unit}
    (hresult : (runFor exec turns i).1 = some result) :
    runFor exec more i = runFor exec turns i := by
  induction turns generalizing i more with
  | zero => cases hresult
  | succ turns ih =>
      obtain ⟨more, rfl⟩ : ∃ n, more = n + 1 := ⟨more - 1, by omega⟩
      unfold runFor at hresult ⊢
      rcases hturn : turn exec i with ⟨_ | found, i'⟩
      · rw [hturn] at hresult
        exact ih (by omega) hresult
      · rfl

theorem runFor_recording (answer : Answering σ) (config : Config) (lines : List Text)
    {s : Session σ} (ha : s.host.Audible) {turns : Nat} (hturns : lines.length < turns) :
    let stages := Stage.course answer s.env s.own lines
    let last := stages.foldl Session.after s
    runFor (.ofAnswers (Executor.recording answer)) turns
        (ofScript config lines ⟨s.env, s.host, (s.own, [])⟩) =
      (if stages.any Stage.leaves ∨ config.eof = .exit then some (.ok ()) else none,
        ofScript config (lines.drop stages.length)
          ⟨last.env, last.host, (last.own, stages.filterMap (·.event.command?))⟩) := by
  have hevents := Stage.map_event_course_recording answer s.env s.own [] lines
  have hlength := congrArg List.length hevents
  have hleft := congrArg (List.any · LineEvent.leaves) hevents
  simp only [List.length_map, List.any_map] at hlength hleft
  have hrun := runFor_script (Executor.recording answer) config lines
    (s := ⟨s.env, s.host, (s.own, [])⟩) ha hturns
  dsimp only at hrun ⊢
  rw [hrun, hlength, Stage.foldl_after_recording]
  congr 1
  have hsame : (Stage.course (Executor.recording answer) s.env (s.own, []) lines).any
      Stage.leaves = (Stage.course answer s.env s.own lines).any Stage.leaves := hleft
  rw [hsame]

theorem runFor_recording_eq_none (answer : Answering σ) (config : Config) (lines : List Text)
    {s : Session σ} (ha : s.host.Audible)
    (hgoes : ¬ ((Stage.course answer s.env s.own lines).any Stage.leaves ∨ config.eof = .exit))
    (turns : Nat) :
    (runFor (.ofAnswers (Executor.recording answer)) turns
      (ofScript config lines ⟨s.env, s.host, (s.own, [])⟩)).1 = none := by
  cases hresult : (runFor (.ofAnswers (Executor.recording answer)) turns
      (ofScript config lines ⟨s.env, s.host, (s.own, [])⟩)).1 with
  | none => rfl
  | some result =>
      have hlong := runFor_recording answer config lines ha
        (show lines.length < lines.length + 1 + turns by omega)
      have hsame := runFor_mono _ (Nat.le_add_left turns (lines.length + 1)) hresult
      rw [hlong] at hsame
      rw [← hsame] at hresult
      dsimp only at hresult
      rw [if_neg hgoes] at hresult
      cases hresult

/-- What a run has come to when the stages of a script are behind it, if the executor kept the
commands that it was given. -/
structure Followed (lines : List Text) (stages : List (Stage σ)) (s : Session σ)
    (final : Interpreter (σ × List Command)) : Prop where
  given : final.session.own.2 = (lines.take stages.length).filterMap Command.ofLine?
  own : final.session.own.1 = (stages.getLast?.map (·.own)).getD s.own
  env : final.session.env = (stages.getLast?.map (·.env)).getD s.env
  reported : final.session.host.err = s.host.err ++
    (stages.filterMap (·.event.error?)).flatMap fun e => Utf8.encode (errorLine e)
  unread : final.source = .script (lines.drop stages.length)

/-- A run over a script is the fold of the executor over the commands of its lines, up to the first
that leaves the session.  It ends, and with success, just if there is one or the settings say that
the end of the input ends it; and the lines after such a command have no part in it. -/
theorem run_script_eq_course (answer : Answering σ) (config : Config) (lines : List Text)
    {s : Session σ} (ha : s.host.Audible) :
    let stages := Stage.course answer s.env s.own lines
    let exec := Executor.ofAnswers (Executor.recording answer)
    let start (lines : List Text) := ofScript config lines ⟨s.env, s.host, (s.own, [])⟩
    Followed lines stages s (run exec (start lines)).2 ∧
      (run exec (start lines)).1 =
        (if stages.any Stage.leaves ∨ config.eof = .exit then some (.ok ()) else none) ∧
      (¬ (stages.any Stage.leaves ∨ config.eof = .exit) →
        ∀ turns, (runFor exec turns (start lines)).1 = none) ∧
      (stages.any Stage.leaves → ∀ later,
        run exec (start (lines.take stages.length ++ later)) =
          (some (.ok ()), { (run exec (start lines)).2 with source := .script later })) := by
  intro stages exec start
  have hrun : run exec (start lines) = _ :=
    runFor_recording answer config lines ha (Nat.lt_succ_self _)
  have hlast := Session.foldl_after_last s stages
  refine ⟨?_, ?_, ?_, ?_⟩
  · rw [hrun]
    exact
      { given := Stage.filterMap_command?_course answer s.env s.own lines
        own := hlast.2
        env := hlast.1
        reported := Session.audible_foldl_after ha stages
        unread := rfl }
  · rw [hrun]
  · exact runFor_recording_eq_none answer config lines ha
  · intro hleft later
    have htail := runFor_recording answer config (lines.take stages.length ++ later) ha
      (Nat.lt_succ_self _)
    dsimp only at htail
    rw [Stage.course_take_append answer s.env s.own lines later hleft] at htail
    have hlength : (lines.take stages.length).length = stages.length := by
      rw [List.length_take, Nat.min_eq_left (Stage.length_course_le answer s.env s.own lines)]
    refine htail.trans ?_
    rw [hrun, List.drop_left' hlength, if_pos (.inl hleft)]
    rfl

theorem run_script_eq_course_leaves :
    let answer : Answering Unit := fun c env own =>
      match c.name? with
      | some ['x'] => (.ok .leave, env.setStatus 3, own)
      | _ => (.error (.io (.os .inputOutput)), env, own)
    let config : Config := { Config.default with eof := .proceed }
    let lines := ["".toList, "a >".toList, "a b".toList, "x".toList, "c".toList]
    let s : Session Unit := ⟨.ofVariables "/".toList [], .start .bare Place.root, ()⟩
    let exec := Executor.ofAnswers (Executor.recording answer)
    let start (lines : List Text) := ofScript config lines ⟨s.env, s.host, (s.own, [])⟩
    s.host.Audible ∧
      Followed lines (Stage.course answer s.env s.own lines) s (run exec (start lines)).2 ∧
      (run exec (start lines)).1 = some (.ok ()) ∧
      (run exec (start lines)).2.session.own.2 =
        [.plain ["a".toList, "b".toList], .plain ["x".toList]] := by
  intro answer config lines s exec start
  have ha : s.host.Audible := ⟨rfl, by decide⟩
  obtain ⟨hfollowed, hresult, -, -⟩ := run_script_eq_course answer config lines ha
  exact ⟨ha, hfollowed, hresult.trans (by decide +kernel),
    hfollowed.given.trans (by decide +kernel)⟩

end Interpreter

end LineShell
