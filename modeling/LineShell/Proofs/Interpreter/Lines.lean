import LineShell.Proofs.Interpreter.Evaluations

/-!
# The lines of standard input

While both streams are on the terminal, neither the prompt nor a report can fail.  So each turn
evaluates the next line of the input, and goes on after it unless the line left the session; only
that and the end of the input end a run.
-/

namespace LineShell

open Host

namespace Source

theorem cutAfter_takeLine {data : Bytes} (hdata : data ≠ []) :
    (takeLine data).1 ≠ [] ∧
      cutAfter (· == newline) data =
        (takeLine data).1 :: cutAfter (· == newline) (takeLine data).2 := by
  induction data with
  | nil => exact absurd rfl hdata
  | cons b rest ih =>
      rw [takeLine, cutAfter]
      by_cases hbreak : (b == newline) = true
      · simp only [hbreak, if_true]
        exact ⟨List.cons_ne_nil b [], trivial⟩
      · simp only [hbreak, Bool.false_eq_true, if_false]
        refine ⟨List.cons_ne_nil b _, ?_⟩
        cases rest with
        | nil => rfl
        | cons c later => rw [(ih (List.cons_ne_nil c later)).2]

theorem readLine_of_printPrompt {h k : Host} {prompt : Text}
    (hshown : printPrompt h prompt = (.ok (), k)) (data : Bytes) :
    ∃ rest, (input data).readLine prompt h = (.ok (inputLines data).head?, input rest, k) ∧
      inputLines rest = (inputLines data).tail := by
  cases data with
  | nil =>
      refine ⟨[], ?_, rfl⟩
      simp only [readLine, hshown]
      rfl
  | cons b data =>
      obtain ⟨hpiece, hcut⟩ := cutAfter_takeLine (List.cons_ne_nil b data)
      refine ⟨(takeLine (b :: data)).2, ?_, ?_⟩
      · unfold inputLines
        rw [hcut]
        simp only [readLine, hshown]
        rcases htaken : takeLine (b :: data) with ⟨_ | ⟨c, piece⟩, rest⟩
        · rw [htaken] at hpiece
          exact absurd rfl hpiece
        · rfl
      · unfold inputLines
        rw [hcut]
        rfl

theorem readLine_input {h : Host} (hroom : ¬ h.OnFull) (prompt : Text) (data : Bytes) :
    ∃ rest k, (input data).readLine prompt h = (.ok (inputLines data).head?, input rest, k) ∧
      inputLines rest = (inputLines data).tail := by
  obtain ⟨printed, hprinted⟩ : ∃ k, h.print prompt = (.ok (), k) :=
    ⟨_, Prod.ext (print_of_room hroom prompt) rfl⟩
  have hroom' := kept_not_onFull.print hroom prompt
  rw [hprinted] at hroom'
  obtain ⟨flushed, hflushed⟩ : ∃ k, printed.flush = (.ok (), k) :=
    ⟨_, Prod.ext (flush_of_room hroom') rfl⟩
  have hshown : printPrompt h prompt = (.ok (), flushed) := by
    simp only [printPrompt, hprinted, hflushed]
  obtain ⟨rest, hread, hrest⟩ := readLine_of_printPrompt hshown data
  exact ⟨rest, flushed, hread, hrest⟩

end Source

/-- The evaluations of lines one after another, up to the first that has a property. -/
inductive Covers (P : Evaluation → Prop) : List Text → List Evaluation → Prop
  | done : Covers P [] []
  | last {e : Evaluation} (he : P e) (rest : List Text) : Covers P (e.line :: rest) [e]
  | next {e : Evaluation} {rest : List Text} {evaluations : List Evaluation} (he : ¬ P e)
      (hrest : Covers P rest evaluations) : Covers P (e.line :: rest) (e :: evaluations)

theorem Covers.congr {P Q : Evaluation → Prop} {lines : List Text} {evaluations : List Evaluation}
    (hcovers : Covers P lines evaluations) (hPQ : ∀ e ∈ evaluations, P e ↔ Q e) :
    Covers Q lines evaluations := by
  induction hcovers with
  | done => exact .done
  | @last e he rest => exact .last ((hPQ e List.mem_cons_self).mp he) rest
  | @next e rest evaluations he hrest ih =>
      refine .next (fun hQ => he ((hPQ e List.mem_cons_self).mpr hQ)) (ih fun x hx => ?_)
      exact hPQ x (List.mem_cons_of_mem e hx)

namespace Evaluation

variable {e : Evaluation} {log : Log}

def leaves (e : Evaluation) : Bool :=
  match e.result with
  | .ok .leave => true
  | _ => false

theorem leaves_iff : e.leaves = true ↔ e.result = .ok .leave := by
  unfold leaves
  split
  · next hleft => simp [hleft]
  · next hstays =>
      rw [Bool.false_eq_true, false_iff]
      exact hstays

def Exits (e : Evaluation) : Prop :=
  e.result = .ok .leave ∧ ∃ c, Command.ofLine e.line = .ok c ∧ c.name? = some Builtin.exit.name

def Deafens (log : Log) (e : Evaluation) : Prop :=
  (∃ event, log.enables event = true) ∧
    ∃ c r, Command.ofLine e.line = .ok c ∧ c.stderr = some r ∧
      e.before.host.target? (e.before.env.resolve r.target) = some (.device .full)

structure Sound (log : Log) (e : Evaluation) : Prop where
  own : e.before.own = .intact
  err : e.before.host.OnTerminal .stderr
  evaluated : Session.evalLine log (Shell.execute log) e.line e.before = (e.result, e.after)

/-- A line leaves the session because it says so, or because a note got lost. -/
theorem Sound.cases (hs : e.Sound log) :
    (e.after.own = .intact ∧ (e.result = .ok .leave → e.Exits)) ∨
      (e.result = .ok .leave ∧ e.after.own = .lost ∧ e.Deafens log) := by
  have heval := hs.evaluated
  rw [Shell.evalLine_eq] at heval
  have hscanned := stays_note e.before.host log (.scanned (Words.ofLine e.line))
  have houtline := sameOutline_note e.before.host log (.scanned (Words.ofLine e.line))
  cases hline : Command.ofLine e.line with
  | error cause =>
      simp only [hline] at heval
      obtain ⟨hresult, hafter⟩ := Prod.ext_iff.mp heval
      dsimp only at hresult hafter
      left
      refine ⟨?_, fun hleft => ?_⟩
      · rw [← hafter]
        exact hs.own
      · rw [hleft] at hresult
        cases hresult
  | ok c =>
      simp only [hline] at heval
      obtain ⟨hresult, hafter⟩ := Prod.ext_iff.mp heval
      dsimp only at hresult hafter
      have hsilent := (hscanned.sink? _).trans hs.err
      generalize (e.before.host.note log (.scanned (Words.ofLine e.line))).2 = h
        at hsilent houtline hresult hafter
      have hleft : (Shell.execute log c (e.before.withHost h)).1 = .ok .leave ↔
          e.result = .ok .leave := by
        rw [← hresult]
        cases (Shell.execute log c (e.before.withHost h)).1 <;> simp [Except.mapError]
      have hends := @Shell.ends_execute_line (e.before.withHost h) log _ _ hline hsilent
      rw [Shell.Ends, hafter, hleft] at hends
      rcases hends with ⟨hown, hexits⟩ | ⟨hresult', hlost, hasked, r, hr, htarget⟩
      · exact .inl ⟨hown.trans hs.own, fun hresult' => ⟨hresult', c, hline, hexits hresult'⟩⟩
      · refine .inr ⟨hresult', hlost, hasked, c, r, hline, hr, ?_⟩
        exact (houtline.target?_eq _).trans htarget

theorem Sound.leaves_iff (hs : e.Sound log) (hown : e.after.own = .intact) :
    e.leaves = true ↔ e.Exits := by
  rw [Evaluation.leaves_iff]
  constructor
  · intro hleft
    rcases hs.cases with ⟨-, hexits⟩ | ⟨-, hlost, -⟩
    · exact hexits hleft
    · rw [hown] at hlost
      cases hlost
  · exact fun hexits => hexits.1

end Evaluation

namespace Interpreter

variable {i : Interpreter LogState} {line : Text} {lines : List Text}

structure Reading (i : Interpreter LogState) (lines : List Text) : Prop where
  own : i.session.own = .intact
  out : i.session.host.OnTerminal .stdout
  err : i.session.host.OnTerminal .stderr
  source : ∃ data, i.source = .input data ∧ Source.inputLines data = lines

theorem report_terminal {h : Host} (ht : h.OnTerminal .stderr) (e : ShellError) :
    (report e h).1 = .ok () := by
  have hflushed := (kept_stays h.files).flush (.refl h.files)
  have ht' : h.flush.2.OnTerminal .stderr := (hflushed.sink? _).trans ht
  unfold report
  rw [writeStream_terminal ht']

theorem settle_goes (ht : i.session.host.OnTerminal .stderr) {result : Except ShellError Outcome}
    (hstays : result ≠ .ok .leave) : (i.settle result).1 = none := by
  cases result with
  | error e =>
      have hreport := report_terminal ht e
      unfold settle
      dsimp only
      split
      · next cause h heq =>
          rw [heq] at hreport
          cases hreport
      · rfl
  | ok outcome =>
      cases outcome with
      | leave => exact absurd rfl hstays
      | code status => rfl

theorem config_settle (i : Interpreter LogState) (result : Except ShellError Outcome) :
    (i.settle result).2.config = i.config ∧ (i.settle result).2.source = i.source := by
  cases result with
  | error e =>
      unfold settle
      dsimp only
      split <;> exact ⟨rfl, rfl⟩
  | ok outcome => cases outcome <;> exact ⟨rfl, rfl⟩

theorem Reading.of_restored {j : Interpreter LogState} {data : Bytes} (hi : i.Reading lines)
    (hown : j.session.own = .intact) (hrestored : Restored i.session.host j.session.host)
    (hsource : j.source = .input data) : j.Reading (Source.inputLines data) :=
  ⟨hown, hrestored.sink?_of_some hi.out, hrestored.sink?_of_some hi.err, data, hsource, rfl⟩

theorem Reading.settle (hi : i.Reading lines) {result : Except ShellError Outcome}
    (hstays : result ≠ .ok .leave) :
    (i.settle result).1 = none ∧ (i.settle result).2.config = i.config ∧
      (i.settle result).2.Reading lines := by
  obtain ⟨data, hsource, rfl⟩ := hi.source
  obtain ⟨hconfig, hsource'⟩ := config_settle i result
  have houtput := outputOnly_settle i result
  refine ⟨settle_goes hi.err hstays, hconfig, ?_⟩
  exact hi.of_restored (houtput.own.trans hi.own) houtput.restored (hsource'.trans hsource)

theorem Reading.turn_end (hi : i.Reading []) :
    i.evaluation? = none ∧
      (i.turn (Shell.execute i.log)).1 =
        (if i.config.eof = .exit then some (.ok ()) else none) ∧
      (i.turn (Shell.execute i.log)).2.config = i.config ∧
      (i.turn (Shell.execute i.log)).2.Reading [] := by
  obtain ⟨data, hsource, hlines⟩ := hi.source
  obtain ⟨rest, h, hread, hrest⟩ :=
    Source.readLine_input hi.out.not_onFull i.config.prompt data
  rw [hlines] at hread hrest
  rw [← hsource] at hread
  have hnone : i.evaluation? = none := by
    unfold evaluation?
    rw [hread]
    rfl
  have hturn : i.turn (Shell.execute i.log) =
      (if i.config.eof = .exit then some (.ok ()) else none,
        { i.withHost (if i.config.eof = .exit then (h.note i.log .endOfInput).2 else h) with
          source := .input rest }) := by
    unfold turn
    rw [hread]
    dsimp only [List.head?_nil, withHost]
    cases i.config.eof <;> rfl
  have houtput : OutputOnly i.session (i.turn (Shell.execute i.log)).2.session := by
    rcases turn_cases i with ⟨-, houtput⟩ | ⟨e, source, hsome, -⟩
    · exact houtput
    · rw [hnone] at hsome
      cases hsome
  have hsource' : (i.turn (Shell.execute i.log)).2.source = .input rest := by rw [hturn]
  refine ⟨hnone, by rw [hturn], by rw [hturn]; rfl, ?_⟩
  have hreading := hi.of_restored (houtput.own.trans hi.own) houtput.restored hsource'
  rw [hrest] at hreading
  exact hreading

inductive Turned (i : Interpreter LogState) (e : Evaluation) (rest : List Text) : Prop
  | left (hleft : e.leaves = true)
      (hresult : (i.turn (Shell.execute i.log)).1 = some (.ok ()))
      (hafter : (i.turn (Shell.execute i.log)).2.session = e.after)
  | stayed (hstayed : e.leaves = false) (hown : e.after.own = .intact)
      (hresult : (i.turn (Shell.execute i.log)).1 = none)
      (hconfig : (i.turn (Shell.execute i.log)).2.config = i.config)
      (hrest : (i.turn (Shell.execute i.log)).2.Reading rest)

theorem Reading.turn_line (hi : i.Reading (line :: lines)) :
    ∃ e, i.evaluation? = some e ∧ e.line = line ∧ e.Sound i.log ∧ Turned i e lines := by
  obtain ⟨data, hsource, hlines⟩ := hi.source
  obtain ⟨rest, h, hread, hrest⟩ :=
    Source.readLine_input hi.out.not_onFull i.config.prompt data
  rw [hlines] at hread hrest
  rw [← hsource] at hread
  rcases turn_cases i with ⟨hnone, -⟩ | ⟨e, source, hsome, hbefore, hread', heval, hturn⟩
  · unfold evaluation? at hnone
    rw [hread] at hnone
    cases hnone
  · rw [hread] at hread'
    cases hread'
    have hown : e.before.own = .intact := hbefore.own.trans hi.own
    have hs : e.Sound i.log := ⟨hown, hbefore.restored.sink?_of_some hi.err, heval⟩
    refine ⟨e, hsome, rfl, hs, ?_⟩
    cases hleaves : e.leaves with
    | true =>
        have hresult := Evaluation.leaves_iff.mp hleaves
        rw [hresult] at hturn
        exact .left hleaves (by rw [hturn]; rfl) (by rw [hturn]; rfl)
    | false =>
        have hstays : e.result ≠ .ok .leave := by
          rw [ne_eq, ← Evaluation.leaves_iff, hleaves]
          decide
        have hafter : e.after.own = .intact := (own_evalLine heval hstays).trans hown
        have hrestored := hbefore.restored.trans (restored_evalLine heval hafter)
        have hnext : Reading ⟨i.config, i.log, .input rest, e.after⟩ lines := by
          rw [show lines = Source.inputLines rest from hrest.symm]
          exact hi.of_restored hafter hrestored rfl
        obtain ⟨hresult, hconfig, hreading⟩ := hnext.settle hstays
        rw [← hturn] at hresult hconfig hreading
        exact .stayed hleaves hafter hresult hconfig hreading

structure ReadThrough (i : Interpreter LogState) (lines : List Text) (turns : Nat) : Prop where
  covers : Covers (fun e => e.leaves = true) lines (i.evaluations turns)
  sound : ∀ e ∈ i.evaluations turns, e.Sound i.log
  result : (runFor (Shell.execute i.log) turns i).1 =
    if i.config.eof = .exit ∨ (i.evaluations turns).any Evaluation.leaves then some (.ok ())
    else none
  own : (runFor (Shell.execute i.log) turns i).2.session.own = .intact ↔
    ∀ e ∈ i.evaluations turns, e.after.own = .intact

theorem Reading.runFor_end (hi : i.Reading []) (turns : Nat) :
    i.evaluations turns = [] ∧
      (runFor (Shell.execute i.log) turns i).1 =
        (if 0 < turns ∧ i.config.eof = .exit then some (.ok ()) else none) ∧
      (runFor (Shell.execute i.log) turns i).2.session.own = .intact := by
  induction turns generalizing i with
  | zero => exact ⟨rfl, rfl, hi.own⟩
  | succ turns ih =>
      obtain ⟨hnone, hresult, hconfig, hnext⟩ := hi.turn_end
      have hlog := Shell.log_turn (Shell.execute i.log) i
      unfold evaluations runFor
      rw [hnone]
      rcases hturn : i.turn (Shell.execute i.log) with ⟨_ | result, j⟩
      · rw [hturn] at hresult hconfig hlog hnext
        dsimp only at hresult hconfig hlog hnext ⊢
        have heof : i.config.eof ≠ .exit := by
          intro heof
          rw [if_pos heof] at hresult
          cases hresult
        have hlater := ih hnext
        rw [hlog, hconfig] at hlater
        simpa [heof] using hlater
      · rw [hturn] at hresult hnext
        dsimp only at hresult hnext ⊢
        have heof : i.config.eof = .exit := by
          by_contra heof
          rw [if_neg heof] at hresult
          cases hresult
        rw [if_pos heof] at hresult
        simp [heof, hresult, hnext.own]

theorem ReadThrough.nil (hi : i.Reading []) {turns : Nat} (hturns : 0 < turns) :
    ReadThrough i [] turns := by
  obtain ⟨hnone, hresult, hown⟩ := hi.runFor_end turns
  constructor
  case covers =>
    rw [hnone]
    exact .done
  case sound => simp [hnone]
  case result => simpa [hnone, hturns] using hresult
  case own => simp [hnone, hown]

theorem ReadThrough.left {e : Evaluation} (hsome : i.evaluation? = some e) (hs : e.Sound i.log)
    (hleft : e.leaves = true) (hresult : (i.turn (Shell.execute i.log)).1 = some (.ok ()))
    (hafter : (i.turn (Shell.execute i.log)).2.session = e.after) (turns : Nat) :
    ReadThrough i (e.line :: lines) (turns + 1) := by
  rcases hturn : i.turn (Shell.execute i.log) with ⟨result, j⟩
  rw [hturn] at hresult hafter
  dsimp only at hresult hafter
  subst hresult
  have hevaluations : i.evaluations (turns + 1) = [e] := by simp [evaluations, hsome, hturn]
  constructor
  case covers =>
    rw [hevaluations]
    exact .last hleft lines
  case sound => simpa [hevaluations] using hs
  case result => simp [hevaluations, runFor, hturn, hleft]
  case own => simp [hevaluations, runFor, hturn, hafter]

theorem ReadThrough.stayed {e : Evaluation} {j : Interpreter LogState} {turns : Nat}
    (hsome : i.evaluation? = some e) (hs : e.Sound i.log) (hstayed : e.leaves = false)
    (hown : e.after.own = .intact) (hturn : i.turn (Shell.execute i.log) = (none, j))
    (hconfig : j.config = i.config) (hlater : ReadThrough j lines turns) :
    ReadThrough i (e.line :: lines) (turns + 1) := by
  have hlog : j.log = i.log := by
    rw [← Shell.log_turn (Shell.execute i.log) i, hturn]
  have hevaluations : i.evaluations (turns + 1) = e :: j.evaluations turns := by
    simp [evaluations, hsome, hturn]
  have hrun : runFor (Shell.execute i.log) (turns + 1) i =
      runFor (Shell.execute j.log) turns j := by
    simp [runFor, hturn, hlog]
  constructor
  case covers =>
    rw [hevaluations]
    exact .next (by simp [hstayed]) hlater.covers
  case sound =>
    rw [← hlog] at hs ⊢
    rw [hevaluations]
    exact List.forall_mem_cons.mpr ⟨hs, hlater.sound⟩
  case result =>
    rw [hevaluations, hrun, hlater.result, hconfig]
    simp [hstayed]
  case own =>
    rw [hevaluations, hrun, hlater.own]
    simp [hown]

/-- A run evaluates the lines up to the first that leaves the session.  It ends, and with success,
just if there is one or the settings say that the end of the input ends it. -/
theorem Reading.readThrough (hi : i.Reading lines) {turns : Nat} (hturns : lines.length < turns) :
    ReadThrough i lines turns := by
  -- a turn for each line, and one more for the end of the input
  induction lines generalizing i turns with
  | nil => exact .nil hi hturns
  | cons line lines ih =>
      obtain ⟨turns, rfl⟩ : ∃ n, turns = n + 1 := ⟨turns - 1, by omega⟩
      obtain ⟨e, hsome, rfl, hs, hturned⟩ := hi.turn_line
      cases hturned with
      | left hleft hresult hafter => exact .left hsome hs hleft hresult hafter turns
      | stayed hstayed hown hresult hconfig hrest =>
          have hlater := ih hrest (Nat.lt_of_succ_lt_succ hturns)
          exact .stayed hsome hs hstayed hown (Prod.ext hresult rfl) hconfig hlater

end Interpreter

end LineShell
