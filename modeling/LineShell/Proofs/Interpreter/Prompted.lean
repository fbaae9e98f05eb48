import LineShell.Proofs.Execution.Draining
import LineShell.Proofs.Interpreter.Lines
import LineShell.Proofs.Interpreter.Received
import LineShell.Proofs.Text.Decoding

/-!
# Typed sessions and scripted sessions

A session that reads standard input does what it does with a script of the lines, and shows a
prompt in front of what each turn shows.  When a line is read, every stream stands for what it
stood for at first and nothing waits, so that the prompt goes to the terminal and nowhere else.
-/

namespace LineShell

open Host

namespace Shell

/-- A shell that is ready for a line: no note got lost, standard output is on the terminal, and
nothing waits in front of it. -/
structure Ready (s : Shell) : Prop where
  own : s.own = .intact
  out : s.host.OnTerminal .stdout
  pending : s.host.pending = []

theorem pending_evalLine {log : Log} {line : Text} {s t : Shell} {outcome : Outcome}
    (hpending : s.host.pending = [])
    (heval : Session.evalLine log (execute log) line s = (.ok outcome, t)) :
    t.host.pending = [] := by
  have hscanned := (pending_note s.host log (.scanned (Words.ofLine line))).trans hpending
  rw [evalLine_eq] at heval
  cases hline : Command.ofLine line with
  | error cause =>
      simp only [hline] at heval
      cases heval
  | ok c =>
      simp only [hline] at heval
      rcases hdone : execute log c (s.withHost (s.host.note log
        (.scanned (Words.ofLine line))).2) with ⟨result, u⟩
      rw [hdone] at heval
      cases result with
      | error e => cases heval
      | ok done =>
          cases heval
          exact drains_execute c _ outcome _ hscanned hdone

end Shell

theorem Interpreter.pending_report {h : Host} (ht : h.OnTerminal .stdout) (e : ShellError) :
    (report e h).2.pending = [] := by
  unfold report
  rw [pending_writeStream, flush_terminal ht]

namespace Interpreter

variable {i j : Interpreter LogState}

theorem ready_settle {result : Except ShellError Outcome} (hown : i.session.own = .intact)
    (hout : i.session.host.OnTerminal .stdout)
    (hpending : ∀ outcome, result = .ok outcome → i.session.host.pending = [])
    (hgoes : (i.settle result).1 = none) : Shell.Ready (i.settle result).2.session := by
  have houtput := outputOnly_settle i result
  refine ⟨houtput.own.trans hown, houtput.restored.sink?_of_some hout, ?_⟩
  cases result with
  | error e =>
      rw [Shell.session_settle_error]
      exact pending_report hout e
  | ok outcome =>
      cases outcome with
      | leave => cases hgoes
      | code status => exact (pending_note _ i.log _).trans (hpending _ rfl)

theorem ready_evalLine {log : Log} {line : Text} {s t : Shell}
    {result : Except ShellError Outcome} (hs : s.Ready)
    (heval : Session.evalLine log (Shell.execute log) line s = (result, t))
    (hstays : result ≠ .ok .leave) :
    t.own = .intact ∧ t.host.OnTerminal .stdout ∧
      ∀ outcome, result = .ok outcome → t.host.pending = [] := by
  have hown := (own_evalLine heval hstays).trans hs.own
  refine ⟨hown, (restored_evalLine heval hown).sink?_of_some hs.out, ?_⟩
  rintro outcome rfl
  exact Shell.pending_evalLine hs.pending heval

end Interpreter

/-! ## Reading -/

namespace Source

theorem printPrompt_terminal {h : Host} (ht : h.OnTerminal .stdout) (hpending : h.pending = [])
    (prompt : Text) :
    printPrompt h prompt = (.ok (), h.receive .stdout (Utf8.encode prompt)) := by
  obtain ⟨out, pending, hprinted, hflushed⟩ := printAll_flush_terminal ht [prompt]
  unfold printAll at hprinted
  unfold printPrompt
  rcases hprint : h.print prompt with ⟨e | u, k⟩
  · rw [hprint] at hprinted
    cases hprinted
  · rw [hprint] at hprinted
    cases hprinted
    dsimp only
    rw [hflushed, hpending, List.flatten_singleton, List.append_nil]
    cases h
    cases hpending
    rfl

theorem readLine_input_terminal {h : Host} (ht : h.OnTerminal .stdout) (hpending : h.pending = [])
    (prompt : Text) (data : Bytes) :
    ∃ rest, (input data).readLine prompt h =
        (.ok (inputLines data).head?, input rest, h.receive .stdout (Utf8.encode prompt)) ∧
      inputLines rest = (inputLines data).tail := by
  obtain ⟨rest, k, hread, hrest⟩ := readLine_input ht.not_onFull prompt data
  have hhost : ((input data).readLine prompt h).2.2 = (printPrompt h prompt).2 := by
    unfold readLine
    rw [printPrompt_terminal ht hpending]
    dsimp only
    split <;> rfl
  rw [hread, printPrompt_terminal ht hpending] at hhost
  dsimp only at hhost
  subst hhost
  exact ⟨rest, hread, hrest⟩

theorem readLine_script (prompt : Text) (lines : List Text) (h : Host) :
    (script lines).readLine prompt h = (.ok lines.head?, script lines.tail, h) := by
  cases lines <;> rfl

end Source

namespace Interpreter

variable {i j : Interpreter LogState}

structure Alongside (typed scripted : Interpreter LogState) : Prop where
  config : typed.config = scripted.config
  log : typed.log = scripted.log
  source : ∃ data, typed.source = .input data ∧ scripted.source = .script (Source.inputLines data)
  session : typed.session = Shell.withHost scripted.session
    (scripted.session.host.withReceived .stdout typed.session.host.out)

namespace Alongside

theorem env (hi : Alongside i j) : i.session.env = j.session.env := by
  rw [hi.session]
  rfl

theorem own (hi : Alongside i j) : i.session.own = j.session.own := by
  rw [hi.session]
  rfl

theorem host (hi : Alongside i j) :
    i.session.host = j.session.host.withReceived .stdout i.session.host.out :=
  congrArg Session.host hi.session

theorem readLine (hi : Alongside i j) (hj : Shell.Ready j.session) {data : Bytes}
    (hinput : i.source = .input data) :
    ∃ rest, i.source.readLine i.config.prompt i.session.host =
        (.ok (Source.inputLines data).head?, .input rest,
          i.session.host.receive .stdout (Utf8.encode j.config.prompt)) ∧
      Source.inputLines rest = (Source.inputLines data).tail := by
  have hout : i.session.host.OnTerminal .stdout := by
    rw [hi.host, OnTerminal, files_withReceived]
    exact hj.out
  have hpending : i.session.host.pending = [] := by
    rw [hi.host, pending_withReceived]
    exact hj.pending
  rw [hinput, ← hi.config]
  exact Source.readLine_input_terminal hout hpending i.config.prompt data

end Alongside

theorem session_of_ahead {s t : Shell} {before before' : Bytes}
    (hrel : Shell.Related (Ahead .stdout before before') s t) :
    t = s.withHost (s.host.withReceived .stdout t.host.out) ∧
      ∃ added, s.host.out = before ++ added ∧ t.host.out = before' ++ added := by
  obtain ⟨env, h, own⟩ := s
  obtain ⟨env', h', own'⟩ := t
  obtain ⟨rfl, rfl, added, hout, hhost⟩ := hrel
  dsimp only at hhost
  subst hhost
  exact ⟨rfl, added, hout, rfl⟩

theorem answer_source (i : Interpreter LogState) (source : Source)
    (line : Except IOError (Option Text)) :
    answer { i with source := source } line =
      ((answer i line).1, { (answer i line).2 with source := source }) := by
  rcases line with e | _ | line
  · rfl
  · unfold answer
    cases i.config.eof <;> rfl
  · unfold answer
    dsimp only
    rcases Session.evalLine i.log (Shell.execute i.log) line i.session with ⟨_ | outcome, t⟩
    · unfold settle
      dsimp only
      rcases report _ t.host with ⟨cause | u, h⟩ <;> rfl
    · cases outcome <;> rfl

theorem config_answer (i : Interpreter LogState) (line : Except IOError (Option Text)) :
    (answer i line).2.config = i.config := by
  rcases line with e | _ | line
  · rfl
  · unfold answer
    cases i.config.eof <;> rfl
  · exact (config_settle _ _).1

theorem ready_answer {line : Except IOError (Option Text)} (hi : Shell.Ready i.session)
    (hgoes : (answer i line).1 = none) : Shell.Ready (answer i line).2.session := by
  rcases line with e | _ | line
  · cases hgoes
  · unfold answer at hgoes ⊢
    cases heof : i.config.eof with
    | exit =>
        rw [heof] at hgoes
        cases hgoes
    | proceed => exact hi
  · unfold answer at hgoes ⊢
    dsimp only at hgoes ⊢
    rcases heval : Session.evalLine i.log (Shell.execute i.log) line i.session with ⟨result, t⟩
    rw [heval] at hgoes
    have hstays : result ≠ .ok .leave := by
      rintro rfl
      cases hgoes
    obtain ⟨hown, hout, hpending⟩ := ready_evalLine hi heval hstays
    exact ready_settle (i := { i with session := t }) hown hout hpending hgoes

theorem turn_script {lines : List Text} (hsource : i.source = .script lines) :
    i.turn (Shell.execute i.log) =
      ((answer i (.ok lines.head?)).1,
        { (answer i (.ok lines.head?)).2 with source := .script lines.tail }) := by
  rw [turn_eq, hsource, Source.readLine_script]
  exact answer_source i (.script lines.tail) _

/-- A turn that reads standard input does what a turn of the script does, and standard output
receives the prompt first. -/
theorem turn_alongside (hi : Alongside i j) (hj : Shell.Ready j.session) :
    (i.turn (Shell.execute i.log)).1 = (j.turn (Shell.execute j.log)).1 ∧
      Alongside (i.turn (Shell.execute i.log)).2 (j.turn (Shell.execute j.log)).2 ∧
      ∃ added,
        (j.turn (Shell.execute j.log)).2.session.host.out = j.session.host.out ++ added ∧
        (i.turn (Shell.execute i.log)).2.session.host.out =
          i.session.host.out ++ Utf8.encode j.config.prompt ++ added := by
  obtain ⟨data, hinput, hscript⟩ := hi.source
  obtain ⟨rest, hread, hrest⟩ := hi.readLine hj hinput
  let prompted := i.session.host.receive .stdout (Utf8.encode j.config.prompt)
  have htyped : i.turn (Shell.execute i.log) =
      ((answer { i.withHost prompted with source := j.source }
          (.ok (Source.inputLines data).head?)).1,
        { (answer { i.withHost prompted with source := j.source }
            (.ok (Source.inputLines data).head?)).2 with source := .input rest }) := by
    rw [turn_eq, hread]
    exact answer_source { i.withHost prompted with source := j.source } (.input rest) _
  have hprompted : Ahead .stdout j.session.host.out
      (i.session.host.out ++ Utf8.encode j.config.prompt) j.session.host prompted := by
    refine ⟨[], by simp [received], ?_⟩
    dsimp only [prompted]
    obtain ⟨out, hout⟩ : ∃ out, i.session.host = j.session.host.withReceived .stdout out :=
      ⟨_, hi.host⟩
    rw [hout, List.append_nil]
    rfl
  have hrel : Related
      (Ahead .stdout j.session.host.out (i.session.host.out ++ Utf8.encode j.config.prompt)) j
      { i.withHost prompted with source := j.source } :=
    ⟨hi.config.symm, hi.log.symm, rfl, hi.env.symm, hi.own.symm, hprompted⟩
  obtain ⟨hresult, hanswer⟩ :=
    answer_agrees (hostStable_ahead _ _ _) hrel (.ok (Source.inputLines data).head?)
  obtain ⟨hafter, added, hadded, hadded'⟩ := session_of_ahead hanswer.session
  rw [htyped, turn_script hscript]
  refine ⟨hresult.symm, ⟨hanswer.config.symm, hanswer.log.symm, ?_, hafter⟩, added, hadded, hadded'⟩
  exact ⟨rest, rfl, by rw [hrest]⟩

/-! ## Runs -/

inductive Reads : List Text → List (Option Text) → List Text → Prop
  | stop (lines : List Text) : Reads lines [] lines
  | line {line : Text} {lines left : List Text} {labels : List (Option Text)}
      (h : Reads lines labels left) : Reads (line :: lines) (some line :: labels) left
  | atEnd {left : List Text} {labels : List (Option Text)} (h : Reads [] labels left) :
      Reads [] (none :: labels) left

theorem Reads.turn {lines left : List Text} {labels : List (Option Text)}
    (h : Reads lines.tail labels left) : Reads lines (lines.head? :: labels) left := by
  cases lines with
  | nil => exact .atEnd h
  | cons line lines => exact .line h

structure Share where
  line : Option Text
  added : Bytes

def share (i : Interpreter LogState) : Share where
  line := ((i.source.readLine i.config.prompt i.session.host).1.toOption).join
  added := (i.turn (Shell.execute i.log)).2.session.host.out.drop i.session.host.out.length

def shares : Nat → Interpreter LogState → List Share
  | 0, _ => []
  | turns + 1, i =>
      i.share ::
        match i.turn (Shell.execute i.log) with
        | (some _, _) => []
        | (none, i) => shares turns i

/-- A run that reads standard input, beside a run of a script of the lines: the results and the
sessions are the same but for standard output, which receives a prompt in front of each share, and
no prompt does anything else. -/
structure Prompted (lines : List Text) (i j : Interpreter LogState) (shares : List Share)
    (typed scripted : Option (Except ShellError Unit) × Interpreter LogState) : Prop where
  result : typed.1 = scripted.1
  env : typed.2.session.env = scripted.2.session.env
  own : typed.2.session.own = scripted.2.session.own
  host : typed.2.session.host =
    scripted.2.session.host.withReceived .stdout typed.2.session.host.out
  scriptedOut : scripted.2.session.host.out = j.session.host.out ++ shares.flatMap (·.added)
  typedOut : typed.2.session.host.out =
    i.session.host.out ++ shares.flatMap fun share => Utf8.encode j.config.prompt ++ share.added
  read : ∃ rest, typed.2.source = .input rest ∧
    scripted.2.source = .script (Source.inputLines rest) ∧
    Reads lines (shares.map (·.line)) (Source.inputLines rest)
  prompt : typed.1 = none →
    (typed.2.source.readLine typed.2.config.prompt typed.2.session.host).2.2 =
      typed.2.session.host.receive .stdout (Utf8.encode j.config.prompt)

theorem share_script {lines : List Text} (hlines : j.source = .script lines) {added : Bytes}
    (hadded : (j.turn (Shell.execute j.log)).2.session.host.out = j.session.host.out ++ added) :
    j.share = ⟨lines.head?, added⟩ := by
  unfold share
  rw [hlines, Source.readLine_script, hadded, List.drop_left]
  cases lines <;> rfl

namespace Prompted

variable {lines : List Text} {added : Bytes} {i' j' : Interpreter LogState}

theorem start (hi : Alongside i j) (hj : Shell.Ready j.session)
    (hlines : j.source = .script lines) :
    Prompted lines i j [] (none, i) (none, j) := by
  obtain ⟨data, hinput, hscript⟩ := hi.source
  obtain rfl : lines = Source.inputLines data := Source.script.inj (hlines.symm.trans hscript)
  obtain ⟨rest, hread, -⟩ := hi.readLine hj hinput
  exact
    { result := rfl
      env := hi.env
      own := hi.own
      host := hi.host
      scriptedOut := by simp
      typedOut := by simp
      read := ⟨data, hinput, hscript, .stop _⟩
      prompt := fun _ => congrArg (·.2.2) hread }

theorem ended (hafter : Alongside i' j') (hleft : j'.source = .script lines.tail)
    (hadded : j'.session.host.out = j.session.host.out ++ added)
    (hadded' : i'.session.host.out = i.session.host.out ++ Utf8.encode j.config.prompt ++ added)
    (result : Except ShellError Unit) :
    Prompted lines i j [⟨lines.head?, added⟩] (some result, i') (some result, j') := by
  obtain ⟨rest, hinput, hscript⟩ := hafter.source
  have hrest : lines.tail = Source.inputLines rest :=
    Source.script.inj (hleft.symm.trans hscript)
  exact
    { result := rfl
      env := hafter.env
      own := hafter.own
      host := hafter.host
      scriptedOut := by simpa using hadded
      typedOut := by simpa using hadded'
      read := ⟨rest, hinput, hscript, .turn (hrest ▸ .stop _)⟩
      prompt := fun hgoes => by cases hgoes }

theorem turn {shares : List Share}
    {typed scripted : Option (Except ShellError Unit) × Interpreter LogState}
    (hrun : Prompted lines.tail i' j' shares typed scripted) (hconfig : j'.config = j.config)
    (hadded : j'.session.host.out = j.session.host.out ++ added)
    (hadded' : i'.session.host.out = i.session.host.out ++ Utf8.encode j.config.prompt ++ added) :
    Prompted lines i j (⟨lines.head?, added⟩ :: shares) typed scripted := by
  obtain ⟨rest, hinput, hscript, hreads⟩ := hrun.read
  exact
    { result := hrun.result
      env := hrun.env
      own := hrun.own
      host := hrun.host
      scriptedOut := by
        rw [hrun.scriptedOut, hadded, List.flatMap_cons, List.append_assoc]
      typedOut := by
        rw [hrun.typedOut, hadded', hconfig, List.flatMap_cons]
        simp only [List.append_assoc]
      read := ⟨rest, hinput, hscript, hreads.turn⟩
      prompt := by
        rw [← hconfig]
        exact hrun.prompt }

end Prompted

theorem prompted_runFor (turns : Nat) (hi : Alongside i j) (hj : Shell.Ready j.session)
    {lines : List Text} (hlines : j.source = .script lines) :
    Prompted lines i j (shares turns j) (runFor (Shell.execute i.log) turns i)
      (runFor (Shell.execute j.log) turns j) := by
  induction turns generalizing i j lines with
  | zero => exact .start hi hj hlines
  | succ turns ih =>
      obtain ⟨hresult, hafter, added, hadded, hadded'⟩ := turn_alongside hi hj
      have hshare := share_script hlines hadded
      have hturn := turn_script hlines
      have hlog := Shell.log_turn (Shell.execute i.log) i
      have hlog' := Shell.log_turn (Shell.execute j.log) j
      unfold runFor shares
      rw [hshare]
      generalize j.turn (Shell.execute j.log) = scripted at *
      generalize i.turn (Shell.execute i.log) = typed at *
      obtain ⟨result, i'⟩ := typed
      obtain ⟨result', j'⟩ := scripted
      obtain rfl : result = result' := hresult
      obtain ⟨hgoes, rfl⟩ := Prod.mk.inj hturn
      cases result with
      | some result => exact .ended hafter rfl hadded hadded' result
      | none =>
          have hrun := ih hafter (ready_answer hj hgoes.symm) rfl
          dsimp only at hlog hlog'
          rw [hlog, hlog'] at hrun
          exact hrun.turn (config_answer j _) hadded hadded'

/-- Standard input refines the script of its lines.  After any number of turns, and at the end of
the run, the session that reads the input has the result, the environment and the host of the
session that has the lines of the decoded input as a script, but for standard output: that
receives the prompt in front of what it receives for each line, and once for each end of the
input. -/
theorem input_refines_script (config : Config) (log : Log) {s : Shell} (hs : s.Ready)
    (data : Bytes) :
    let lines := Text.lines (Utf8.decodeLossy data)
    let typed : Interpreter LogState := ⟨config, log, .input data, s⟩
    let scripted : Interpreter LogState := ⟨config, log, .script lines, s⟩
    (∀ turns, Prompted lines typed scripted (shares turns scripted)
      (runFor (Shell.execute log) turns typed) (runFor (Shell.execute log) turns scripted)) ∧
    Prompted lines typed scripted (shares (lines.length + 1) scripted)
      (run (Shell.execute log) typed) (run (Shell.execute log) scripted) := by
  intro lines typed scripted
  have hlines : Source.inputLines data = lines := Source.inputLines_eq_lines data
  have hside : Alongside typed scripted :=
    ⟨rfl, rfl, ⟨data, rfl, congrArg Source.script hlines.symm⟩, rfl⟩
  have hscripted : scripted.source = .script lines := rfl
  have hruns := fun turns => prompted_runFor turns hside hs hscripted
  refine ⟨hruns, ?_⟩
  have hremaining : typed.source.remaining = lines.length := by
    rw [← hlines]
    exact (List.length_map _).symm
  have hrun := hruns (lines.length + 1)
  unfold run
  rw [hremaining]
  exact hrun

theorem input_refines_script_invalid :
    let data := Utf8.encode "echo caf".toList ++ 0xE9 ::
      Utf8.encode "\r\necho b > f\necho >\necho c".toList
    let s := Shell.ofParts (.ofVariables "/".toList []) (.start FileTree.bare Place.root)
    let lines := Text.lines (Utf8.decodeLossy data)
    let typed : Interpreter LogState := ⟨.default, .silent, .input data, s⟩
    let scripted : Interpreter LogState := ⟨.default, .silent, .script lines, s⟩
    s.Ready ∧
      lines = ["echo caf\uFFFD".toList, "echo b > f".toList, "echo >".toList, "echo c".toList] ∧
      (run (Shell.execute .silent) typed).2.session.host.out =
        Utf8.encode "$ caf\uFFFD\n$ $ $ c\n$ ".toList ∧
      Prompted lines typed scripted (shares (lines.length + 1) scripted)
        (run (Shell.execute .silent) typed) (run (Shell.execute .silent) scripted) := by
  intro data s lines typed scripted
  have hs : s.Ready := ⟨rfl, rfl, rfl⟩
  refine ⟨hs, by decide +kernel, by decide +kernel, ?_⟩
  exact (input_refines_script .default .silent hs data).2

end Interpreter

end LineShell
