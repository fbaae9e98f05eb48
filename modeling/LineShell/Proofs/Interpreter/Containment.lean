import LineShell.Proofs.Command
import LineShell.Proofs.Execution.Waiting
import LineShell.Proofs.Host.Delivery
import LineShell.Proofs.Interpreter.Play

/-!
# Where redirected output goes

While a line runs whose standard output is redirected, nothing that it prints reaches the terminal.
What it prints can get there later only out of the buffer.  That happens just if the target is the
device without room and the shell's own text began to wait in front of it: then the text is still
there when the terminal is back.
-/

namespace LineShell

open Host

namespace Host

/-- Standard output is on its terminal and standard error is not on that one, nor would a guard keep
the terminal under the descriptor of standard error, if that is closed. -/
structure Attached (h : Host) : Prop where
  out : h.OnTerminal .stdout
  err : h.files.sink? Stream.stderr.descriptor ≠ some (.terminal .stdout)
  spare : h.files.secondFree ≠ Stream.stderr.descriptor

variable {h k : Host}

theorem attached_start (tree : FileTree) (workDir : Place) : (start tree workDir).Attached := by
  have herr : OpenFiles.standard.sink? Stream.stderr.descriptor ≠ some (.terminal .stdout) := by
    decide
  have hspare : OpenFiles.standard.secondFree ≠ Stream.stderr.descriptor := by decide
  exact ⟨rfl, herr, hspare⟩

theorem Attached.of_restored (ha : h.Attached) (hk : Restored h k) : k.Attached := by
  refine ⟨hk.sink?_of_some ha.out, fun hsink => ha.err (hk.terminal_of_sink? hsink), ?_⟩
  intro hspare
  have hfree := k.files.number?_secondFree
  rw [hspare] at hfree
  -- standard error is closed now, so it was closed before, and nothing else was opened
  obtain ⟨number, -, hout, -⟩ := OpenFiles.sink?_eq_some ha.out
  obtain ⟨more, -, hfiles⟩ := hk
  have hsame (fd : Descriptor) : h.files.number? fd = k.files.number? fd := by
    rcases hfiles.number fd with hsame | ⟨⟨stream, rfl⟩, hclosed, n, -, hnew⟩
    · exact hsame.symm
    · cases stream with
      | stdout =>
          rw [hout] at hclosed
          cases hclosed
      | stderr =>
          rw [hfree] at hnew
          cases hnew
  exact ha.spare ((OpenFiles.secondFree_congr hsame).trans hspare)

theorem Attached.emptied (ha : h.Attached) : Attached { h with pending := [] } :=
  ⟨ha.out, ha.err, ha.spare⟩

theorem out_report (ha : h.Attached) (e : ShellError) :
    (Interpreter.report e h).2.out = h.out ++ h.pending := by
  have hflushed : Attached { h with out := h.out ++ h.pending, pending := [] } :=
    ⟨ha.out, ha.err, ha.spare⟩
  unfold Interpreter.report
  rw [flush_terminal ha.out, out_writeStream hflushed.err]

theorem pointed_stdout (ht : h.OnTerminal .stdout) (file : Descriptor) :
    h.pointed Stream.stdout.descriptor file =
      { h with
        files := (h.files.guarded Stream.stdout.descriptor file).close file
        out := h.out ++ h.pending
        pending := [] } := by
  have hsettle : h.settle Stream.stdout.descriptor = h.flush.2 := if_pos rfl
  rw [pointed, acquired, hsettle, flush_terminal ht]
  rfl

end Host

namespace Shell

variable {s : Shell}

def emptied (s : Shell) : Shell := s.withHost { s.host with pending := [] }

/-- The terminal of standard output gets nothing that a line prints.  While the line runs only what
waited before is delivered there; and whatever becomes of the session, the terminal looks as if
what the line left waiting had been thrown away. -/
structure Contained (s : Shell) (line : Text) : Prop where
  now : ((Move.line line).apply s).host.out = s.host.out ++ s.host.pending
  later : ∀ moves,
    (((Move.line line).apply s).play moves).host.out =
      (((Move.line line).apply s).emptied.play moves).host.out

/-- A run of the interpreter after such a line shows what moves of the emptied session show. -/
theorem Contained.run {line : Text} (hc : Contained s line) (i : Interpreter LogState)
    (hlog : i.log = .silent) (hsession : i.session = (Move.line line).apply s) (turns : Nat) :
    ∃ moves, (Interpreter.runFor (execute .silent) turns i).2.session = play i.session moves ∧
      (Interpreter.runFor (execute .silent) turns i).2.session.host.out =
        ((emptied i.session).play moves).host.out := by
  obtain ⟨moves, hmoves⟩ := exists_play_runFor turns i hlog
  refine ⟨moves, hmoves, ?_⟩
  rw [hmoves, hsession]
  exact hc.later moves

theorem printed_congr {h k : Host} (htree : h.tree = k.tree) (hdir : h.workDir = k.workDir)
    (argv : List Text) : (s.withHost h).printed argv = (s.withHost k).printed argv := by
  have hsame : h.SameOutline k := ⟨hdir, htree ▸ .refl h.tree⟩
  cases argv with
  | nil => rfl
  | cons name args =>
      have hresolve := hsame.resolveIn_eq s.env name
      simp only [printed, withHost, hresolve, hsame.run_eq]

theorem released_runWords (hpending : s.host.pending = [])
    (haway : ∀ stream : Stream, s.host.files.sink? stream.descriptor ≠ some (.terminal .stdout))
    (argv : List Text) (saved : Descriptor) :
    ((runWords .silent argv s).2.host.release ⟨Stream.stdout.descriptor, saved⟩).out = s.host.out ∧
      (((runWords .silent argv s).2.host.release ⟨Stream.stdout.descriptor, saved⟩).pending = [] ↔
        ¬ (s.host.OnFull ∧ waitsFirst (s.printed argv) = true)) := by
  have hwaits := pending_runWords_iff hpending argv
  have hkept := kept_out haway s.host.out
  have hafter : s.host.files.Stays (runWords .silent argv s).2.host.files ∧
      (runWords .silent argv s).2.host.out = s.host.out :=
    runWords_keeps hkept ⟨.refl s.host.files, rfl⟩ argv
  constructor
  · exact (hkept.flush hafter).2
  · rw [← hwaits]
    change (runWords .silent argv s).2.host.flush.2.pending = [] ↔ _
    by_cases hfull : s.host.OnFull
    · rw [pending_flush_onFull (runWords_keeps kept_onFull hfull argv)]
    · have hnothing := hwaits.mpr fun h => hfull h.1
      rw [flush_of_pending_eq_nil hnothing]

theorem away_of_opening {h : Host} (ha : h.Attached) {mode : WriteMode} {path : Text} {sink : Sink}
    {tree : FileTree} (hopening : Opening h mode path sink tree) (stream : Stream) :
    ((h.withOpened mode sink tree).pointed Stream.stdout.descriptor h.files.firstFree).files.sink?
      stream.descriptor ≠ some (.terminal .stdout) := by
  have hextends := extends_withOpened h mode sink tree
  obtain ⟨saved, -, hsaved, -⟩ := OpenFiles.sink?_eq_some (hextends.sink?_of_some ha.out)
  have hfile := number?_withOpened h mode sink tree h.files.firstFree
  rw [if_pos rfl] at hfile
  have hne : stream.descriptor ≠ (h.withOpened mode sink tree).files.firstFree := by
    cases stream with
    | stdout => exact OpenFiles.ne_firstFree hsaved
    | stderr => exact fun heq => ha.spare ((OpenFiles.firstFree_add h.files _).symm.trans heq.symm)
  rw [pointed, close, OpenFiles.sink?_close, sink?_acquired hsaved hfile hne]
  split
  · exact (Option.some_ne_none _).symm
  · split
    · rw [sink?_withOpened]
      exact fun heq => hopening.sink_ne_terminal .stdout (Option.some.inj heq)
    · next hother =>
        have herr : stream = .stderr := by
          cases stream with
          | stdout => exact absurd rfl hother
          | stderr => rfl
        subst herr
        intro hterminal
        rcases hextends.sink?_cases hterminal with hbefore | hmem
        · exact ha.err hbefore
        · exact hopening.sink_ne_terminal .stdout (List.mem_singleton.mp hmem).symm

theorem apply_line_redirected (ha : s.host.Attached) {line : Text} {c : Command} {r : Redirection}
    {file : Descriptor} {opened : Host} {sink : Sink} (hline : Command.ofLine line = .ok c)
    (hr : c.stdout = some r)
    (hopen : s.host.openTarget r.mode (s.env.resolve r.target) = (.ok file, opened))
    (hsink : opened.files.sink? file = some sink) :
    ((Move.line line).apply s).host.out = s.host.out ++ s.host.pending ∧
      (((Move.line line).apply s).host.pending = [] ↔
        ¬ (sink = .device .full ∧ waitsFirst ((s.withHost opened).printed c.argv) = true)) := by
  obtain ⟨rfl, tree, hopening, rfl⟩ := openTarget_ok hopen hsink
  have hterminal : (s.host.withOpened r.mode sink tree).OnTerminal .stdout :=
    (extends_withOpened s.host r.mode sink tree).sink?_of_some ha.out
  obtain ⟨saved, -, hsaved, -⟩ := OpenFiles.sink?_eq_some hterminal
  have hexecute := execute_redirected hopen hsaved c.argv
  rw [← Command.eq_redirected hline hr] at hexecute
  rw [Move.apply, evalLine_ok hline, hexecute]
  have hpointed := pointed_stdout hterminal s.host.files.firstFree
  have hentered := sink?_pointed hopen hsaved ha.out
  have haway := away_of_opening ha hopening
  rw [if_pos rfl, hsink] at hentered
  generalize (s.host.withOpened r.mode sink tree).pointed Stream.stdout.descriptor
    s.host.files.firstFree = entered at hpointed hentered haway ⊢
  have hpending : entered.pending = [] := by rw [hpointed]
  have hout : entered.out = s.host.out ++ s.host.pending := by
    rw [hpointed]
    rfl
  have hfull : entered.OnFull ↔ sink = .device .full := by rw [OnFull, hentered, Option.some.injEq]
  have hprinted : (s.withHost entered).printed c.argv =
      (s.withHost (s.host.withOpened r.mode sink tree)).printed c.argv :=
    printed_congr (by rw [hpointed]) (by rw [hpointed]) c.argv
  rw [← hfull, ← hout, ← hprinted]
  exact released_runWords (s := s.withHost entered) hpending haway c.argv _

/-- In every run, what a line prints to an opened target is contained unless the target is the
device without room and the shell's own text waits in front of it. -/
theorem contained_iff {s : Shell} (hstart : s.host.Attached) (moves : List Move) {line : Text}
    {c : Command} {r : Redirection} {file : Descriptor} {opened : Host} {sink : Sink}
    (hline : Command.ofLine line = .ok c) (hr : c.stdout = some r)
    (hopen : (s.play moves).host.openTarget r.mode ((s.play moves).env.resolve r.target) =
      (.ok file, opened))
    (hsink : opened.files.sink? file = some sink) :
    Contained (s.play moves) line ↔
      ¬ (sink = .device .full ∧
        waitsFirst (((s.play moves).withHost opened).printed c.argv) = true) := by
  have hattached := hstart.of_restored (restored_play moves s)
  obtain ⟨hnow, hpending⟩ := apply_line_redirected hattached hline hr hopen hsink
  have hafter := hattached.of_restored (restored_apply (.line line) (s.play moves))
  rw [← hpending]
  generalize hline' : (Move.line line).apply (s.play moves) = after at hnow hpending hafter
  constructor
  · intro hcontained
    -- the report of any error delivers what waits, so it tells the two sessions apart
    have hlater := hcontained.later [.report (.parse (.missingTarget []))]
    rw [hline'] at hlater
    have hshown : after.host.out ++ after.host.pending = after.host.out ++ [] := by
      rw [← out_report hafter, ← out_report hafter.emptied]
      exact hlater
    exact List.append_cancel_left hshown
  · intro hnothing
    constructor
    · rw [hline']
      exact hnow
    · intro later
      have hemptied : after.emptied = after := by
        unfold emptied
        rw [← hnothing]
        rfl
      rw [hline', hemptied]

theorem contained_echo_null :
    let s := ofParts (.ofVariables "/".toList []) (.start .bare Place.root)
    Contained (s.play []) "echo hi > /dev/null".toList := by
  intro s
  have hstart : s.host.Attached := attached_start .bare Place.root
  have hline : Command.ofLine "echo hi > /dev/null".toList =
      .ok (.redirected ["echo".toList, "hi".toList] .stdout ⟨"/dev/null".toList, .truncate⟩) := rfl
  have hopen : (s.play []).host.openTarget .truncate "/dev/null".toList =
      (.ok 3, ((s.play []).host.openTarget .truncate "/dev/null".toList).2) := Prod.ext rfl rfl
  apply (contained_iff hstart [] hline rfl hopen rfl).mpr
  decide +kernel

/-- The device without room leaves the text to the terminal, where the report of the failure puts
it. -/
theorem not_contained_echo_full :
    let s := ofParts (.ofVariables "/".toList []) (.start .bare Place.root)
    let line := "echo hi > /dev/full".toList
    let i : Interpreter LogState := ⟨.default, .silent, .script [line], s⟩
    ¬ Contained s line ∧
      (Interpreter.run (execute .silent) i).2.session.host.out = Utf8.encode "hi\n".toList := by
  intro s line i
  constructor
  · intro hcontained
    have hlater := hcontained.later [.report (.parse (.missingTarget []))]
    exact absurd hlater (by decide +kernel)
  · decide +kernel

end Shell

end LineShell
