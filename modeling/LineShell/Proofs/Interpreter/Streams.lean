import LineShell.Proofs.Execution.Notes
import LineShell.Proofs.Host.Confinement
import LineShell.Proofs.Interpreter.Play

/-!
# The streams of a session

As long as no note gets lost, every descriptor stands for what it stood for at first, whatever
commands were executed and however they ended.  So a command without redirections writes to the
streams that the session began with.
-/

namespace LineShell

open Host

namespace Shell

/-- What a session can come to: commands are executed, lines are read after a prompt, events are
noted and errors are reported, in any order. -/
inductive Reaches (log : Log) (s : Shell) : Shell → Prop
  | start : Reaches log s s
  | command {t : Shell} (ht : Reaches log s t) (c : Command) : Reaches log s (execute log c t).2
  | read {t : Shell} (ht : Reaches log s t) (prompt : Text) (source : Source) :
      Reaches log s (t.withHost (source.readLine prompt t.host).2.2)
  | note {t : Shell} (ht : Reaches log s t) (e : Log.Event) :
      Reaches log s (t.withHost (t.host.note log e).2)
  | report {t : Shell} (ht : Reaches log s t) (e : ShellError) :
      Reaches log s (t.withHost (Interpreter.report e t.host).2)

variable {log : Log} {s t : Shell}

/-! ## Runs -/

theorem Reaches.evalLine (ht : Reaches log s t) (line : Text) :
    Reaches log s (Session.evalLine log (execute log) line t).2 := by
  have hnoted := ht.note (.scanned (Words.ofLine line))
  rw [evalLine_eq]
  cases Command.ofLine line with
  | error e => exact hnoted
  | ok c => exact hnoted.command c

theorem Reaches.settle {i : Interpreter LogState} (ht : Reaches i.log s i.session)
    (result : Except ShellError Outcome) : Reaches i.log s (i.settle result).2.session := by
  cases result with
  | error e =>
      rw [session_settle_error]
      exact ht.report e
  | ok outcome =>
      cases outcome with
      | leave => exact ht
      | code status => exact ht.note (.lineDone status)

theorem Reaches.turn {i : Interpreter LogState} (ht : Reaches i.log s i.session) :
    Reaches i.log s (i.turn (execute i.log)).2.session := by
  have hread := ht.read i.config.prompt i.source
  unfold Interpreter.turn
  rcases heq : i.source.readLine i.config.prompt i.session.host with ⟨line, source, h⟩
  rw [heq] at hread
  rcases line with e | _ | line
  · exact hread
  · dsimp only [Interpreter.withHost]
    cases i.config.eof with
    | exit => exact hread.note .endOfInput
    | proceed => exact hread
  · have hevaluated := hread.evalLine line
    exact Reaches.settle (i := { i with
      source := source
      session := (Session.evalLine i.log (execute i.log) line (withHost i.session h)).2 })
      hevaluated _

theorem Reaches.runFor (turns : Nat) {i : Interpreter LogState} (hlog : i.log = log)
    (ht : Reaches log s i.session) :
    Reaches log s (Interpreter.runFor (execute log) turns i).2.session := by
  induction turns generalizing i with
  | zero => exact ht
  | succ turns ih =>
      subst hlog
      have hturn := ht.turn
      have hlog := log_turn (execute i.log) i
      unfold Interpreter.runFor
      rcases heq : i.turn (execute i.log) with ⟨_ | result, i'⟩
      · rw [heq] at hturn hlog
        exact ih hlog hturn
      · rw [heq] at hturn
        exact hturn

/-! ## Restored streams -/

theorem Noted.of_execute {c : Command} (hnoted : Noted log (execute log c s).2) : Noted log s := by
  rcases ends_execute log c s with ⟨hown, -⟩ | ⟨-, hlost, -⟩
  · unfold Noted at hnoted
    rw [hown] at hnoted
    exact hnoted
  · rcases hnoted with hsilent | hintact
    · exact .inl hsilent
    · rw [hlost] at hintact
      cases hintact

theorem Reaches.restored (ht : Reaches log s t) (hnoted : Noted log t) :
    Restored s.host t.host := by
  induction ht with
  | start => exact .of_stays (.refl s.host.files)
  | command ht c ih => exact (ih (.of_execute hnoted)).trans (restores_execute c _ hnoted)
  | read ht prompt source ih => exact (ih hnoted).trans (restored_readLine prompt source _)
  | note ht e ih => exact (ih hnoted).trans (restored_note log _ e)
  | report ht e ih =>
      exact (ih hnoted).trans
        (.of_stays ((kept_stays _).report (.refl _) e))

theorem confined_plain (argv : List Text) (t : Shell) :
    Confined (fun n => ∃ stream : Stream, t.host.files.number? stream.descriptor = some n)
      t.host (execute log (.plain argv) t).2.host :=
  runWords_keeps (kept_confined fun stream _ hn => ⟨stream, hn⟩) (.refl _ t.host) argv

/-- Whatever a session whose streams were open has come to without a lost note, every descriptor
stands for what it stood for at first; so it does after one more command, whatever its words and
redirections and however it ends; and a command without redirections changes nothing but what the
descriptions of the first streams lead to. -/
theorem streams_restored (hopen : ∀ stream : Stream, s.host.files.number? stream.descriptor ≠ none)
    (ht : Reaches log s t) (hnoted : Noted log t) :
    (∀ fd, t.host.files.number? fd = s.host.files.number? fd) ∧
    (∀ c, Noted log (execute log c t).2 → ∀ fd,
      (execute log c t).2.host.files.number? fd = t.host.files.number? fd) ∧
    (∀ argv, Confined
      (fun n => ∃ stream : Stream, s.host.files.number? stream.descriptor = some n)
      t.host (execute log (.plain argv) t).2.host) ∧
    ∀ config source turns,
      Reaches log s
        (Interpreter.runFor (execute log) turns ⟨config, log, source, s⟩).2.session := by
  have hnumber := (ht.restored hnoted).number hopen
  refine ⟨hnumber, ?_, ?_, ?_⟩
  · intro c hafter
    refine (restores_execute c t hafter).number fun stream => ?_
    rw [hnumber]
    exact hopen stream
  · intro argv
    have hplain : Confined _ t.host (execute log (.plain argv) t).2.host := confined_plain argv t
    simp only [hnumber] at hplain
    exact hplain
  · intro config source turns
    exact Reaches.runFor turns rfl .start

theorem streams_restored_refused :
    let tree := FileTree.bare.make ["w".toList] (.directory 0o755)
    let s := ofParts (.ofVariables "/".toList []) (.start tree Place.root)
    let log : Log := ⟨.everywhere Log.Level.debug.rank, false⟩
    let c : Command := ⟨["echo".toList, "a".toList], some ⟨"/w/f".toList, .truncate⟩,
      some ⟨"/w/missing/f".toList, .append⟩⟩
    (∀ stream : Stream, s.host.files.number? stream.descriptor ≠ none) ∧
      (execute log c s).1 = .error (.redirect "/w/missing/f".toList (.os .noEntry)) ∧
      (execute log c s).2.host.files.descriptions.length = 3 ∧
      Reaches log s (execute log c s).2 ∧ Noted log (execute log c s).2 ∧
      (∀ fd, (execute log c s).2.host.files.number? fd = s.host.files.number? fd) ∧
      ∀ argv, Confined
        (fun n => ∃ stream : Stream, s.host.files.number? stream.descriptor = some n)
        (execute log c s).2.host (execute log (.plain argv) (execute log c s).2).2.host := by
  intro tree s log c
  have hreaches : Reaches log s (execute log c s).2 := .command .start c
  have hnoted : Noted log (execute log c s).2 := .inr (by decide +kernel)
  have hopen : ∀ stream : Stream, s.host.files.number? stream.descriptor ≠ none := by
    intro stream
    cases stream <;> exact Option.some_ne_none _
  obtain ⟨hnumbers, -, hplain, -⟩ := streams_restored hopen hreaches hnoted
  exact ⟨hopen, by decide +kernel, by decide +kernel, hreaches, hnoted, hnumbers, hplain⟩

end Shell

end LineShell
