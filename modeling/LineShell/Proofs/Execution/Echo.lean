import LineShell.Proofs.Command
import LineShell.Proofs.Execution.Terminal
import LineShell.Proofs.Interpreter.Play

/-!
# Echo lines

A line whose first word is `echo` shows the other words, one space between them, unless an operator
is among them.  The first operator redirects the words before it to the file that the next word
names, and the words after that are left out; an operator with nothing after it is an error that
leaves all as it was.  How a word was quoted plays no part.
-/

namespace LineShell

open Command

namespace Shell

variable {s : Shell} {words : List Text} {line : Text}

inductive Echoes (s : Shell) : List Text → Except ShellError Outcome × Shell → Prop
  | shown {words : List Text} (hwords : ∀ word ∈ words, word ∉ operators.map (·.1)) :
      Echoes s words
        (.ok (.code 0), s.withHost (s.host.delivered ([' '].intercalate words ++ ['\n'])))
  | redirected {before : List Text} {operator : Text} {stream : Stream} {mode : WriteMode}
      (hbefore : ∀ word ∈ before, word ∉ operators.map (·.1))
      (hoperator : (operator, stream, mode) ∈ operators) (target : Text) (rest : List Text)
      {result : Except ExecError Outcome} {s' : Shell}
      (hexecute :
        execute .silent (.redirected (Builtin.echo.name :: before) stream ⟨target, mode⟩) s
          = (result, s')) :
      Echoes s (before ++ operator :: target :: rest) (result.mapError .exec, s')
  | missing {before : List Text} {operator : Text} {stream : Stream} {mode : WriteMode}
      (hbefore : ∀ word ∈ before, word ∉ operators.map (·.1))
      (hoperator : (operator, stream, mode) ∈ operators) :
      Echoes s (before ++ [operator]) (.error (.parse (.missingTarget operator)), s)

theorem echo_cons_operator {before : List Text}
    (hbefore : ∀ word ∈ before, word ∉ operators.map (·.1)) :
    ∀ word ∈ Builtin.echo.name :: before, redirectionOperator? word = none := by
  intro word hword
  rcases List.mem_cons.mp hword with rfl | hword
  · decide
  · exact redirectionOperator?_eq_none_iff.mpr (hbefore word hword)

theorem evalLine_of_words {c : Command} (hline : Words.ofLine line = words)
    (hwords : ofWords words = .ok c) (s : Shell) :
    Session.evalLine .silent (execute .silent) line s =
      ((execute .silent c s).1.mapError .exec, (execute .silent c s).2) := by
  rw [evalLine_eq, ofLine, hline, hwords]
  rfl

theorem Echoes.evalLine {r : Except ShellError Outcome × Shell} (h : Echoes s words r)
    (hroom : ¬ s.host.OnFull) (hline : Words.ofLine line = Builtin.echo.name :: words) :
    Session.evalLine .silent (execute .silent) line s = r := by
  cases h with
  | shown hwords =>
      have hrun : runWords .silent (Builtin.echo.name :: words) s = runBuiltin .echo words s := by
        simp only [runWords, Builtin.ofName?_name, noting_silent]
      rw [evalLine_of_words hline (ofWords_plain (echo_cons_operator hwords)), execute_plain, hrun,
        runBuiltin_of_room hroom]
      simp [Builtin.run, Except.mapError, withHost]
  | redirected hbefore hoperator target rest hexecute =>
      have hwords := ofWords_redirected (echo_cons_operator hbefore)
        (redirectionOperator?_eq_some_iff.mpr hoperator) target rest
      rw [evalLine_of_words hline hwords, hexecute]
  | missing hbefore hoperator =>
      have hwords := ofWords_missing (echo_cons_operator hbefore)
        (redirectionOperator?_eq_some_iff.mpr hoperator)
      rw [List.cons_append, ← hline] at hwords
      rw [evalLine_eq, ofLine, hwords]
      rfl

theorem exists_echoes (s : Shell) (words : List Text) : ∃ r, Echoes s words r := by
  rcases operator_cases words with
    hwords | ⟨before, operator, after, stream, mode, rfl, hbefore, hoperator⟩
  · exact ⟨_, .shown fun word hword => redirectionOperator?_eq_none_iff.mp (hwords word hword)⟩
  · have hbefore' : ∀ word ∈ before, word ∉ operators.map (·.1) :=
      fun word hword => redirectionOperator?_eq_none_iff.mp (hbefore word hword)
    have hoperator' := redirectionOperator?_eq_some_iff.mp hoperator
    cases after with
    | nil => exact ⟨_, .missing hbefore' hoperator'⟩
    | cons target rest => exact ⟨_, .redirected hbefore' hoperator' target rest rfl⟩

/-- A line of the word `echo` and further words, however they are quoted, comes to what the rules
say while standard output has room.  On the terminal words without an operator show, and nothing
else changes. -/
theorem echo_faithful (hroom : ¬ s.host.OnFull)
    (hline : Words.ofLine line = Builtin.echo.name :: words) :
    (∀ r, Session.evalLine .silent (execute .silent) line s = r ↔ Echoes s words r) ∧
      (s.host.OnTerminal .stdout → (∀ word ∈ words, word ∉ operators.map (·.1)) →
        Session.evalLine .silent (execute .silent) line s =
          (.ok (.code 0), s.withHost { s.host with
            out := s.host.out ++ s.host.pending ++
              Utf8.encode ([' '].intercalate words ++ ['\n'])
            pending := [] })) := by
  constructor
  · intro r
    constructor
    · rintro rfl
      obtain ⟨r, hr⟩ := exists_echoes s words
      rw [hr.evalLine hroom hline]
      exact hr
    · exact fun hr => hr.evalLine hroom hline
  · intro hout hwords
    rw [(Echoes.shown hwords).evalLine hroom hline, Host.delivered_terminal hout]
    rfl

theorem echo_faithful_quoted :
    let tree := FileTree.bare.put Place.root (.directory 0o755)
    let s := ofParts (.ofVariables "/".toList []) (.start tree Place.root)
    let line := "echo 'a\nb' 2>x \"1>>\" f g".toList
    let c := Command.redirected ["echo".toList, "a\nb".toList, "2>x".toList] .stdout
      ⟨"f".toList, .append⟩
    (¬ s.host.OnFull ∧ Words.ofLine line = Builtin.echo.name ::
        ["a\nb".toList, "2>x".toList, "1>>".toList, "f".toList, "g".toList]) ∧
      Session.evalLine .silent (execute .silent) line s =
        ((execute .silent c s).1.mapError .exec, (execute .silent c s).2) ∧
      (execute .silent c s).2.host.tree.get? ["f".toList] =
        some (.file 0o644 (Utf8.encode "a\nb 2>x\n".toList)) := by
  intro tree s line c
  have hout : s.host.OnTerminal .stdout := rfl
  have hline : Words.ofLine line = Builtin.echo.name ::
      ["a\nb".toList, "2>x".toList, "1>>".toList, "f".toList, "g".toList] := by
    decide +kernel
  refine ⟨⟨hout.not_onFull, hline⟩, ?_, by decide +kernel⟩
  obtain ⟨hiff, -⟩ := echo_faithful hout.not_onFull hline
  have hbefore : ∀ word ∈ ["a\nb".toList, "2>x".toList], word ∉ operators.map (·.1) := by
    decide +kernel
  have hoperator : ("1>>".toList, Stream.stdout, WriteMode.append) ∈ operators := by decide +kernel
  exact (hiff _).mpr (.redirected hbefore hoperator "f".toList ["g".toList] Prod.mk.eta.symm)

end Shell

end LineShell
