import LineShell.Proofs.Execution.Restoration
import LineShell.Proofs.Execution.Terminal
import LineShell.Proofs.Lookup

/-!
# Descriptions of names

What `type` says of a name is what happens when the name is executed: a builtin runs in the session,
the file that is shown is run from the working directory, or nothing is found.
-/

namespace LineShell

open Host

theorem Builtin.outcome_run_ne (b : Builtin) (args : List Text) (env : Environment) (h : Host) :
    (b.run args env h).outcome ≠ .code Shell.statusNotFound := by
  have hstatus : (Shell.statusNotFound : Int) = 127 := rfl
  cases b with
  | exit => simp [run]
  | echo => simp [run, hstatus]
  | pwd => simp [run, hstatus]
  | cd =>
      unfold run runCd
      cases args with
      | nil => simp [hstatus]
      | cons arg later =>
          dsimp only
          split
          · simp [hstatus]
          · split <;> simp [hstatus]
  | type =>
      unfold run runType
      cases args with
      | nil => simp [hstatus]
      | cons arg later =>
          dsimp only
          split
          · simp [hstatus]
          · split <;> simp [hstatus]

namespace Shell

def builtinWords : Text := " is a shell builtin\n".toList

def pathWords (path : Text) : Text := " is ".toList ++ path ++ ['\n']

def notFoundWords : Text := ": not found\n".toList

/-- Whether `type` of a name shows a text on the terminal, behind what waited. -/
def TypeShows (s : Shell) (name t : Text) : Prop :=
  (execute .silent (.plain [Builtin.type.name, name]) s).2.host.out =
    s.host.out ++ s.host.pending ++ Utf8.encode t

structure RunsBuiltin (s : Shell) (name : Text) (args : List Text) : Prop where
  ran : ∃ b : Builtin, b.name = name ∧
    execute .silent (.plain (name :: args)) s = runBuiltin b args s
  launches : (execute .silent (.plain (name :: args)) s).2.host.launches = s.host.launches

structure Attempts (s : Shell) (name : Text) (args : List Text) (program : Text) : Prop where
  file : ∃ p mode content, s.host.find program = .ok (p, .file mode content) ∧
    mode.executable = true
  attempted : execute .silent (.plain (name :: args)) s = s.attempted name program args
  launches : (execute .silent (.plain (name :: args)) s).2.host.launches =
    s.host.launches ++ [s.attempt program (name :: args)]

structure FindsNothing (s : Shell) (name : Text) (args : List Text) : Prop where
  result : execute .silent (.plain (name :: args)) s =
    (.ok (.code 127), ⟨s.env.setStatus 127,
      s.host.shown (name ++ ": command not found\n".toList), s.own⟩)
  launches : (execute .silent (.plain (name :: args)) s).2.host.launches = s.host.launches

variable {s : Shell} {name : Text} {args : List Text}

/-! ## What `type` shows -/

theorem typeShows_iff (hout : s.host.OnTerminal .stdout) (name t : Text) :
    TypeShows s name t ↔ t = (Builtin.runType [name] s.env s.host).pieces.flatten := by
  have hrun : execute .silent (.plain [Builtin.type.name, name]) s = runBuiltin .type [name] s := by
    rw [execute_plain]
    simp only [runWords, Builtin.ofName?_name, noting_silent]
  unfold TypeShows
  rw [hrun, runBuiltin_terminal hout]
  change s.host.out ++ s.host.pending ++ Utf8.encode _ = _ ↔ _
  rw [List.append_cancel_left_eq, Utf8.encode_inj]
  exact eq_comm

theorem described (name : Text) (env : Environment) (h : Host) :
    (Builtin.runType [name] env h).pieces.flatten = name ++
      match Builtin.ofName? name, Lookup.resolveIn h env name with
      | some _, _ => builtinWords
      | none, some path => pathWords path
      | none, none => notFoundWords := by
  unfold Builtin.runType
  dsimp only
  cases Builtin.ofName? name with
  | some b => exact flatten_pair name _
  | none =>
      cases Lookup.resolveIn h env name with
      | some path =>
          simp only [pathWords, List.flatten_cons, List.flatten_nil, List.append_nil,
            List.append_assoc]
      | none => exact flatten_pair name _

theorem pathWords_inj {path path' : Text} (h : pathWords path = pathWords path') : path = path' :=
  List.append_cancel_left (List.append_cancel_right h)

/-- A path that is shown has a slash in it, so it cannot be taken for the words of a builtin. -/
theorem builtinWords_ne {path : Text} (hslash : '/' ∈ path) : builtinWords ≠ pathWords path := by
  intro heq
  have hwords : builtinWords = pathWords "a shell builtin".toList := rfl
  have hpath := pathWords_inj (hwords.symm.trans heq)
  rw [← hpath] at hslash
  exact absurd hslash (by decide +kernel)

theorem notFoundWords_ne (path : Text) : notFoundWords ≠ pathWords path := by
  intro heq
  have hhead : some ':' = some ' ' := congrArg List.head? heq
  cases hhead

theorem notFoundWords_ne_builtinWords : notFoundWords ≠ builtinWords := by
  intro heq
  have hhead : some ':' = some ' ' := congrArg List.head? heq
  cases hhead

/-! ## What becomes of the name -/

theorem runsBuiltin_iff (hout : s.host.OnTerminal .stdout) :
    RunsBuiltin s name args ↔ ∃ b, Builtin.ofName? name = some b := by
  constructor
  · rintro ⟨⟨b, rfl, -⟩, -⟩
    exact ⟨b, Builtin.ofName?_name b⟩
  · rintro ⟨b, hname⟩
    have hrun : execute .silent (.plain (name :: args)) s = runBuiltin b args s := by
      rw [execute_plain]
      simp only [runWords, hname, noting_silent]
    refine ⟨⟨b, (Builtin.eq_name_of_ofName? hname).symm, hrun⟩, ?_⟩
    rw [hrun, runBuiltin_terminal hout]
    rfl

theorem execute_found (hout : s.host.OnTerminal .stdout) (herr : s.host.OnTerminal .stderr)
    (hname : Builtin.ofName? name = none) {path : Text}
    (hpath : Lookup.resolveIn s.host s.env name = some path) (args : List Text) :
    execute .silent (.plain (name :: args)) s = s.attempted name (s.env.resolve path) args := by
  rw [execute_plain]
  simp only [runWords, hname, hpath, noting_silent]
  exact runProgram_terminal hout herr name path args

theorem execute_notFound (hout : s.host.OnTerminal .stdout) (hname : Builtin.ofName? name = none)
    (hpath : Lookup.resolveIn s.host s.env name = none) (args : List Text) :
    execute .silent (.plain (name :: args)) s =
      (.ok (.code statusNotFound), ⟨s.env.setStatus statusNotFound,
        s.host.shown (name ++ ": command not found\n".toList), s.own⟩) := by
  rw [execute_plain]
  simp only [runWords, hname, hpath]
  exact reportNotFound_terminal hout name

theorem not_attempts {program : Text}
    (hlaunches : (execute .silent (.plain (name :: args)) s).2.host.launches = s.host.launches) :
    ¬ Attempts s name args program := by
  intro hattempts
  have hnone : s.host.launches ++ [] = s.host.launches ++ [s.attempt program (name :: args)] := by
    rw [List.append_nil, ← hattempts.launches, hlaunches]
  cases List.append_cancel_left hnone

theorem attempts_iff (hout : s.host.OnTerminal .stdout) (herr : s.host.OnTerminal .stderr)
    (habs : Path.isAbsolute s.env.cwd = true) {program : Text} :
    Attempts s name args program ↔ Builtin.ofName? name = none ∧
      ∃ path, Lookup.resolveIn s.host s.env name = some path ∧
        program = s.env.resolve path := by
  constructor
  · intro hattempts
    cases hname : Builtin.ofName? name with
    | some b =>
        exact absurd hattempts (not_attempts ((runsBuiltin_iff hout).mpr ⟨b, hname⟩).launches)
    | none =>
        refine ⟨rfl, ?_⟩
        cases hpath : Lookup.resolveIn s.host s.env name with
        | none =>
            refine absurd hattempts (not_attempts ?_)
            rw [execute_notFound hout hname hpath]
            rfl
        | some path =>
            have hlaunches := hattempts.launches
            rw [execute_found hout herr hname hpath, launches_attempted] at hlaunches
            have hsame := List.singleton_inj.mp (List.append_cancel_left hlaunches)
            exact ⟨path, rfl, (congrArg Launch.program hsame).symm⟩
  · rintro ⟨hname, path, hpath, rfl⟩
    have hrun := execute_found hout herr hname hpath args
    refine ⟨?_, hrun, ?_⟩
    · exact isExecutable_iff.mp (Lookup.isExecutable_of_resolve habs hpath).2
    · rw [hrun, launches_attempted]

theorem findsNothing_iff (hout : s.host.OnTerminal .stdout) (herr : s.host.OnTerminal .stderr) :
    FindsNothing s name args ↔
      Builtin.ofName? name = none ∧ Lookup.resolveIn s.host s.env name = none := by
  constructor
  · rintro ⟨hresult, hlaunches⟩
    cases hname : Builtin.ofName? name with
    | some b =>
        have hruns : RunsBuiltin s name args := (runsBuiltin_iff hout).mpr ⟨b, hname⟩
        obtain ⟨⟨b, -, hrun⟩, -⟩ := hruns
        rw [hrun, runBuiltin_terminal hout] at hresult
        have houtcome := Except.ok.inj (congrArg Prod.fst hresult)
        exact absurd houtcome (b.outcome_run_ne args s.env s.host)
    | none =>
        refine ⟨rfl, ?_⟩
        cases hpath : Lookup.resolveIn s.host s.env name with
        | none => rfl
        | some path =>
            rw [execute_found hout herr hname hpath, launches_attempted] at hlaunches
            have hnone := hlaunches.trans (List.append_nil _).symm
            cases List.append_cancel_left hnone
  · rintro ⟨hname, hpath⟩
    have hrun := execute_notFound hout hname hpath args
    refine ⟨hrun, ?_⟩
    rw [hrun]
    rfl

/-! ## Agreement -/

/-- What `type` shows of a name is what becomes of the name as a command: a builtin runs, or an
executable file is attempted to run, which is the one at the path that is shown, or nothing is
found.  Always exactly one of the three is the case. -/
theorem type_agrees_with_execution (hout : s.host.OnTerminal .stdout)
    (herr : s.host.OnTerminal .stderr) (habs : Path.isAbsolute s.env.cwd = true)
    (name : Text) (args : List Text) :
    (TypeShows s name (name ++ builtinWords) ↔ RunsBuiltin s name args) ∧
    (∀ program, Attempts s name args program ↔
      ∃ path, '/' ∈ path ∧ program = s.env.resolve path ∧
        TypeShows s name (name ++ pathWords path)) ∧
    (TypeShows s name (name ++ notFoundWords) ↔ FindsNothing s name args) ∧
    (RunsBuiltin s name args ∧ (∀ program, ¬ Attempts s name args program) ∧
        ¬ FindsNothing s name args ∨
      ¬ RunsBuiltin s name args ∧ (∃ program, Attempts s name args program) ∧
        ¬ FindsNothing s name args ∨
      ¬ RunsBuiltin s name args ∧ (∀ program, ¬ Attempts s name args program) ∧
        FindsNothing s name args) := by
  simp only [typeShows_iff hout, described, List.append_cancel_left_eq, runsBuiltin_iff hout,
    attempts_iff hout herr habs, findsNothing_iff hout herr]
  cases hname : Builtin.ofName? name with
  | some b =>
      refine ⟨by simp, ?_, ?_, .inl (by simp)⟩
      · intro program
        simp only [reduceCtorEq, false_and, false_iff, not_exists, not_and]
        exact fun path hslash _ heq => builtinWords_ne hslash heq.symm
      · simp [notFoundWords_ne_builtinWords]
  | none =>
      cases hpath : Lookup.resolveIn s.host s.env name with
      | some path =>
          have hslash := (Lookup.isExecutable_of_resolve habs hpath).1
          refine ⟨?_, ?_, ?_, .inr (.inl (by simp))⟩
          · simp [builtinWords_ne hslash]
          · intro program
            simp only [true_and, Option.some.injEq, exists_eq_left']
            constructor
            · rintro rfl
              exact ⟨path, hslash, rfl, rfl⟩
            · rintro ⟨path', -, rfl, heq⟩
              rw [pathWords_inj heq]
          · simp [notFoundWords_ne]
      | none =>
          refine ⟨?_, ?_, by simp, .inr (.inr (by simp))⟩
          · simp [notFoundWords_ne_builtinWords.symm]
          · intro program
            simp only [reduceCtorEq, false_and, exists_false, and_false, false_iff, not_exists,
              not_and]
            exact fun path _ _ heq => notFoundWords_ne path heq.symm

theorem type_agrees_with_execution_reporter :
    let tree := FileTree.bare.make ["r".toList, "bin".toList] (.file 0o755 Reporter.image)
    let env := Environment.ofVariables "/".toList [(Lookup.searchVariable, ":bin".toList)]
    let s := ofParts env (.start tree Place.root)
    let args := ["exit:7".toList]
    (s.host.OnTerminal .stdout ∧ s.host.OnTerminal .stderr ∧
      Path.isAbsolute s.env.cwd = true) ∧
      TypeShows s "r".toList ("r".toList ++ pathWords "/bin/r".toList) ∧
      Attempts s "r".toList args "/bin/r".toList := by
  intro tree env s args
  have hshows : TypeShows s "r".toList ("r".toList ++ pathWords "/bin/r".toList) := by
    unfold TypeShows
    decide +kernel
  obtain ⟨-, hattempts, -⟩ := type_agrees_with_execution (s := s) rfl rfl rfl "r".toList args
  refine ⟨⟨rfl, rfl, rfl⟩, hshows, (hattempts _).mpr ⟨"/bin/r".toList, ?_, ?_, hshows⟩⟩
  · decide +kernel
  · decide +kernel

end Shell

end LineShell
