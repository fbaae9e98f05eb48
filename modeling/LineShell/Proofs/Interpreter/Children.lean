import LineShell.Proofs.Environment.Presets
import LineShell.Proofs.Host.Retention
import LineShell.Proofs.Interpreter.WorkDir

/-!
# What programs get

A command whose name is found attempts to run the file that it was found as, in the working
directory of the session, with the words as they were typed, and with the exported variables: the
presets, and what was exported when the session began.  A program gets all that.  A script's
interpreter gets the script's path in the place of its name.
-/

namespace LineShell

open Host

/-- A process that a session started on a host, for a path that a name was found as and the words
of a command: it has the exported variables of the session, it is in the working directory of the
session, and it is that of the file that the path leads to from there. -/
structure Process.ChildOf (p : Process) (s : Session LogState) (h : Host) (path : Text)
    (argv : List Text) : Prop where
  environ : ∀ entry, entry ∈ p.environ ↔ ∃ name value, entry = name ++ '=' :: value ∧
    s.env.vars.get? name = some ⟨value, true⟩
  workDir : ∃ mode, s.host.find s.env.cwd = .ok (p.workDir, .directory mode)
  file : ∃ place mode content,
    h.tree.find p.workDir (s.env.resolve path) = .ok (place, .file mode content) ∧
      p.Runs h (s.env.resolve path) argv place content ∧
      ∃ mode' before,
        s.host.tree.find p.workDir (s.env.resolve path) = .ok (place, .file mode' before)

namespace Host

theorem retains_settle (h : Host) (fd : Descriptor) : h.Retains (h.settle fd) := by
  unfold settle
  split
  · exact retains_flush h
  · exact .refl h

theorem retains_pointed (h : Host) (fd file : Descriptor) : h.Retains (h.pointed fd file) :=
  ⟨(retains_settle h fd).workDir, (retains_settle h fd).tree⟩

end Host

namespace Shell

variable {s : Shell}

/-! ## The variables of a session -/

theorem vars_runWords (argv : List Text) (s : Shell) :
    (runWords .silent argv s).2.env.vars = s.env.vars := by
  rcases env_runWords argv s with ⟨status, henv⟩ | ⟨target, hmoved⟩
  · rw [henv, Environment.setStatus]
  · exact Environment.vars_changeDir hmoved

theorem vars_execute {words : List Text} {c : Command} (hwords : Command.ofWords words = .ok c)
    (s : Shell) : (execute .silent c s).2.env.vars = s.env.vars := by
  rcases Command.plain_or_redirected hwords with hc | ⟨stream, r, hc⟩
  · rw [hc, execute_plain]
    exact vars_runWords c.argv s
  · rw [hc]
    rcases execute_redirected_cases c.argv stream r s with
      ⟨e, he⟩ | ⟨file, opened, e, -, he⟩ | ⟨file, opened, saved, -, -, he⟩
    · rw [he]
    · rw [he]
      rfl
    · rw [he]
      exact vars_runWords c.argv _

theorem vars_apply (move : Move) (s : Shell) : (move.apply s).env.vars = s.env.vars := by
  cases move with
  | line text =>
      cases hline : Command.ofLine text with
      | error e => rw [Move.apply, evalLine_error hline]
      | ok c =>
          rw [Move.apply, evalLine_ok hline]
          exact vars_execute hline s
  | read prompt source => rfl
  | report e => rfl

theorem vars_play (moves : List Move) (s : Shell) : (s.play moves).env.vars = s.env.vars := by
  induction moves generalizing s with
  | nil => rfl
  | cons move moves ih => exact (ih (move.apply s)).trans (vars_apply move s)

/-! ## One attempt -/

inductive Trailing : List Text → Prop
  | none : Trailing []
  | redirection {operator : Text} {stream : Stream} {mode : WriteMode}
      (hoperator : redirectionOperator? operator = some (stream, mode))
      (target : Text) (rest : List Text) : Trailing (operator :: target :: rest)

/-- The host on which a command is run: that of the session, or one whose stream was pointed at the
target of the redirection. -/
inductive Enters (s : Shell) : List Text → Host → Prop
  | plain : Enters s [] s.host
  | redirected {operator target : Text} {stream : Stream} {mode : WriteMode}
      {file : Descriptor} {opened : Host}
      (hoperator : redirectionOperator? operator = some (stream, mode))
      (hopen : s.host.openTarget mode (s.env.resolve target) = (.ok file, opened))
      (rest : List Text) :
      Enters s (operator :: target :: rest) (opened.pointed stream.descriptor file)

theorem Enters.retains {tail : List Text} {h : Host} (he : s.Enters tail h) :
    s.host.Retains h := by
  cases he with
  | plain => exact .refl s.host
  | redirected hoperator hopen rest =>
      exact (retains_openTarget hopen).trans (retains_pointed _ _ _)

theorem Enters.launches {tail : List Text} {h : Host} (he : s.Enters tail h) :
    h.launches = s.host.launches := by
  cases he with
  | plain => rfl
  | redirected hoperator hopen rest =>
      exact (launches_settle _ _).trans (kept_openTarget hopen).2

/-- At most one attempt to run a program was made, and none only if there was an error. -/
def Tries {ε : Type} (P : Launch → Prop) (s : Shell)
    (evaluated : Except ε Outcome × Session LogState) : Prop :=
  ∃ attempt : Option Launch, evaluated.2.host.launches = s.host.launches ++ attempt.toList ∧
    (attempt = none → ∃ e, evaluated.1 = .error e) ∧ ∀ l, attempt = some l → P l

variable {ε : Type} {P : Launch → Prop} {evaluated : Except ε Outcome × Session LogState}

theorem tries_none (herror : ∃ e, evaluated.1 = .error e)
    (hlaunches : evaluated.2.host.launches = s.host.launches) : Tries P s evaluated :=
  ⟨none, by rw [hlaunches, Option.toList_none, List.append_nil], fun _ => herror, by simp⟩

theorem Tries.of_started {p : Process} (h : Tries P s evaluated)
    (hfresh : s.host.launches = [])
    (hstarted : evaluated.2.host.launches.map (·.started) = [.ok p]) :
    ∃ l, evaluated.2.host.launches = [l] ∧ P l ∧ l.started = .ok p := by
  obtain ⟨attempt, hlaunches, -, hattempt⟩ := h
  rw [hfresh, List.nil_append] at hlaunches
  rw [hlaunches] at hstarted
  cases attempt with
  | none => cases hstarted
  | some l => exact ⟨l, hlaunches, hattempt l rfl, (List.cons.inj hstarted).1⟩

theorem tries_runProgram (name path : Text) (args : List Text) (s : Shell) :
    Tries (· = (s.withHost s.host.flush.2).attempt (s.env.resolve path) (name :: args)) s
      (runProgram .silent name path args s) := by
  rcases launches_runProgram name path args s with ⟨herror, hlaunches⟩ | hlaunches
  · exact tries_none herror hlaunches
  · exact ⟨some _, hlaunches, by simp, by simp⟩

variable {name path : Text} {args tail : List Text}

theorem tries_runWords (hname : Builtin.ofName? name = none)
    (hpath : Lookup.resolveIn s.host s.env name = some path) (args : List Text) :
    Tries (· = (s.withHost s.host.flush.2).attempt (s.env.resolve path) (name :: args)) s
      (runWords .silent (name :: args) s) := by
  simp only [runWords, hname, hpath, noting_silent]
  exact tries_runProgram name path args s

theorem tries_redirected (hname : Builtin.ofName? name = none)
    (hpath : Lookup.resolveIn s.host s.env name = some path) {operator : Text} {stream : Stream}
    {mode : WriteMode} (hoperator : redirectionOperator? operator = some (stream, mode))
    (target : Text) (rest : List Text) :
    Tries (fun l => ∃ h, s.Enters (operator :: target :: rest) h ∧
        l = (s.withHost h.flush.2).attempt (s.env.resolve path) (name :: args)) s
      (execute .silent (.redirected (name :: args) stream ⟨target, mode⟩) s) := by
  rcases execute_redirected_cases (name :: args) stream ⟨target, mode⟩ s with
    ⟨e, he⟩ | ⟨file, opened, e, hopen, he⟩ | ⟨file, opened, saved, hopen, -, he⟩
  · rw [he]
    exact tries_none ⟨e, rfl⟩ rfl
  · rw [he]
    exact tries_none ⟨e, rfl⟩ ((launches_settle opened _).trans (kept_openTarget hopen).2)
  · have hentered :
        s.Enters (operator :: target :: rest) (opened.pointed stream.descriptor file) :=
      .redirected hoperator hopen rest
    generalize opened.pointed stream.descriptor file = h at he hentered
    have hfound := (hentered.retains.resolveIn_eq s.env name).trans hpath
    obtain ⟨attempt, hlaunches, herror, hattempt⟩ :=
      tries_runWords (s := s.withHost h) hname hfound args
    have hback := launches_settle (runWords .silent (name :: args) (s.withHost h)).2.host
      stream.descriptor
    rw [he]
    refine ⟨attempt, ?_, herror, fun l hl => ⟨h, hentered, hattempt l hl⟩⟩
    exact hback.trans (hlaunches.trans (congrArg (· ++ attempt.toList) hentered.launches))

/-- A line whose name is found attempts to run the file, with the words as they were typed. -/
theorem tries_line {line : Text} (hline : Words.ofLine line = name :: args ++ tail)
    (hargs : ∀ word ∈ name :: args, redirectionOperator? word = none) (htail : Trailing tail)
    (hname : Builtin.ofName? name = none)
    (hpath : Lookup.resolveIn s.host s.env name = some path) :
    Tries (fun l => ∃ h, s.Enters tail h ∧
        l = (s.withHost h.flush.2).attempt (s.env.resolve path) (name :: args)) s
      (Session.evalLine .silent (execute .silent) line s) := by
  have hexecuted : ∃ c, Command.ofLine line = .ok c ∧
      Tries (fun l => ∃ h, s.Enters tail h ∧
        l = (s.withHost h.flush.2).attempt (s.env.resolve path) (name :: args)) s
        (execute .silent c s) := by
    rw [Command.ofLine, hline]
    cases htail with
    | none =>
        refine ⟨.plain (name :: args), by rw [List.append_nil, Command.ofWords_plain hargs], ?_⟩
        obtain ⟨attempt, hlaunches, herror, hattempt⟩ := tries_runWords hname hpath args
        exact ⟨attempt, hlaunches, herror, fun l hl => ⟨_, .plain, hattempt l hl⟩⟩
    | redirection hoperator target rest =>
        exact ⟨_, Command.ofWords_redirected hargs hoperator target rest,
          tries_redirected hname hpath hoperator target rest⟩
  obtain ⟨c, hc, attempt, hlaunches, herror, hattempt⟩ := hexecuted
  rw [evalLine_eq, hc]
  refine ⟨attempt, hlaunches, fun hnone => ?_, hattempt⟩
  obtain ⟨e, he⟩ := herror hnone
  exact ⟨.exec e, congrArg (Except.mapError ShellError.exec) he⟩

theorem childOf_attempt {h : Host} (hretains : s.host.Retains h) {argv : List Text} {p : Process}
    (hstarted : ((s.withHost h).attempt (s.env.resolve path) argv).started = .ok p) :
    p.ChildOf s h path argv := by
  obtain ⟨henviron, ⟨dirMode, hdir, hsearch⟩, place, mode, content, hfile, hmode, hruns⟩ :=
    prepare_eq_ok hstarted
  refine ⟨?_, ?_, ?_⟩
  · intro entry
    rw [henviron]
    exact Environment.mem_block_iff
  · unfold find at hdir ⊢
    rw [hretains.workDir]
    obtain ⟨e, hbefore, houtline⟩ := hretains.tree.passable hdir hsearch
    cases Entry.directory_of_outline houtline
    exact ⟨dirMode, hbefore⟩
  · obtain ⟨e, hbefore, houtline⟩ := hretains.tree.passable hfile hmode
    obtain ⟨mode', before, rfl, -⟩ := Entry.file_of_outline houtline
    exact ⟨place, mode, content, hfile, hruns, mode', before, hbefore⟩

/-- In every run of a session that begins with presets, the exported variables are the presets and
what was exported besides.  A line whose name is found attempts to run the file, however the words
are quoted and whether or not output is redirected; what starts is a child of the session, with the
name and the arguments as they were typed. -/
theorem children_throughout (config : Config) (env : Environment) (host : Host)
    (moves : List Move) {k : Shell}
    (hk : k = play (Session.configured config env host .intact) moves) {line name path : Text}
    {args tail : List Text} (hline : Words.ofLine line = name :: args ++ tail)
    (hargs : ∀ word ∈ name :: args, redirectionOperator? word = none) (htail : Trailing tail)
    (hname : Builtin.ofName? name = none)
    (hpath : Lookup.resolveIn k.host k.env name = some path) :
    (∀ n, k.env.vars.get? n =
      match config.presets.get? n with
      | some value => some ⟨value, true⟩
      | none => env.vars.get? n) ∧
    Tries (fun l => ∃ h, k.Enters tail h ∧
        l = (k.withHost h.flush.2).attempt (k.env.resolve path) (name :: args) ∧
          ∀ p, l.started = .ok p → p.ChildOf k h.flush.2 path (name :: args)) k
      (Session.evalLine .silent (execute .silent) line k) := by
  constructor
  · intro n
    rw [hk, vars_play]
    exact Environment.get?_vars_preset env config.presets n
  · obtain ⟨attempt, hlaunches, herror, hattempt⟩ :=
      tries_line hline hargs htail hname hpath
    refine ⟨attempt, hlaunches, herror, fun l hl => ?_⟩
    obtain ⟨h, hentered, rfl⟩ := hattempt l hl
    have hretains := hentered.retains.trans (retains_flush h)
    exact ⟨h, hentered, rfl, fun p hstarted => childOf_attempt hretains hstarted⟩

theorem children_throughout_preset :
    let tree := (FileTree.bare.make ["r".toList, "bin".toList] (.file 0o755 Reporter.image)).make
      ["d".toList] (.directory 0o755)
    let env := (Environment.ofVariables "/".toList
      [("A".toList, "old".toList), ("PATH".toList, "/bin".toList)]).set "S".toList "1".toList
    let config : Config := { Config.default with presets := .ofList [("A".toList, "x y".toList)] }
    let k := play (Session.configured config env (.start tree Place.root) .intact)
      [.line "cd /d".toList]
    let args := ["a b".toList, "\"".toList, ">x".toList]
    let line := "r 'a b' \"\\\"\" \\>x 2>> f".toList
    let p : Process := ⟨["r".toList, "bin".toList], "r".toList :: args,
      ["A=x y".toList, "PATH=/bin".toList], ["d".toList]⟩
    (Words.ofLine line = "r".toList :: args ++ ["2>>".toList, "f".toList] ∧
      (∀ word ∈ "r".toList :: args, redirectionOperator? word = none) ∧
      Builtin.ofName? "r".toList = none ∧
      Lookup.resolveIn k.host k.env "r".toList = some "/bin/r".toList) ∧
      ∃ l h, (Session.evalLine .silent (execute .silent) line k).2.host.launches = [l] ∧
        l.argv = "r".toList :: args ∧ l.started = .ok p ∧
        p.ChildOf k h "/bin/r".toList ("r".toList :: args) := by
  intro tree env config k args line p
  have hline : Words.ofLine line = "r".toList :: args ++ ["2>>".toList, "f".toList] := by
    decide +kernel
  have hargs : ∀ word ∈ "r".toList :: args, redirectionOperator? word = none := by
    decide +kernel
  have htail : Trailing ["2>>".toList, "f".toList] := .redirection rfl _ _
  have hname : Builtin.ofName? "r".toList = none := by decide +kernel
  have hpath : Lookup.resolveIn k.host k.env "r".toList = some "/bin/r".toList := by decide +kernel
  have hstarted : (Session.evalLine .silent (execute .silent) line k).2.host.launches.map
      (·.started) = [.ok p] := by decide +kernel
  refine ⟨⟨hline, hargs, hname, hpath⟩, ?_⟩
  obtain ⟨-, htries⟩ :=
    children_throughout config env (.start tree Place.root) [.line "cd /d".toList] (k := k) rfl
      hline hargs htail hname hpath
  have hfresh : k.host.launches = [] := by
    have hnone : k.host.launches.isEmpty = true := by decide +kernel
    exact List.isEmpty_iff.mp hnone
  obtain ⟨l, hl, ⟨h, -, hattempt, hchild⟩, hp⟩ := htries.of_started hfresh hstarted
  exact ⟨l, h.flush.2, hl, congrArg Launch.argv hattempt, hp, hchild p hp⟩

/-- A script's process is not that of its file, and has not the arguments that were typed: its
interpreter runs, with the script's path in the place of the name. -/
theorem script_not_typed :
    let tree := (FileTree.bare.make ["p".toList] (.file 0o755 Reporter.image)).make
      ["s".toList] (.file 0o755 (Utf8.encode "#!/p\n".toList))
    let s := ofParts (.ofVariables "/".toList []) (.start tree Place.root)
    let typed := ["/s".toList, "argv".toList]
    let after := (Session.evalLine .silent (execute .silent) "/s argv".toList s).2
    (Words.ofLine "/s argv".toList = typed ∧ (∀ word ∈ typed, redirectionOperator? word = none) ∧
      Builtin.ofName? "/s".toList = none ∧
      Lookup.resolveIn s.host s.env "/s".toList = some "/s".toList ∧
      (s.host.find (s.env.resolve "/s".toList)).map (·.1) = .ok ["s".toList]) ∧
      ∃ p, after.host.launches.map (·.started) = [.ok p] ∧ p.argv ≠ typed ∧
        p.image ≠ ["s".toList] := by
  intro tree s typed after
  refine ⟨by decide +kernel,
    ⟨["p".toList], ["/p".toList, "/s".toList, "argv".toList], [], Place.root⟩, ?_⟩
  decide +kernel

end Shell

end LineShell
