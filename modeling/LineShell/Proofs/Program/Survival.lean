import LineShell.Proofs.Interpreter.Lines
import LineShell.Proofs.Program.Fallback

/-!
# Surviving every input

Whatever the lines of standard input are and whatever becomes of them, the program evaluates them
one after another and ends with success, unless a note of its log gets lost or the log cannot be
set up. Notes get lost only in a line that redirects standard error to the device that has no
room.
-/

namespace LineShell

open Host

namespace Program

variable {block : List Text} {data : Bytes} {h : Host} {log : Log}

def evaluations (block : List Text) (data : Bytes) (h : Host) : List Evaluation :=
  let (config, h) := configure block h
  match log? block config with
  | none => []
  | some log =>
      let source := Source.input data
      (interpreter block config log source h).evaluations (source.remaining + 1)

/-- What is expected of the program: it ends with success, it has evaluated every line up to the
first that leaves the session, and with a configuration that cannot be loaded it says so and does
what it does with the defaults. -/
structure Survives (block : List Text) (data : Bytes) (h : Host) : Prop where
  status : (run block (.input data) h).1 = some 0
  evaluated : Covers Evaluation.Exits (Source.inputLines data) (evaluations block data h)
  fallback : ∀ path e, configPath? block = some path → Config.loadOrDefault h path = .error e →
    let plain := runWith .default block (.input data) h
    ∃ later, plain.2.err = h.err ++ later ∧
      run block (.input data) h =
        (plain.1, { plain.2 with err := h.err ++ Utf8.encode (complaint path e) ++ later })

theorem onTerminal_configure {stream : Stream} (ht : h.OnTerminal stream) (block : List Text) :
    (configure block h).2.OnTerminal stream := by
  have hfiles : h.files.Stays (configure block h).2.files :=
    (kept_stays h.files).writeStream (.refl h.files) .stderr _
  exact (hfiles.sink? stream.descriptor).trans ht

theorem readThrough_interpreter (hout : h.OnTerminal .stdout) (herr : h.OnTerminal .stderr)
    (block : List Text) (data : Bytes) (log : Log) :
    let start := interpreter block (configure block h).1 log (.input data) (configure block h).2
    start.ReadThrough (Source.inputLines data) ((Source.input data).remaining + 1) := by
  intro start
  have hreading : start.Reading (Source.inputLines data) :=
    ⟨rfl, onTerminal_configure hout block, onTerminal_configure herr block, data, rfl, rfl⟩
  apply hreading.readThrough
  rw [Source.inputLines, List.length_map]
  exact Nat.lt_succ_self _

theorem evaluations_eq (hlog : log? block (configure block h).1 = some log) (data : Bytes) :
    evaluations block data h =
      (interpreter block (configure block h).1 log (.input data) (configure block h).2).evaluations
        ((Source.input data).remaining + 1) := by
  simp only [evaluations, hlog]

theorem status_runWith_iff {config : Config} (hlog : log? block config = some log)
    (source : Source) (h : Host) :
    (runWith config block source h).1 = some 0 ↔
      (Interpreter.run (Shell.execute log) (interpreter block config log source h)).1 =
          some (.ok ()) ∧
        (Interpreter.run (Shell.execute log)
          (interpreter block config log source h)).2.session.own = .intact := by
  unfold runWith
  simp only [hlog]
  generalize Interpreter.run (Shell.execute log) (interpreter block config log source h) = ran
  obtain ⟨_ | _ | u, i⟩ := ran
  · simp
  · next e =>
      have hfailed : (conclude (.error e) i.session).1 ≠ 0 := by
        unfold conclude
        dsimp only
        split <;> simp [statusBroken]
      simp [hfailed]
  · cases hown : i.session.own <;> simp [conclude, statusBroken, hown]

theorem status_run_iff (hout : h.OnTerminal .stdout) (herr : h.OnTerminal .stderr)
    (hlog : log? block (configure block h).1 = some log) :
    (run block (.input data) h).1 = some 0 ↔
      ((configure block h).1.eof = .exit ∨ (evaluations block data h).any Evaluation.leaves) ∧
        ∀ e ∈ evaluations block data h, e.after.own = .intact := by
  have hcomplaint := congrArg Prod.fst (complain_terminal herr block)
  rw [run_eq_runWith hcomplaint, evaluations_eq hlog, status_runWith_iff hlog]
  have hread := readThrough_interpreter hout herr block data log
  generalize hstart : interpreter block (configure block h).1 log (.input data)
    (configure block h).2 = start at hread ⊢
  have hlog' : start.log = log := by rw [← hstart]; rfl
  have hconfig : start.config = (configure block h).1 := by rw [← hstart]; rfl
  have hsource : start.source = .input data := by rw [← hstart]; rfl
  have hresult := hread.result
  rw [hlog', hconfig] at hresult
  have hown := hread.own
  rw [hlog'] at hown
  unfold Interpreter.run
  rw [hsource, hresult, hown]
  refine and_congr_left fun _ => ?_
  split
  · next hstops => exact ⟨fun _ => hstops, fun _ => rfl⟩
  · next hgoes =>
      refine iff_of_false ?_ hgoes
      intro hended
      cases hended

theorem sound_evaluations (hout : h.OnTerminal .stdout) (herr : h.OnTerminal .stderr)
    (hlog : log? block (configure block h).1 = some log) :
    ∀ e ∈ evaluations block data h, e.Sound log := by
  rw [evaluations_eq hlog]
  exact (readThrough_interpreter hout herr block data log).sound

theorem any_leaves_iff (hsound : ∀ e ∈ evaluations block data h, e.Sound log)
    (hintact : ∀ e ∈ evaluations block data h, e.after.own = .intact) :
    (evaluations block data h).any Evaluation.leaves ↔
      ∃ e ∈ evaluations block data h, e.Exits := by
  rw [List.any_eq_true]
  exact exists_congr fun e => and_congr_right fun he => (hsound e he).leaves_iff (hintact e he)

theorem exists_log_of_status (herr : h.OnTerminal .stderr) {source : Source}
    (hstatus : (run block source h).1 = some 0) :
    ∃ log, log? block (configure block h).1 = some log := by
  cases hlog : log? block (configure block h).1 with
  | some log => exact ⟨log, rfl⟩
  | none =>
      have hcomplaint := congrArg Prod.fst (complain_terminal herr block)
      rw [run_eq_runWith hcomplaint, runWith, hlog] at hstatus
      cases hstatus

/-- The program survives its input just if its log can be set up, no note gets lost in a line, and
the end of the input or a command ends the run.  A note gets lost only in a line that redirects
standard error to the device that has no room, while notes are asked for. -/
theorem survives_iff (hout : h.OnTerminal .stdout) (herr : h.OnTerminal .stderr) :
    (Survives block data h ↔
      (∃ log, log? block (configure block h).1 = some log) ∧
      (∀ e ∈ evaluations block data h, e.after.own = .intact) ∧
      ((configure block h).1.eof = .exit ∨ ∃ e ∈ evaluations block data h, e.Exits)) ∧
    ∀ log, log? block (configure block h).1 = some log →
      ∀ e ∈ evaluations block data h, e.after.own = .lost → e.Deafens log := by
  refine ⟨⟨fun hsurvives => ?_, ?_⟩, ?_⟩
  · obtain ⟨log, hlog⟩ := exists_log_of_status herr hsurvives.status
    obtain ⟨hends, hintact⟩ := (status_run_iff hout herr hlog).mp hsurvives.status
    have hleaves := any_leaves_iff (sound_evaluations hout herr hlog) hintact
    exact ⟨⟨log, hlog⟩, hintact, hends.imp_right hleaves.mp⟩
  · rintro ⟨⟨log, hlog⟩, hintact, hends⟩
    have hsound := @sound_evaluations _ data _ _ hout herr hlog
    have hstatus := (status_run_iff hout herr hlog).mpr
      ⟨hends.imp_right (any_leaves_iff hsound hintact).mpr, hintact⟩
    have hcovers := (readThrough_interpreter hout herr block data log).covers
    rw [← evaluations_eq hlog] at hcovers
    exact
      { status := hstatus
        evaluated := hcovers.congr fun e he => (hsound e he).leaves_iff (hintact e he)
        fallback := fun path e hpath he => run_of_unloadable herr hpath he _ }
  · intro log hlog e he hlost
    rcases (sound_evaluations hout herr hlog e he).cases with ⟨hintact, -⟩ | ⟨-, -, hdeafens⟩
    · rw [hlost] at hintact
      cases hintact
    · exact hdeafens

theorem survives_iff_unloadable :
    let tree := (FileTree.bare.make ["b".toList, "bin".toList]
      (.file 0o755 (Utf8.encode "#!/none\n".toList))).make ["rc".toList]
      (.file 0o644 (Utf8.encode "eof\n".toList))
    let h : Host := .start tree Place.root
    let block := ["PATH=/bin".toList, "MINISH_CONFIG=/rc".toList]
    let data := Utf8.encode "echo >\nc\necho x > /dev/full\nb 2> f\n".toList ++
      [0xFF, 0x00, 0x0A] ++ Utf8.encode "exit 3\necho z".toList
    (h.OnTerminal .stdout ∧ h.OnTerminal .stderr) ∧ Survives block data h ∧
      configPath? block = some "/rc".toList ∧
      Config.loadOrDefault h "/rc".toList =
        .error (.malformed "Line 1: No '=' found: eof".toList) ∧
      (evaluations block data h).length = 6 := by
  intro tree h block data
  have hout : h.OnTerminal .stdout := rfl
  have herr : h.OnTerminal .stderr := rfl
  have hlog : (log? block (configure block h).1).isSome := by decide +kernel
  have hintact : ∀ e ∈ evaluations block data h, e.after.own = .intact := by decide +kernel
  have heof : (configure block h).1.eof = .exit := by decide +kernel
  have hsurvives : Survives block data h :=
    (survives_iff hout herr).1.mpr ⟨Option.isSome_iff_exists.mp hlog, hintact, .inl heof⟩
  exact ⟨⟨hout, herr⟩, hsurvives, by decide +kernel, by rfl, by decide +kernel⟩

/-- A program that cannot be launched is noted in the log, and standard error has no room for
that: the session is over before its last line. -/
theorem not_survives_launch_failed :
    let tree := FileTree.bare.make ["broken".toList, "bin".toList]
      (.file 0o755 (Utf8.encode "#!/nonexistent_interp\n".toList))
    let h : Host := .start tree Place.root
    let block := ["PATH=/bin".toList]
    let data := Utf8.encode "echo a\nbroken 2> /dev/full\necho b\n".toList
    (h.OnTerminal .stdout ∧ h.OnTerminal .stderr) ∧ (configure block h).1.eof = .exit ∧
      ¬ Survives block data h ∧ (run block (.input data) h).1 = some statusBroken ∧
      (evaluations block data h).map (·.line) =
        ["echo a".toList, "broken 2> /dev/full".toList] := by
  intro tree h block data
  have hterminal : h.OnTerminal .stdout ∧ h.OnTerminal .stderr := ⟨rfl, rfl⟩
  have hstatus : (run block (.input data) h).1 = some statusBroken := by decide +kernel
  have hfailed : ¬ Survives block data h := by
    intro hsurvives
    have hended := hsurvives.status
    rw [hstatus] at hended
    cases hended
  exact ⟨hterminal, by decide +kernel, hfailed, hstatus, by decide +kernel⟩

end Program

end LineShell
