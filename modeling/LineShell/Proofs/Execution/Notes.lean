import LineShell.Proofs.Command
import LineShell.Proofs.Execution.Restoration
import LineShell.Proofs.Host.Delivery
import LineShell.Proofs.Host.Targets

/-!
# Notes that get lost

A note gets lost only while standard error leads to the device without room, and what meets that
leaves the session at once.  Whatever else is done leaves the log as it was, and leaves the session
just if it is the builtin for that.
-/

namespace LineShell

open Host

namespace Host

/-- Whether a note can get lost: the log asks for some, and standard error leads to the device that
has no room. -/
structure Deaf (log : Log) (h : Host) : Prop where
  asked : ∃ e, log.enables e = true
  full : h.files.sink? Stream.stderr.descriptor = some (.device .full)

variable {h k : Host} {log : Log}

theorem OnTerminal.not_deaf (ht : h.OnTerminal .stderr) : ¬ h.Deaf log := by
  intro hdeaf
  have hfull := hdeaf.full
  rw [show h.files.sink? _ = _ from ht] at hfull
  cases hfull

theorem Deaf.of_stays (hk : k.Deaf log) (hfiles : h.files.Stays k.files) : h.Deaf log := by
  refine ⟨hk.asked, ?_⟩
  rw [← hfiles.sink?]
  exact hk.full

theorem Deaf.of_close {fd : Descriptor} (hk : (h.close fd).Deaf log) : h.Deaf log := by
  refine ⟨hk.asked, ?_⟩
  have hfull := hk.full
  rw [close, OpenFiles.sink?_close] at hfull
  split at hfull
  · cases hfull
  · exact hfull

theorem stays_note (h : Host) (log : Log) (e : Log.Event) :
    h.files.Stays (h.note log e).2.files :=
  (kept_stays h.files).note (.refl h.files) log e

theorem sameOutline_note (h : Host) (log : Log) (e : Log.Event) :
    h.SameOutline (h.note log e).2 :=
  (kept_sameOutline h).note ⟨rfl, .refl h.tree⟩ log e

theorem note_result (h : Host) (log : Log) (e : Log.Event) :
    (h.note log e).1 = .ok () ∨ h.Deaf log := by
  unfold note
  split
  · next hasked =>
      rcases writeStream_result h .stderr (Utf8.encode (e.line log.coloured)) with hok | hfull
      · exact .inl hok
      · exact .inr ⟨⟨e, hasked⟩, hfull⟩
  · exact .inl rfl

end Host

theorem Builtin.eq_exit_of_outcome {b : Builtin} {args : List Text} {env : Environment} {h : Host}
    (houtcome : (b.run args env h).outcome = .leave) : b = .exit := by
  cases b with
  | exit => rfl
  | echo => cases houtcome
  | pwd => cases houtcome
  | cd =>
      unfold run runCd at houtcome
      dsimp only at houtcome
      repeat' split at houtcome
      all_goals cases houtcome
  | type =>
      unfold run runType at houtcome
      dsimp only at houtcome
      repeat' split at houtcome
      all_goals cases houtcome

namespace Shell

/-- How something is done: the log stays as it was, and the session goes on unless it was to be
left; or a note gets lost, for a reason, and the session is left at once. -/
def Ends (leaving deaf : Prop) (s : Shell) (r : Except ExecError Outcome × Shell) : Prop :=
  (r.2.own = s.own ∧ (r.1 = .ok .leave → leaving)) ∨
    (r.1 = .ok .leave ∧ r.2.own = .lost ∧ deaf)

variable {s t : Shell} {log : Log} {next : Action} {leaving deaf : Prop}

theorem Ends.of_own {r : Except ExecError Outcome × Shell} (ht : Ends leaving deaf t r)
    (hown : t.own = s.own) : Ends leaving deaf s r := by
  unfold Ends at ht ⊢
  rw [← hown]
  exact ht

theorem ends_failed (e : ExecError) (hown : t.own = s.own) :
    Ends leaving deaf s (.error e, t) :=
  .inl ⟨hown, fun h => by cases h⟩

theorem ends_finish (status : Nat) (hown : t.own = s.own) :
    Ends leaving deaf s (finish status t) :=
  .inl ⟨hown, fun h => by cases h⟩

theorem ends_noting (hdeaf : s.host.Deaf log → deaf) (e : Log.Event)
    (hnext : ∀ h, s.host.note log e = (.ok (), h) → (h.Deaf log → deaf) →
      Ends leaving deaf s (next (s.withHost h))) :
    Ends leaving deaf s (noting log e next s) := by
  have hresult := note_result s.host log e
  have hfiles := stays_note s.host log e
  unfold noting
  rcases hnote : s.host.note log e with ⟨cause | _, h⟩
  · rw [hnote] at hresult
    rcases hresult with hok | hlost
    · cases hok
    · exact .inr ⟨rfl, rfl, hdeaf hlost⟩
  · rw [hnote] at hfiles
    exact hnext h hnote fun hlost => hdeaf (hlost.of_stays hfiles)

theorem ends_runBuiltin (b : Builtin) (args : List Text) (hown : t.own = s.own)
    (hleaving : b = .exit → leaving) : Ends leaving deaf s (runBuiltin b args t) := by
  left
  unfold runBuiltin
  dsimp only
  split
  · exact ⟨hown, fun h => by cases h⟩
  · exact ⟨hown, fun h => by cases h⟩
  · exact ⟨hown, fun h => hleaving (Builtin.eq_exit_of_outcome (Except.ok.inj h))⟩

theorem ends_reportNotFound (name : Text) (s : Shell) :
    Ends leaving deaf s (reportNotFound name s) := by
  unfold reportNotFound
  split
  · exact ends_failed _ rfl
  · split
    · exact ends_failed _ rfl
    · exact ends_finish _ rfl

theorem ends_runProgram (hdeaf : s.host.Deaf log → deaf) (name path : Text) (args : List Text) :
    Ends leaving deaf s (runProgram log name path args s) := by
  -- programs and messages leave standard error where it is
  have hkept : Kept fun h => h.Deaf log → deaf :=
    { await := fun hh _ hlost => hh ⟨hlost.asked, hlost.full⟩
      write := fun {h} hh stream data hlost =>
        hh (hlost.of_stays (stays_write h stream.descriptor data))
      record := fun hh _ hlost => hh ⟨hlost.asked, hlost.full⟩ }
  have hflush := hkept.flush hdeaf
  unfold runProgram
  rcases hflushed : s.host.flush with ⟨e | _, flushed⟩
  · exact ends_failed _ rfl
  · rw [hflushed] at hflush
    have hlaunch := hkept.launch hflush (s.env.resolve path) (name :: args) s.env.block s.env.cwd
    dsimp only
    rcases hlaunched : flushed.launch (s.env.resolve path) (name :: args) s.env.block
      s.env.cwd with ⟨cause | status, launched⟩
    · rw [hlaunched] at hlaunch
      refine Ends.of_own (ends_noting hlaunch _ fun h hnote hnoted => ?_) rfl
      have htold := hkept.writeStream hnoted .stderr
        (Utf8.encode (name ++ ": ".toList ++ cause.message ++ ['\n']))
      unfold reportLaunch
      dsimp only [withHost]
      rcases hwrite : h.writeStream .stderr
        (Utf8.encode (name ++ ": ".toList ++ cause.message ++ ['\n'])) with ⟨e | _, told⟩
      · exact ends_failed _ rfl
      · rw [hwrite] at htold
        exact Ends.of_own (ends_noting htold _ fun _ _ _ => ends_finish _ rfl) rfl
    · rw [hlaunched] at hlaunch
      exact Ends.of_own (ends_noting hlaunch _ fun _ _ _ => ends_finish _ rfl) rfl

theorem ends_runWords (hdeaf : s.host.Deaf log → deaf) (argv : List Text) :
    Ends (argv.head? = some Builtin.exit.name) deaf s (runWords log argv s) := by
  cases argv with
  | nil => exact .inl ⟨rfl, fun h => by cases h⟩
  | cons name args =>
      simp only [runWords, List.head?_cons]
      cases hname : Builtin.ofName? name with
      | some b =>
          refine ends_noting hdeaf _ fun h _ _ => ends_runBuiltin b args rfl fun hexit => ?_
          rw [Builtin.eq_name_of_ofName? hname, hexit]
      | none =>
          cases Lookup.resolveIn s.host s.env name with
          | none => exact ends_reportNotFound name s
          | some path =>
              refine ends_noting hdeaf _ fun h _ hnoted => ?_
              exact ends_runProgram hnoted name path args

theorem ends_pointing {stream : Stream} {mode : WriteMode} {path : Text}
    (hdeaf : ∀ file opened, s.host.openTarget mode path = (.ok file, opened) →
      opened.files.number? stream.descriptor ≠ none →
      (opened.acquired stream.descriptor file).Deaf log → deaf)
    (hnext : ∀ t : Shell, t.own = s.own → (t.host.Deaf log → deaf) → Ends leaving deaf t (next t)) :
    Ends leaving deaf s (pointing log stream mode path next s) := by
  rcases hopen : s.host.openTarget mode path with ⟨e | file, opened⟩
  · simp only [pointing, hopen]
    exact ends_failed e rfl
  · cases hsaved : opened.files.number? stream.descriptor with
    | none =>
        rw [pointing_closed hopen hsaved]
        exact ends_failed _ rfl
    | some saved =>
        rw [pointing_opened hopen hsaved]
        have hentered := hdeaf file opened hopen (by rw [hsaved]; exact Option.some_ne_none saved)
        refine Ends.of_own (ends_noting hentered _ fun h _ hnoted => ?_) rfl
        -- the file is closed before, and the guard released after the result is there
        have hclosed : Ends leaving deaf (s.withHost (h.close file)) _ :=
          hnext (s.withHost (h.close file)) rfl fun hlost => hnoted hlost.of_close
        exact hclosed.of_own rfl

theorem ends_redirecting {stream : Stream} {redirection : Option Redirection}
    (hdeaf : s.host.Deaf log → deaf)
    (htarget : ∀ r h file opened, redirection = some r →
      s.host.note log (.opening stream.descriptor (s.env.resolve r.target) r.mode) = (.ok (), h) →
      h.openTarget r.mode (s.env.resolve r.target) = (.ok file, opened) →
      opened.files.number? stream.descriptor ≠ none →
      (opened.acquired stream.descriptor file).Deaf log → deaf)
    (hnext : ∀ t : Shell, t.own = s.own → (t.host.Deaf log → deaf) → Ends leaving deaf t (next t)) :
    Ends leaving deaf s (redirecting log stream next redirection s) := by
  cases redirection with
  | none => exact hnext s rfl hdeaf
  | some r =>
      refine ends_noting hdeaf _ fun h hnote _ => ?_
      have hopened := fun file opened => htarget r h file opened rfl hnote
      have hpointing : Ends leaving deaf (s.withHost h) (pointing log stream r.mode
          (s.env.resolve r.target) next (s.withHost h)) := ends_pointing hopened hnext
      exact hpointing.of_own rfl

/-- After a command the log is as it was, and the session goes on unless the command was to leave
it; or a note got lost, and the session is left. -/
theorem ends_execute (log : Log) (c : Command) (s : Shell) :
    Ends (c.name? = some Builtin.exit.name) True s (execute log c s) := by
  have hanything : ∀ {p : Prop}, p → True := fun _ => trivial
  refine ends_redirecting hanything (fun _ _ _ _ _ _ _ _ => hanything) fun t hown _ => ?_
  refine Ends.of_own (ends_redirecting hanything (fun _ _ _ _ _ _ _ _ => hanything) ?_) rfl
  intro u _ _
  exact ends_runWords hanything c.argv

/-! ## Where notes get lost -/

theorem deaf_acquired {h opened : Host} {stream : Stream} {mode : WriteMode} {path : Text}
    {file : Descriptor} (ht : h.OnTerminal .stderr)
    (hopen : h.openTarget mode path = (.ok file, opened))
    (hsaved : opened.files.number? stream.descriptor ≠ none)
    (hdeaf : (opened.acquired stream.descriptor file).Deaf log) :
    stream = .stderr ∧ h.target? path = some (.device .full) := by
  obtain ⟨-, sink, -, hfiles⟩ := extends_openTarget hopen
  have herr : opened.files.sink? Stream.stderr.descriptor = some (.terminal .stderr) :=
    hfiles.sink?_of_some ht
  have hsink := hdeaf.full
  obtain ⟨saved, hsaved⟩ := Option.ne_none_iff_exists'.mp hsaved
  obtain ⟨number, hnumber⟩ := number?_of_openTarget hopen
  rw [sink?_acquired hsaved hnumber (OpenFiles.ne_firstFree_of_sink? herr)] at hsink
  cases stream with
  | stdout =>
      rw [if_neg (by decide), herr] at hsink
      cases hsink
  | stderr =>
      rw [if_pos rfl] at hsink
      obtain ⟨-, tree, hopening, -⟩ := openTarget_ok hopen hsink
      exact ⟨rfl, hopening.target?_eq⟩

theorem ends_execute_line {line : Text} {c : Command} (hline : Command.ofLine line = .ok c)
    (ht : s.host.OnTerminal .stderr) :
    Ends (c.name? = some Builtin.exit.name)
      ((∃ e, log.enables e = true) ∧
        ∃ r, c.stderr = some r ∧ s.host.target? (s.env.resolve r.target) = some (.device .full))
      s (execute log c s) := by
  have hdeaf : ∀ {p : Prop}, s.host.Deaf log → p := fun hdeaf => absurd hdeaf ht.not_deaf
  rcases Command.plain_or_redirected hline with hc | ⟨stream, r, hc⟩
  · rw [hc]
    exact ends_runWords hdeaf c.argv
  · generalize c.argv = argv at hc
    subst hc
    rw [execute_redirected_eq, Command.name?_redirected]
    refine ends_redirecting hdeaf ?_ fun t hown ht => ends_runWords ht argv
    intro r' h file opened hr hnote hopen hsaved hpointed
    cases hr
    have hfiles := stays_note s.host log
      (.opening stream.descriptor (s.env.resolve r.target) r.mode)
    have houtline := sameOutline_note s.host log
      (.opening stream.descriptor (s.env.resolve r.target) r.mode)
    rw [hnote] at hfiles houtline
    obtain ⟨rfl, htarget⟩ := deaf_acquired ((hfiles.sink? _).trans ht) hopen hsaved hpointed
    exact ⟨hpointed.asked, r, rfl, (houtline.target?_eq _).trans htarget⟩

end Shell

end LineShell
