import LineShell.Proofs.Execution.Agreement
import LineShell.Proofs.Host.Acceptance
import LineShell.Proofs.Host.Opening

/-!
# Restored descriptors

A redirection points its stream back on every way out, so that after a command every descriptor
stands for what it stood for.  The files that were opened meanwhile stay behind the others.
-/

namespace LineShell

open Host

namespace Host

/-- The host with a descriptor pointed at what a file's descriptor stands for, after what waited was
delivered. -/
def acquired (h : Host) (fd file : Descriptor) : Host :=
  { h.settle fd with files := (h.settle fd).files.guarded fd file }

def pointed (h : Host) (fd file : Descriptor) : Host := (h.acquired fd file).close file

theorem Kept.settle {P : Host → Prop} {h : Host} (hP : Kept P) (hh : P h) (fd : Descriptor) :
    P (h.settle fd) := by
  unfold Host.settle
  split
  · exact hP.flush hh
  · exact hh

theorem stays_settle (h : Host) (fd : Descriptor) : h.files.Stays (h.settle fd).files :=
  (kept_stays h.files).settle (.refl h.files) fd

theorem settle_of_pending_eq_nil {h : Host} (hpending : h.pending = []) (fd : Descriptor) :
    h.settle fd = h := by
  unfold settle
  rw [flush_of_pending_eq_nil hpending]
  split <;> rfl

theorem number?_acquired {h : Host} {fd file : Descriptor} {saved number : Nat}
    (hsaved : h.files.number? fd = some saved) (hfile : h.files.number? file = some number)
    (other : Descriptor) :
    (h.acquired fd file).files.number? other =
      if other = fd then some number
      else if other = h.files.firstFree then some saved else h.files.number? other := by
  have hsettled := stays_settle h fd
  rw [acquired, OpenFiles.number?_guarded ((hsettled.number fd).trans hsaved)
    ((hsettled.number file).trans hfile), hsettled.firstFree, hsettled.number]

theorem number?_pointed {h : Host} {fd file : Descriptor} {saved number : Nat}
    (hsaved : h.files.number? fd = some saved) (hfile : h.files.number? file = some number)
    (other : Descriptor) :
    (h.pointed fd file).files.number? other =
      if other = file then none
      else if other = fd then some number
      else if other = h.files.firstFree then some saved else h.files.number? other := by
  rw [pointed, close, OpenFiles.number?_close, number?_acquired hsaved hfile]

theorem descriptions_acquired (h : Host) (fd file : Descriptor) :
    (h.acquired fd file).files.descriptions = (h.settle fd).files.descriptions :=
  OpenFiles.descriptions_guarded ..

theorem sinks_acquired (h : Host) (fd file : Descriptor) :
    (h.acquired fd file).files.descriptions.map (·.sink) =
      h.files.descriptions.map (·.sink) := by
  rw [descriptions_acquired, (stays_settle h fd).sinks]

theorem sink?_acquired {h : Host} {fd file other : Descriptor} {saved number : Nat}
    (hsaved : h.files.number? fd = some saved) (hfile : h.files.number? file = some number)
    (hother : other ≠ h.files.firstFree) :
    (h.acquired fd file).files.sink? other =
      if other = fd then h.files.sink? file else h.files.sink? other := by
  have hnumber := number?_acquired hsaved hfile other
  rw [if_neg hother, ← hfile] at hnumber
  split
  · next hfd =>
      rw [if_pos hfd] at hnumber
      exact OpenFiles.sink?_congr (sinks_acquired h fd file) hnumber
  · next hfd =>
      rw [if_neg hfd] at hnumber
      exact OpenFiles.sink?_congr (sinks_acquired h fd file) hnumber

theorem sinks_pointed (h : Host) (fd file : Descriptor) :
    (h.pointed fd file).files.descriptions.map (·.sink) = h.files.descriptions.map (·.sink) :=
  sinks_acquired h fd file

theorem release_of_pending_eq_nil {h : Host} (hpending : h.pending = []) (g : Guard) :
    h.release g =
      { h with files := (h.files.assign g.descriptor g.saved).close g.saved } := by
  unfold release
  rw [settle_of_pending_eq_nil hpending]

theorem acquire_eq {h : Host} {fd file : Descriptor} {saved number : Nat}
    (hsaved : h.files.number? fd = some saved) (hfile : h.files.number? file = some number) :
    h.acquire fd file = (.ok ⟨fd, h.files.firstFree⟩, h.acquired fd file) := by
  unfold acquire
  simp only [(stays_settle h fd).number, (stays_settle h fd).firstFree, hsaved, hfile]
  rw [← (stays_settle h fd).firstFree]
  rfl

theorem acquire_closed {h : Host} {fd : Descriptor} (hclosed : h.files.number? fd = none)
    (file : Descriptor) :
    h.acquire fd file = (.error (.io (.os .badDescriptor)), h.settle fd) := by
  unfold acquire
  simp only [(stays_settle h fd).number, hclosed]

theorem extends_withOpened (h : Host) (mode : WriteMode) (sink : Sink) (tree : FileTree) :
    h.files.Extends (· = h.files.firstFree) [sink] (h.withOpened mode sink tree).files :=
  .add h.files ⟨sink, 0, decide (mode = .append)⟩

/-- Every descriptor stands for what it stood for, but that a standard stream may no longer be
closed, and no terminal has been opened since. -/
def Restored (h k : Host) : Prop :=
  ∃ more, (∀ stream, Sink.terminal stream ∉ more) ∧
    h.files.Extends (fun fd => ∃ stream : Stream, fd = stream.descriptor) more k.files

namespace Restored

variable {h k k' : Host}

theorem of_stays (hfiles : h.files.Stays k.files) : Restored h k :=
  ⟨[], by simp, .of_stays hfiles⟩

theorem trans (hk : Restored h k) (hk' : Restored k k') : Restored h k' := by
  obtain ⟨more, hmore, hfiles⟩ := hk
  obtain ⟨later, hlater, hfiles'⟩ := hk'
  refine ⟨more ++ later, ?_, hfiles.trans hfiles'⟩
  intro stream hmem
  rcases List.mem_append.mp hmem with hmem | hmem
  · exact hmore stream hmem
  · exact hlater stream hmem

theorem number (hk : Restored h k)
    (hopen : ∀ stream : Stream, h.files.number? stream.descriptor ≠ none) (fd : Descriptor) :
    k.files.number? fd = h.files.number? fd := by
  obtain ⟨more, -, hfiles⟩ := hk
  rcases hfiles.number fd with hsame | ⟨⟨stream, rfl⟩, hclosed, -⟩
  · exact hsame
  · exact absurd hclosed (hopen stream)

theorem sink?_of_some (hk : Restored h k) {fd : Descriptor} {sink : Sink}
    (hsink : h.files.sink? fd = some sink) : k.files.sink? fd = some sink := by
  obtain ⟨more, -, hfiles⟩ := hk
  exact hfiles.sink?_of_some hsink

theorem terminal_of_sink? (hk : Restored h k) {fd : Descriptor} {stream : Stream}
    (hsink : k.files.sink? fd = some (.terminal stream)) :
    h.files.sink? fd = some (.terminal stream) := by
  obtain ⟨more, hmore, hfiles⟩ := hk
  rcases hfiles.sink?_cases hsink with hbefore | hmem
  · exact hbefore
  · exact absurd hmem (hmore stream)

theorem accepts (hk : Restored h k) {stream : Stream} (ha : h.Accepts stream) :
    k.Accepts stream := by
  obtain ⟨sink, hsink, hne⟩ := ha
  exact ⟨sink, hk.sink?_of_some hsink, hne⟩

end Restored

theorem note_close (h : Host) {fd : Descriptor} (hne : Stream.stderr.descriptor ≠ fd) (log : Log)
    (e : Log.Event) : (h.close fd).note log e = ((h.note log e).1, (h.note log e).2.close fd) := by
  unfold note writeStream
  split
  · rw [write_close h hne]
    rcases h.write Stream.stderr.descriptor (Utf8.encode (e.line log.coloured)) with ⟨cause | _, k⟩
    · cases cause <;> rfl
    · rfl
  · rfl

theorem extends_openTarget {h opened : Host} {mode : WriteMode} {path : Text} {file : Descriptor}
    (ho : h.openTarget mode path = (.ok file, opened)) :
    h.files.number? file = none ∧
      ∃ sink, (∀ stream, sink ≠ .terminal stream) ∧
        h.files.Extends (· = file) [sink] opened.files := by
  rcases openTarget_cases h mode path with ⟨e, he⟩ | ⟨sink, tree, hopening, hopened⟩
  · rw [he] at ho
    cases ho
  · rw [hopened] at ho
    cases ho
    exact ⟨OpenFiles.number?_firstFree h.files, sink, hopening.sink_ne_terminal,
      extends_withOpened h mode sink tree⟩

theorem of_openTarget_error {h opened : Host} {mode : WriteMode} {path : Text} {e : ExecError}
    (ho : h.openTarget mode path = (.error e, opened)) : opened = h := by
  rcases openTarget_cases h mode path with ⟨cause, he⟩ | ⟨sink, tree, -, hopened⟩
  · rw [he] at ho
    cases ho
    rfl
  · rw [hopened] at ho
    cases ho

theorem sink?_pointed {h opened : Host} {mode : WriteMode} {path : Text}
    {fd file other : Descriptor} {saved : Nat} {sink : Sink}
    (ho : h.openTarget mode path = (.ok file, opened))
    (hsaved : opened.files.number? fd = some saved) (hother : h.files.sink? other = some sink) :
    (opened.pointed fd file).files.sink? other =
      if other = fd then opened.files.sink? file else some sink := by
  obtain ⟨hfree, _, -, hopened⟩ := extends_openTarget ho
  obtain ⟨number, hnumber⟩ := number?_of_openTarget ho
  obtain ⟨own, -, hown, -⟩ := OpenFiles.sink?_eq_some hother
  have hne : other ≠ file := by
    rintro rfl
    rw [hfree] at hown
    cases hown
  have hstill := hopened.sink?_of_some hother
  rw [pointed, close, OpenFiles.sink?_close, if_neg hne, sink?_acquired hsaved hnumber
    (OpenFiles.ne_firstFree_of_sink? hstill), hstill]

theorem restored_closed {h opened k : Host} {mode : WriteMode} {path : Text} {file : Descriptor}
    (ho : h.openTarget mode path = (.ok file, opened)) (hk : opened.files.Stays k.files) :
    Restored h (k.close file) := by
  obtain ⟨hfree, sink, hsink, hopened⟩ := extends_openTarget ho
  refine ⟨[sink], fun stream hmem => ?_, (hopened.closed hfree).stays (hk.close file)⟩
  exact hsink stream (List.mem_singleton.mp hmem).symm

theorem restored_release {h opened k : Host} {mode : WriteMode} {path : Text}
    {fd file : Descriptor} {saved : Nat} (ho : h.openTarget mode path = (.ok file, opened))
    (hfd : ∃ stream : Stream, fd = stream.descriptor)
    (hsaved : opened.files.number? fd = some saved)
    (hk : Restored (opened.pointed fd file) k) :
    Restored h (k.release ⟨fd, opened.files.firstFree⟩) := by
  obtain ⟨hfree, sink, hsink, hopened⟩ := extends_openTarget ho
  obtain ⟨number, hnumber⟩ := number?_of_openTarget ho
  obtain ⟨later, hlater, hfiles⟩ := hk
  have hsettled := stays_settle opened fd
  have hafter := hfiles.stays (stays_settle k fd)
  have hback := (hopened.stays hsettled).released hfree ((hsettled.number fd).trans hsaved)
    ((hsettled.number file).trans hnumber) hfd hafter
  rw [hsettled.firstFree] at hback
  refine ⟨[sink] ++ later, ?_, hback⟩
  intro stream hmem
  rcases List.mem_append.mp hmem with hmem | hmem
  · exact hsink stream (List.mem_singleton.mp hmem).symm
  · exact hlater stream hmem

end Host

namespace Shell

variable {s : Shell} {next : Action}

theorem pointing_opened {log : Log} {stream : Stream} {mode : WriteMode} {path : Text}
    {file : Descriptor} {saved : Nat} {opened : Host}
    (hopen : s.host.openTarget mode path = (.ok file, opened))
    (hsaved : opened.files.number? stream.descriptor = some saved) :
    pointing log stream mode path next s =
      noting log (.redirected stream.descriptor opened.files.firstFree)
        (holding log ⟨stream.descriptor, opened.files.firstFree⟩ (closing file next))
        (s.withHost (opened.acquired stream.descriptor file)) := by
  obtain ⟨number, hnumber⟩ := number?_of_openTarget hopen
  simp only [pointing, hopen, acquire_eq hsaved hnumber]

/-- What is noted about the guard may as well be noted when the file is closed. -/
theorem pointing_noted {log : Log} {stream : Stream} {mode : WriteMode} {path : Text}
    {file : Descriptor} {saved : Nat} {opened k : Host}
    (hopen : s.host.openTarget mode path = (.ok file, opened))
    (hsaved : opened.files.number? stream.descriptor = some saved)
    (hne : Stream.stderr.descriptor ≠ file)
    (hnote : (opened.pointed stream.descriptor file).note log
      (.redirected stream.descriptor opened.files.firstFree) = (.ok (), k)) :
    pointing log stream mode path next s =
      holding log ⟨stream.descriptor, opened.files.firstFree⟩ next (s.withHost k) := by
  rw [pointed, note_close _ hne] at hnote
  obtain ⟨hok, rfl⟩ := Prod.ext_iff.mp hnote
  rw [pointing_opened hopen hsaved]
  unfold noting
  rcases hnoted : (s.withHost (opened.acquired stream.descriptor file)).host.note log
    (.redirected stream.descriptor opened.files.firstFree) with ⟨e | _, entered⟩
  · rw [show (opened.acquired stream.descriptor file).note log _ = _ from hnoted] at hok
    cases hok
  · rw [show (opened.acquired stream.descriptor file).note log _ = _ from hnoted]
    rfl

theorem pointing_closed {log : Log} {stream : Stream} {mode : WriteMode} {path : Text}
    {file : Descriptor} {opened : Host}
    (hopen : s.host.openTarget mode path = (.ok file, opened))
    (hclosed : opened.files.number? stream.descriptor = none) :
    pointing log stream mode path next s = (.error (.io (.os .badDescriptor)),
      s.withHost ((opened.settle stream.descriptor).close file)) := by
  simp only [pointing, hopen, acquire_closed hclosed]

theorem pointing_ok {stream : Stream} {mode : WriteMode} {path : Text}
    {file : Descriptor} {saved : Nat} {opened : Host}
    (hopen : s.host.openTarget mode path = (.ok file, opened))
    (hsaved : opened.files.number? stream.descriptor = some saved) :
    pointing .silent stream mode path next s =
      let (result, after) :=
        next (s.withHost (opened.pointed stream.descriptor file))
      (result, after.withHost
        (after.host.release ⟨stream.descriptor, opened.files.firstFree⟩)) := by
  rw [pointing_opened hopen hsaved]
  rfl

theorem execute_plain (argv : List Text) :
    execute .silent (.plain argv) = runWords .silent argv := rfl

theorem execute_redirected_eq (log : Log) (argv : List Text) (stream : Stream) (r : Redirection)
    (s : Shell) :
    execute log (.redirected argv stream r) s =
      redirecting log stream (runWords log argv) (some r) s := by
  cases stream <;> rfl

theorem redirecting_some (log : Log) (stream : Stream) (next : Action)
    (r : Redirection) (s : Shell) :
    redirecting log stream next (some r) s =
      noting log (.opening stream.descriptor (s.env.resolve r.target) r.mode)
        (pointing log stream r.mode (s.env.resolve r.target) next) s := rfl

theorem execute_redirected {r : Redirection} {stream : Stream} {file : Descriptor} {saved : Nat}
    {opened : Host}
    (hopen : s.host.openTarget r.mode (s.env.resolve r.target) = (.ok file, opened))
    (hsaved : opened.files.number? stream.descriptor = some saved) (argv : List Text) :
    execute .silent (.redirected argv stream r) s =
      let (result, after) := runWords .silent argv
        (s.withHost (opened.pointed stream.descriptor file))
      (result, after.withHost
        (after.host.release ⟨stream.descriptor, opened.files.firstFree⟩)) := by
  rw [execute_redirected_eq, redirecting_some, noting_silent, pointing_ok hopen hsaved]

theorem execute_redirected_cases (argv : List Text) (stream : Stream) (r : Redirection)
    (s : Shell) :
    (∃ e, execute .silent (.redirected argv stream r) s = (.error e, s)) ∨
      (∃ file opened e,
        s.host.openTarget r.mode (s.env.resolve r.target) = (.ok file, opened) ∧
        execute .silent (.redirected argv stream r) s =
          (.error e, s.withHost ((opened.settle stream.descriptor).close file))) ∨
      ∃ file opened saved,
        s.host.openTarget r.mode (s.env.resolve r.target) = (.ok file, opened) ∧
        opened.files.number? stream.descriptor = some saved ∧
        execute .silent (.redirected argv stream r) s =
          let (result, after) := runWords .silent argv
            (s.withHost (opened.pointed stream.descriptor file))
          (result, after.withHost
            (after.host.release ⟨stream.descriptor, opened.files.firstFree⟩)) := by
  rcases openTarget_cases s.host r.mode (s.env.resolve r.target) with
    ⟨e, hrefused⟩ | ⟨sink, tree, -, hopen⟩
  · left
    refine ⟨.redirect (s.env.resolve r.target) e, ?_⟩
    rw [execute_redirected_eq, redirecting_some, noting_silent]
    simp only [pointing, hrefused]
    rfl
  · right
    cases hsaved : (s.host.withOpened r.mode sink tree).files.number? stream.descriptor with
    | none =>
        left
        refine ⟨_, _, .io (.os .badDescriptor), hopen, ?_⟩
        rw [execute_redirected_eq, redirecting_some, noting_silent, pointing_closed hopen hsaved]
    | some saved =>
        right
        exact ⟨_, _, saved, hopen, hsaved, execute_redirected hopen hsaved argv⟩

def Noted (log : Log) (s : Shell) : Prop := log = .silent ∨ s.own = .intact

def Restores (log : Log) (next : Action) : Prop :=
  ∀ s, (next s).2.Noted log → Restored s.host (next s).2.host

variable {log : Log}

theorem restored_note (log : Log) (h : Host) (e : Log.Event) : Restored h (h.note log e).2 :=
  .of_stays ((kept_stays h.files).note (.refl h.files) log e)

theorem restores_runWords (argv : List Text) : Restores log (runWords log argv) := by
  intro s _
  exact .of_stays (runWords_keeps (kept_stays s.host.files) (.refl s.host.files) argv)

theorem noting_cases {s : Shell} {e : Log.Event} {next : Action}
    (hnoted : (noting log e next s).2.Noted log) :
    ∃ h, s.host.note log e = (.ok (), h) ∧ noting log e next s = next (s.withHost h) := by
  unfold noting at hnoted ⊢
  rcases hnote : s.host.note log e with ⟨cause | _, h⟩
  · simp only [hnote] at hnoted
    rcases hnoted with rfl | hlost
    · rw [note_silent] at hnote
      cases hnote
    · cases hlost
  · exact ⟨h, rfl, rfl⟩

theorem restores_noting (hnext : Restores log next) (e : Log.Event) :
    Restores log (noting log e next) := by
  intro s hnoted
  obtain ⟨h, hnote, heq⟩ := noting_cases hnoted
  have hbefore := restored_note log s.host e
  rw [hnote] at hbefore
  rw [heq] at hnoted ⊢
  exact hbefore.trans (hnext (s.withHost h) hnoted)

theorem restores_pointing (hnext : Restores log next) (stream : Stream) (mode : WriteMode)
    (path : Text) : Restores log (pointing log stream mode path next) := by
  intro s hnoted
  rcases hopen : s.host.openTarget mode path with ⟨e | file, opened⟩
  · simp only [pointing, hopen, of_openTarget_error hopen]
    exact .of_stays (.refl s.host.files)
  · cases hsaved : opened.files.number? stream.descriptor with
    | none =>
        rw [pointing_closed hopen hsaved]
        exact restored_closed hopen (stays_settle opened stream.descriptor)
    | some saved =>
        rw [pointing_opened hopen hsaved] at hnoted ⊢
        obtain ⟨entered, hnote, heq⟩ := noting_cases hnoted
        rw [heq] at hnoted ⊢
        have hentered := (kept_stays _).note (.refl (opened.acquired stream.descriptor file).files)
          log (.redirected stream.descriptor opened.files.firstFree)
        rw [show (opened.acquired stream.descriptor file).note log _ = _ from hnote] at hentered
        -- what is done while the guard is held, and its release
        have hclosed : Restored (opened.pointed stream.descriptor file) (entered.close file) :=
          .of_stays (hentered.close file)
        have hdone : Restored (entered.close file) _ :=
          hnext (s.withHost (entered.close file)) hnoted
        have hreleased := restored_release hopen ⟨stream, rfl⟩ hsaved (hclosed.trans hdone)
        exact hreleased.trans (restored_note log _ _)

theorem restores_redirecting (hnext : Restores log next) (stream : Stream)
    (redirection : Option Redirection) :
    Restores log (redirecting log stream next redirection) := by
  cases redirection with
  | none => exact hnext
  | some r =>
      intro s
      exact restores_noting (restores_pointing hnext stream r.mode (s.env.resolve r.target))
        (.opening stream.descriptor (s.env.resolve r.target) r.mode) s

/-- After a command every descriptor stands for what it stood for, whatever became of it. -/
theorem restores_execute (c : Command) : Restores log (execute log c) :=
  restores_redirecting (restores_redirecting (restores_runWords c.argv) .stderr c.stderr)
    .stdout c.stdout

end Shell

end LineShell
