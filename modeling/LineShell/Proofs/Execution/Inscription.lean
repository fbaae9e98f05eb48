import LineShell.Proofs.Command
import LineShell.Proofs.Execution.Notes
import LineShell.Proofs.Execution.Pieces
import LineShell.Proofs.Host.Inscription

/-!
# Commands and what a file holds

A command that redirects no stream to a file leaves the file as it is, if the streams of the session
lead elsewhere.  An `echo` whose standard output is redirected to the file adds its line; one whose
standard error is redirected there adds only what the log notes meanwhile.
-/

namespace LineShell

open Host

def OpenFiles.Elsewhere (o : OpenFiles) (f : Place) : Prop :=
  ∀ stream : Stream, ∃ sink, o.sink? stream.descriptor = some sink ∧
    sink ≠ .device .full ∧ sink ≠ .file f

namespace OpenFiles.Elsewhere

variable {h k : Host} {f : Place}

theorem restored (he : h.files.Elsewhere f) (hk : Restored h k) : k.files.Elsewhere f := by
  intro stream
  obtain ⟨sink, hsink, hne⟩ := he stream
  exact ⟨sink, hk.sink?_of_some hsink, hne⟩

theorem withOpened (he : h.files.Elsewhere f) (mode : WriteMode) (sink : Sink) (tree : FileTree) :
    (h.withOpened mode sink tree).files.Elsewhere f := by
  intro stream
  obtain ⟨own, hown, hne⟩ := he stream
  exact ⟨own, (extends_withOpened h mode sink tree).sink?_of_some hown, hne⟩

theorem spares (he : h.files.Elsewhere f) : h.Spares f := by
  intro stream hfile
  obtain ⟨sink, hsink, -, hne⟩ := he stream
  rw [hsink] at hfile
  exact hne (Option.some.inj hfile)

theorem accepts (he : h.files.Elsewhere f) (stream : Stream) : h.Accepts stream := by
  obtain ⟨sink, hsink, hne, -⟩ := he stream
  exact ⟨sink, hsink, hne⟩

theorem number (he : h.files.Elsewhere f) (stream : Stream) :
    ∃ n, h.files.number? stream.descriptor = some n ∧ n < h.files.descriptions.length := by
  obtain ⟨sink, hsink, -⟩ := he stream
  obtain ⟨n, d, hn, hd, -⟩ := sink?_eq_some hsink
  exact ⟨n, hn, (List.getElem?_eq_some_iff.mp hd).1⟩

theorem ne_firstFree (he : h.files.Elsewhere f) (stream : Stream) :
    stream.descriptor ≠ h.files.firstFree := by
  obtain ⟨n, hn, -⟩ := he.number stream
  exact OpenFiles.ne_firstFree hn

theorem note (he : h.files.Elsewhere f) (log : Log) (e : Log.Event) :
    ∃ k, h.note log e = (.ok (), k) ∧ k.files.Elsewhere f ∧
      k.tree.content? f = h.tree.content? f ∧ ∀ path, k.target? path = h.target? path := by
  have hok : (h.note log e).1 = .ok () := by
    rcases note_result h log e with hok | hdeaf
    · exact hok
    · obtain ⟨sink, hsink, hne⟩ := he.accepts .stderr
      have hfull := hdeaf.full
      rw [hsink] at hfull
      exact absurd (Option.some.inj hfull) hne
  have hkept := (kept_spares f (h.tree.get? f)).note ⟨he.spares, rfl⟩ log e
  have houtline := sameOutline_note h log e
  exact ⟨_, Prod.ext hok rfl, he.restored (Shell.restored_note log h e),
    FileTree.content?_congr hkept.2, fun path => (houtline.target?_eq path).symm⟩

end OpenFiles.Elsewhere

/-! ## A stream that leads to the end of the file -/

structure Host.Beside (f : Place) (stream : Stream) (number : Nat) (content : Bytes)
    (h : Host) : Prop where
  inscribed : Inscribed f number content h
  apart : h.files.number? stream.descriptor ≠ some number
  elsewhere : ∃ sink, h.files.sink? stream.descriptor = some sink ∧
    sink ≠ .device .full ∧ sink ≠ .file f

/-- A stream leads to the end of a file, and the other one elsewhere. -/
structure Host.Directed (f : Place) (stream : Stream) (number : Nat) (content : Bytes)
    (h : Host) : Prop where
  own : h.files.number? stream.descriptor = some number
  other : Beside f stream.other number content h

namespace Host

variable {h k : Host} {f : Place} {stream : Stream} {number : Nat} {content after : Bytes}

theorem Beside.of_inscribed (hb : Beside f stream number content h)
    (hfiles : h.files.Stays k.files) (hk : Inscribed f number after k) :
    Beside f stream number after k := by
  refine ⟨hk, ?_, ?_⟩
  · rw [hfiles.number]
    exact hb.apart
  · rw [hfiles.sink?]
    exact hb.elsewhere

theorem Beside.await (hb : Beside f stream number content h) (waiting : Bytes) :
    Beside f stream number content { h with pending := waiting } :=
  ⟨hb.inscribed.await waiting, hb.apart, hb.elsewhere⟩

theorem Beside.writeStream (hb : Beside f stream number content h) (data : Bytes) :
    ∃ k, h.writeStream stream data = (.ok (), k) ∧ h.files.Stays k.files ∧
      Beside f stream number content k := by
  obtain ⟨sink, hsink, hroom, hne⟩ := hb.elsewhere
  have hok : (h.writeStream stream data).1 = .ok () := by
    rcases writeStream_result h stream data with hok | hfull
    · exact hok
    · rw [hsink] at hfull
      exact absurd (Option.some.inj hfull) hroom
  have hspared : h.files.sink? stream.descriptor ≠ some (.file f) := by
    rw [hsink]
    exact fun heq => hne (Option.some.inj heq)
  have hinscribed := hb.inscribed.write_other hb.apart hspared data
  have hfiles := stays_write h stream.descriptor data
  rw [← writeStream_snd] at hinscribed hfiles
  exact ⟨_, Prod.ext hok rfl, hfiles, hb.of_inscribed hfiles hinscribed⟩

theorem Beside.flows : Flows fun _ h => Beside f .stdout number content h where
  await := fun hb waiting => hb.await waiting
  write := fun hb data => by
    obtain ⟨k, hwrite, -, hk⟩ := hb.writeStream data
    exact ⟨k, hwrite, hk⟩

namespace Directed

theorem writeStream_own (hd : Directed f stream number content h) (data : Bytes) :
    ∃ k, h.writeStream stream data = (.ok (), k) ∧
      Directed f stream number (content ++ data) k := by
  obtain ⟨hok, hinscribed⟩ := hd.other.inscribed.write_own hd.own data
  have hfiles := stays_write h stream.descriptor data
  refine ⟨(h.write stream.descriptor data).2, ?_, ?_, hd.other.of_inscribed hfiles hinscribed⟩
  · unfold Host.writeStream
    rcases hwrite : h.write stream.descriptor data with ⟨result, k⟩
    rw [hwrite] at hok
    cases hok
    rfl
  · rw [hfiles.number, hd.own]

theorem writeStream_other (hd : Directed f stream number content h) (data : Bytes) :
    ∃ k, h.writeStream stream.other data = (.ok (), k) ∧
      Directed f stream number content k := by
  obtain ⟨k, hwrite, hfiles, hk⟩ := hd.other.writeStream data
  refine ⟨k, hwrite, ?_, hk⟩
  rw [hfiles.number, hd.own]

theorem flows (f : Place) (stream : Stream) (number : Nat) (content : Bytes) :
    Flows fun done h =>
      Directed f stream number (if stream = .stdout then done else content) h where
  await := fun hd waiting => ⟨hd.own, hd.other.await waiting⟩
  write := fun hd data => by
    cases stream with
    | stdout => exact hd.writeStream_own data
    | stderr => exact hd.writeStream_other data

theorem note (hd : Directed f stream number content h) (log : Log) (e : Log.Event) :
    ∃ k, h.note log e = (.ok (), k) ∧ k.pending = h.pending ∧
      Directed f stream number
        (content ++ if stream = .stderr then log.written e else []) k := by
  have hwaits := pending_writeStream h .stderr (log.written e)
  rw [note_eq]
  cases stream with
  | stdout =>
      obtain ⟨k, hwrite, hk⟩ := hd.writeStream_other (log.written e)
      change h.writeStream .stderr _ = _ at hwrite
      rw [hwrite] at hwaits ⊢
      exact ⟨k, rfl, hwaits, by simpa using hk⟩
  | stderr =>
      obtain ⟨k, hwrite, hk⟩ := hd.writeStream_own (log.written e)
      rw [hwrite] at hwaits ⊢
      exact ⟨k, rfl, hwaits, by simpa using hk⟩

end Directed

/-- Pointing a stream at a description at the end of the file delivers before what waits for it. -/
theorem directed_pointed (he : h.files.Elsewhere f) {file : Descriptor}
    (hfile : h.files.number? file = some number)
    (hother : ∀ stream : Stream, stream.descriptor ≠ file) (hi : Inscribed f number content h)
    (hfresh : ∀ stream : Stream, h.files.number? stream.descriptor ≠ some number)
    (stream : Stream) :
    Directed f stream number content (h.pointed stream.descriptor file) ∧
      (stream = .stdout → (h.pointed stream.descriptor file).pending = []) := by
  have hsettled : Inscribed f number content (h.settle stream.descriptor) ∧
      (stream = .stdout → (h.settle stream.descriptor).pending = []) := by
    cases stream with
    | stdout =>
        have hb : Beside f .stdout number content h := ⟨hi, hfresh .stdout, he .stdout⟩
        obtain ⟨k, hflush, hk, hpending⟩ := @Flows.flush _ [] h Beside.flows hb
        have hsettle : h.settle Stream.stdout.descriptor = k := by
          rw [settle, if_pos rfl, hflush]
        rw [hsettle]
        exact ⟨hk.inscribed, fun _ => hpending⟩
    | stderr => exact ⟨hi, fun hstdout => by cases hstdout⟩
  obtain ⟨saved, hsaved, -⟩ := he.number stream
  obtain ⟨own, hown, -⟩ := he.number stream.other
  have hsame : (h.pointed stream.descriptor file).files.number? stream.other.descriptor =
      h.files.number? stream.other.descriptor := by
    rw [number?_pointed hsaved hfile, if_neg (hother stream.other),
      if_neg stream.other_descriptor_ne, if_neg (OpenFiles.ne_firstFree hown)]
  have hdescriptions : (h.pointed stream.descriptor file).files.descriptions =
      (h.settle stream.descriptor).files.descriptions := descriptions_acquired ..
  refine ⟨⟨?_, ⟨?_, hsettled.1.file⟩, ?_, ?_⟩, hsettled.2⟩
  · rw [number?_pointed hsaved hfile, if_neg (hother stream), if_pos rfl]
  · rw [hdescriptions]
    exact hsettled.1.description
  · rw [hsame]
    exact hfresh stream.other
  · rw [OpenFiles.sink?_congr (sinks_pointed h stream.descriptor file) hsame]
    exact he stream.other

theorem directed_opened {mode : WriteMode} {path : Text} {tree : FileTree}
    (he : h.files.Elsewhere f) (hopening : Opening h mode path (.file f) tree) (stream : Stream) :
    let opened := (h.withOpened mode (.file f) tree).pointed stream.descriptor h.files.firstFree
    Directed f stream h.files.descriptions.length
        (if mode = .truncate then [] else (h.tree.content? f).getD []) opened ∧
      (stream = .stdout → opened.pending = []) := by
  have hinscribed : Inscribed f h.files.descriptions.length
      (if mode = .truncate then [] else (h.tree.content? f).getD [])
      (h.withOpened mode (.file f) tree) := by
    refine ⟨⟨_, getElem?_withOpened h mode (.file f) tree, rfl, ?_⟩, hopening.content?⟩
    cases mode with
    | append => exact .inl rfl
    | truncate => exact .inr rfl
  refine directed_pointed (he.withOpened mode (.file f) tree)
    (number?_withOpened_firstFree h mode (.file f) tree) he.ne_firstFree hinscribed
    (fun one => ?_) stream
  obtain ⟨n, hn, hbound⟩ := he.number one
  rw [number?_withOpened, if_neg (he.ne_firstFree one), hn, ne_eq, Option.some.injEq]
  exact Nat.ne_of_lt hbound

end Host

namespace Shell

variable {s : Shell} {log : Log} {next : Action} {f : Place}

/-! ## Commands that lead elsewhere -/

def Spared (f : Place) (next : Action) : Prop :=
  ∀ s, s.host.Spares f → s.host.files.Stays (next s).2.host.files ∧
    (next s).2.host.Spares f ∧ (next s).2.host.tree.get? f = s.host.tree.get? f

theorem spared_runWords (f : Place) (argv : List Text) : Spared f (runWords log argv) := by
  intro s hs
  refine ⟨runWords_keeps (kept_stays s.host.files) (.refl s.host.files) argv, ?_⟩
  exact runWords_keeps (kept_spares f (s.host.tree.get? f)) ⟨hs, rfl⟩ argv

theorem spares_acquired {h : Host} {mode : WriteMode} {sink : Sink} {tree : FileTree}
    (he : h.files.Elsewhere f) (hsink : sink ≠ .file f) (stream : Stream) :
    let entered := (h.withOpened mode sink tree).acquired stream.descriptor h.files.firstFree
    entered.Spares f ∧ entered.tree.get? f = tree.get? f := by
  intro entered
  have hopened := he.withOpened mode sink tree
  obtain ⟨saved, hsaved, -⟩ := hopened.number stream
  obtain ⟨-, hsame⟩ :=
    (kept_spares f (tree.get? f)).settle ⟨hopened.spares, rfl⟩ stream.descriptor
  refine ⟨fun one => ?_, hsame⟩
  have hfile := number?_withOpened_firstFree h mode sink tree
  rw [sink?_acquired hsaved hfile (hopened.ne_firstFree one)]
  split
  · rw [sink?_withOpened, ne_eq, Option.some.injEq]
    exact hsink
  · exact hopened.spares one

theorem get?_noting (hs : s.host.Spares f) (e : Log.Event)
    (hnext : ∀ h : Host, h.Spares f → s.host.files.Stays h.files →
      (next (s.withHost h)).2.host.tree.get? f = h.tree.get? f) :
    (noting log e next s).2.host.tree.get? f = s.host.tree.get? f := by
  have hkept := (kept_spares f (s.host.tree.get? f)).note ⟨hs, rfl⟩ log e
  have hfiles := stays_note s.host log e
  unfold noting
  rcases hnote : s.host.note log e with ⟨cause | _, h⟩
  · rw [hnote] at hkept
    exact hkept.2
  · rw [hnote] at hkept hfiles
    exact (hnext h hkept.1 hfiles).trans hkept.2

theorem get?_holding {h opened : Host} {stream : Stream} {mode : WriteMode} {path : Text}
    {file : Descriptor} {saved : Nat} (he : h.files.Elsewhere f)
    (hopen : h.openTarget mode path = (.ok file, opened))
    (hsaved : opened.files.number? stream.descriptor = some saved)
    (hentered : (opened.acquired stream.descriptor file).files.Stays s.host.files)
    (hs : s.host.Spares f) (hnext : Spared f next) :
    (holding log ⟨stream.descriptor, opened.files.firstFree⟩ (closing file next)
      s).2.host.tree.get? f = s.host.tree.get? f := by
  have hclosed : (s.withHost (s.host.close file)).host.Spares f := by
    intro one hone
    rw [withHost, close, OpenFiles.sink?_close] at hone
    split at hone
    · cases hone
    · exact hs one hone
  obtain ⟨hfiles, hspares, hsame⟩ := hnext (s.withHost (s.host.close file)) hclosed
  -- what waits is delivered before the switch back, and the note comes after it
  have hreleased := restored_release hopen ⟨stream, rfl⟩ hsaved
    (.of_stays ((hentered.close file).trans hfiles))
  have hback := ((kept_spares f _).settle ⟨hspares, hsame⟩ stream.descriptor).2
  have hnoted := (kept_spares f _).note ⟨(he.restored hreleased).spares, hback⟩ log
    (.restored stream.descriptor)
  exact hnoted.2

theorem get?_pointing {stream : Stream} {mode : WriteMode} {path : Text}
    (he : s.host.files.Elsewhere f) (htarget : s.host.target? path ≠ some (.file f))
    (hnext : Spared f next) :
    (pointing log stream mode path next s).2.host.tree.get? f = s.host.tree.get? f := by
  rcases openTarget_cases s.host mode path with ⟨e, hrefused⟩ | ⟨sink, tree, hopening, hopened⟩
  · simp only [pointing, hrefused]
    rfl
  · have hsink : sink ≠ .file f := by
      rintro rfl
      exact htarget hopening.target?_eq
    obtain ⟨saved, hsaved, -⟩ := (he.withOpened mode sink tree).number stream
    obtain ⟨hentered, hsame⟩ := @spares_acquired f _ mode _ tree he hsink stream
    rw [pointing_opened hopened hsaved]
    refine (get?_noting hentered _ fun h hh hfiles => ?_).trans
      (hsame.trans (hopening.get?_of_ne hsink))
    exact get?_holding he hopened hsaved hfiles hh hnext

/-! ## An `echo` into the file -/

def echoed (log : Log) (args : List Text) : Stream → Bytes
  | .stdout => Utf8.encode ([' '].intercalate args ++ ['\n'])
  | .stderr => log.written (.builtin Builtin.echo.name)

theorem runWords_echo {stream : Stream} {number : Nat} {content : Bytes}
    (hd : Directed f stream number content s.host)
    (hpending : stream = .stdout → s.host.pending = []) (args : List Text) :
    ∃ k, runWords log (Builtin.echo.name :: args) s = (.ok (.code 0), s.withHost k) ∧
      Directed f stream number (content ++ echoed log args stream) k ∧ k.pending = [] := by
  obtain ⟨h, hnote, hwaits, hh⟩ := hd.note log (.builtin Builtin.echo.name)
  have hflows := Directed.flows f stream number (content ++ echoed log args stream)
  have hstart : Directed f stream number (if stream = .stdout then content
      else content ++ echoed log args stream) h := by
    cases stream with
    | stdout => simpa using hh
    | stderr => simpa [echoed] using hh
  obtain ⟨k, k', hprinted, hflushed, hk, hempty⟩ :=
    hflows.printAll_flush hstart [[' '].intercalate args, ['\n']]
  refine ⟨k', ?_, ?_, hempty⟩
  · simp only [runWords, Builtin.ofName?_name, noting, hnote, runBuiltin, Builtin.run, withHost,
      hprinted, hflushed]
  · cases stream with
    | stdout =>
        rw [hwaits, hpending rfl, List.append_nil] at hk
        simpa [echoed] using hk
    | stderr => simpa using hk

theorem content?_pointing_echo {stream : Stream} {mode : WriteMode} {path : Text}
    (he : s.host.files.Elsewhere f) (htarget : s.host.target? path = some (.file f))
    (args : List Text) :
    (pointing log stream mode path (runWords log (Builtin.echo.name :: args))
        s).2.host.tree.content? f =
      some ((if mode = .truncate then [] else (s.host.tree.content? f).getD []) ++
        (if stream = .stderr then
          log.written (.redirected stream.descriptor s.host.files.secondFree) else []) ++
        echoed log args stream) := by
  obtain ⟨tree, hopening, hopened⟩ := openTarget_of_target? htarget mode
  obtain ⟨hdirected, hwaits⟩ := directed_opened he hopening stream
  obtain ⟨saved, hsaved, -⟩ := (he.withOpened mode (.file f) tree).number stream
  have hfree : (s.host.withOpened mode (.file f) tree).files.firstFree = s.host.files.secondFree :=
    OpenFiles.firstFree_add ..
  obtain ⟨k, hnote, hpending, hk⟩ :=
    hdirected.note log (.redirected stream.descriptor s.host.files.secondFree)
  rw [← hfree] at hnote
  rw [pointing_noted hopened hsaved (he.ne_firstFree .stderr) hnote]
  obtain ⟨k', hrun, hk', hempty⟩ := @runWords_echo (s.withHost k) log _ _ _ _ hk
    (fun hstdout => hpending.trans (hwaits hstdout)) args
  have hran : k.files.Stays k'.files := by
    have hkept : k.files.Stays
        (runWords log (Builtin.echo.name :: args) (s.withHost k)).2.host.files :=
      runWords_keeps (kept_stays k.files) (.refl k.files) (Builtin.echo.name :: args)
    rwa [hrun] at hkept
  have hnoted : ((s.host.withOpened mode (.file f) tree).pointed stream.descriptor
      s.host.files.firstFree).files.Stays k.files := by
    have hkept := stays_note ((s.host.withOpened mode (.file f) tree).pointed stream.descriptor
      s.host.files.firstFree) log (.redirected stream.descriptor
        (s.host.withOpened mode (.file f) tree).files.firstFree)
    rwa [hnote] at hkept
  have hreleased := restored_release hopened ⟨stream, rfl⟩ hsaved (.of_stays (hnoted.trans hran))
  obtain ⟨perms, hfile⟩ := hk'.other.inscribed.file
  have hback : (k'.release ⟨stream.descriptor,
      (s.host.withOpened mode (.file f) tree).files.firstFree⟩).tree.get? f = k'.tree.get? f := by
    unfold release
    rw [settle_of_pending_eq_nil hempty]
  have hafter := (kept_spares f _).note ⟨(he.restored hreleased).spares, hback⟩ log
    (.restored stream.descriptor)
  apply FileTree.content?_eq_some
  unfold holding
  rw [hrun]
  exact hafter.2.trans hfile

end Shell

/-! ## Commands of a line -/

def Command.redirection? (c : Command) : Option (Stream × Redirection) :=
  match c.stdout, c.stderr with
  | some r, _ => some (.stdout, r)
  | none, some r => some (.stderr, r)
  | none, none => none

structure Inscription where
  stream : Stream
  mode : WriteMode
  words : List Text
  deriving DecidableEq, Repr

namespace Inscription

/-- What an `echo` of the words adds to the file: its line, or what the log notes while standard
error leads there and is kept open under another descriptor. -/
def data (log : Log) (saved : Descriptor) (x : Inscription) : Bytes :=
  match x.stream with
  | .stdout => Utf8.encode ([' '].intercalate x.words.tail ++ ['\n'])
  | .stderr =>
      log.written (.redirected Stream.stderr.descriptor saved) ++
        log.written (.builtin Builtin.echo.name)

def extend (log : Log) (saved : Descriptor) (content : Option Bytes) (x : Inscription) :
    Option Bytes :=
  some ((if x.mode = .truncate then [] else content.getD []) ++ x.data log saved)

end Inscription

namespace Shell

variable {s : Shell} {log : Log} {f : Place}

def inscription? (f : Place) (s : Shell) (c : Command) : Option Inscription :=
  match c.redirection? with
  | none => none
  | some (stream, r) =>
      if s.host.target? (s.env.resolve r.target) = some (.file f) then
        some ⟨stream, r.mode, c.argv⟩
      else none

theorem inscription?_redirected (argv : List Text) (stream : Stream) (r : Redirection) :
    inscription? f s (.redirected argv stream r) =
      if s.host.target? (s.env.resolve r.target) = some (.file f) then some ⟨stream, r.mode, argv⟩
      else none := by
  cases stream <;> rfl

/-- A command of a line that inscribes nothing but an `echo` in a file: the file holds what it held,
and after an `echo` that with its data. -/
theorem content?_execute (he : s.host.files.Elsewhere f) {line : Text} {c : Command}
    (hline : Command.ofLine line = .ok c)
    (hecho : ∀ x, inscription? f s c = some x → x.words.head? = some Builtin.echo.name) :
    (execute log c s).2.host.tree.content? f =
      (inscription? f s c).toList.foldl (Inscription.extend log s.host.files.secondFree)
        (s.host.tree.content? f) := by
  rcases Command.plain_or_redirected hline with hc | ⟨stream, r, hc⟩
  · rw [hc]
    exact FileTree.content?_congr (spared_runWords f c.argv s he.spares).2.2
  · generalize c.argv = argv at hc
    subst hc
    rw [inscription?_redirected] at hecho ⊢
    rw [execute_redirected_eq, redirecting_some]
    generalize s.env.resolve r.target = path at hecho ⊢
    obtain ⟨h, hnote, hother, hcontent, htarget⟩ :=
      he.note log (.opening stream.descriptor path r.mode)
    have hopening : ∀ next, noting log (.opening stream.descriptor path r.mode) next s =
        next (s.withHost h) := fun next => by simp only [noting, hnote]
    rw [hopening, ← hcontent, ← htarget]
    rw [← htarget] at hecho
    have hs : (s.withHost h).host.files.Elsewhere f := hother
    split
    · next hfile =>
        obtain ⟨args, rfl⟩ : ∃ args, argv = Builtin.echo.name :: args := by
          rw [if_pos hfile] at hecho
          exact List.head?_eq_some_iff.mp (hecho _ rfl)
        have hfiles := stays_note s.host log (.opening stream.descriptor path r.mode)
        rw [hnote] at hfiles
        have hsecond : h.files.secondFree = s.host.files.secondFree :=
          OpenFiles.secondFree_congr hfiles.number
        rw [content?_pointing_echo hs hfile args]
        cases stream <;> simp [Inscription.extend, Inscription.data, echoed, withHost, hsecond]
    · next hfile =>
        exact FileTree.content?_congr (get?_pointing hs hfile (spared_runWords f argv))

end Shell

end LineShell
