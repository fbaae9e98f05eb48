import LineShell.Proofs.Execution.Inscription
import LineShell.Proofs.Host.Revision
import LineShell.Proofs.Interpreter.Play

/-!
# What a line leaves of the files

A line opens one file at most, the one that the target of its redirection leads to, and writes to no
other unless the streams of the session lead there.  So every other entry stays as it was, whatever
the line comes to, and the file of the target is created, rewritten or continued.
-/

namespace LineShell

open Host

namespace Host

variable {h : Host} {p : Place} {watched : Nat → Prop} {opened : Option WriteMode}
  {before : Option Entry}

theorem Tracks.of_descriptions (ht : Tracks watched opened p before h) {files : OpenFiles}
    (hdescriptions : files.descriptions = h.files.descriptions)
    (hstreams : ∀ (stream : Stream) n, files.number? stream.descriptor = some n → watched n) :
    Tracks watched opened p before { h with files := files } := by
  refine ⟨ht.entry, hstreams, fun n d hn hd hsink => ?_⟩
  change files.descriptions[n]? = some d at hd
  rw [hdescriptions] at hd
  exact ht.leading n d hn hd hsink

theorem Tracks.acquired (ht : Tracks watched opened p before h) {stream : Stream}
    {file : Descriptor} {saved number : Nat}
    (hsaved : h.files.number? stream.descriptor = some saved)
    (hfile : h.files.number? file = some number) (hnumber : watched number) :
    Tracks watched opened p before (h.acquired stream.descriptor file) := by
  have hsettled := (kept_tracks watched opened p before).settle ht stream.descriptor
  refine hsettled.of_descriptions (descriptions_acquired h stream.descriptor file)
    fun one n hn => ?_
  change (h.acquired stream.descriptor file).files.number? _ = _ at hn
  rw [number?_acquired hsaved hfile] at hn
  split at hn
  · cases hn
    exact hnumber
  · split at hn
    · cases hn
      exact ht.streams stream saved hsaved
    · exact ht.streams one n hn

theorem Tracks.close (ht : Tracks watched opened p before h) (fd : Descriptor) :
    Tracks watched opened p before (h.close fd) := by
  refine ht.of_descriptions (OpenFiles.descriptions_close h.files fd) fun one n hn => ?_
  rw [OpenFiles.number?_close] at hn
  split at hn
  · cases hn
  · exact ht.streams one n hn

theorem Tracks.release (ht : Tracks watched opened p before h) (g : Guard)
    (hsaved : ∀ n, h.files.number? g.saved = some n → watched n) :
    Tracks watched opened p before (h.release g) := by
  have hsettled := (kept_tracks watched opened p before).settle ht g.descriptor
  have hfiles := stays_settle h g.descriptor
  have hassigned : Tracks watched opened p before { h.settle g.descriptor with
      files := (h.settle g.descriptor).files.assign g.descriptor g.saved } := by
    cases hnumber : (h.settle g.descriptor).files.number? g.saved with
    | none =>
        unfold OpenFiles.assign
        rw [hnumber]
        exact hsettled
    | some number =>
        refine hsettled.of_descriptions (OpenFiles.descriptions_assign ..) fun one n hn => ?_
        rw [OpenFiles.number?_assign hnumber] at hn
        split at hn
        · cases hn
          exact hsaved number ((hfiles.number _).symm.trans hnumber)
        · exact hsettled.streams one n hn
  exact hassigned.close g.saved

end Host

namespace Shell

variable {s : Shell} {log : Log} {next : Action} {p : Place} {watched : Nat → Prop}
  {opened : Option WriteMode} {before : Option Entry}

theorem tracks_noting (ht : Tracks watched opened p before s.host) (e : Log.Event)
    (hnext : ∀ h, (s.host.note log e).2 = h → Tracks watched opened p before h →
      Tracks watched opened p before (next (s.withHost h)).2.host) :
    Tracks watched opened p before (noting log e next s).2.host := by
  have hnoted := (kept_tracks watched opened p before).note ht log e
  unfold noting
  rcases hnote : s.host.note log e with ⟨cause | _, h⟩
  · rw [hnote] at hnoted
    exact hnoted
  · rw [hnote] at hnoted
    exact hnext h (congrArg Prod.snd hnote) hnoted

theorem tracks_runWords (ht : Tracks watched opened p before s.host) (argv : List Text) :
    Tracks watched opened p before (runWords log argv s).2.host :=
  runWords_keeps (kept_tracks watched opened p before) ht argv

theorem tracks_holding (ht : Tracks watched opened p before s.host) (g : Guard)
    {file : Descriptor} (hsaved : ∀ n, s.host.files.number? g.saved = some n → watched n)
    (argv : List Text) :
    Tracks watched opened p before
      (holding log g (closing file (runWords log argv)) s).2.host := by
  let closed := s.withHost (s.host.close file)
  have hran : Tracks watched opened p before (runWords log argv closed).2.host :=
    tracks_runWords (s := closed) (ht.close file) argv
  have hstays : closed.host.files.Stays (runWords log argv closed).2.host.files :=
    runWords_keeps (kept_stays closed.host.files) (.refl closed.host.files) argv
  refine (kept_tracks watched opened p before).note (hran.release g fun n hn => ?_) log _
  refine hsaved n ?_
  rw [hstays.number] at hn
  change (s.host.files.close file).number? g.saved = some n at hn
  rw [OpenFiles.number?_close] at hn
  split at hn
  · cases hn
  · exact hn

theorem tracks_pointing (ht : Tracks watched opened p before s.host) {stream : Stream}
    {mode : WriteMode} {path : Text}
    (hopened : s.host.target? path = some (.file p) → opened = some mode)
    (hnew : watched s.host.files.descriptions.length) (argv : List Text) :
    Tracks watched opened p before
      (pointing log stream mode path (runWords log argv) s).2.host := by
  rcases openTarget_cases s.host mode path with ⟨e, hrefused⟩ | ⟨sink, tree, hopening, hopen⟩
  · simp only [pointing, hrefused]
    exact ht
  · have hmode : sink = .file p → opened = some mode := by
      rintro rfl
      exact hopened hopening.target?_eq
    have hafter := ht.withOpened hopening hmode hnew
    have hfile := number?_withOpened_firstFree s.host mode sink tree
    cases hsaved : (s.host.withOpened mode sink tree).files.number? stream.descriptor with
    | none =>
        rw [pointing_closed hopen hsaved]
        exact ((kept_tracks watched opened p before).settle hafter stream.descriptor).close _
    | some saved =>
        rw [pointing_opened hopen hsaved]
        refine tracks_noting (hafter.acquired hsaved hfile hnew) _ ?_
        rintro entered rfl hentered
        refine tracks_holding hentered _ (fun n hn => ?_) argv
        have hne := OpenFiles.ne_firstFree hsaved
        rw [withHost, withHost, (stays_note _ log _).number, number?_acquired hsaved hfile,
          if_neg hne.symm, if_pos rfl] at hn
        cases hn
        exact hafter.streams stream saved hsaved

def opens? (s : Shell) (line : Text) (p : Place) : Option WriteMode :=
  match Command.ofLine line with
  | .error _ => none
  | .ok c => (inscription? p s c).map (·.mode)

theorem tracks_execute (hs : s.host.Spares p) {line : Text} {c : Command}
    (hline : Command.ofLine line = .ok c) :
    MayLeave ((inscription? p s c).map (·.mode)) (s.host.tree.get? p)
      ((execute log c s).2.host.tree.get? p) := by
  -- besides the streams as they are, the description that is made next is watched
  let watched : Nat → Prop := fun n => n = s.host.files.descriptions.length ∨
    ∃ stream : Stream, s.host.files.number? stream.descriptor = some n
  have hstart (opened : Option WriteMode) :
      Tracks watched opened p (s.host.tree.get? p) s.host := by
    refine ⟨.refl opened _, fun stream n hn => .inr ⟨stream, hn⟩, fun n d hn hd hsink => ?_⟩
    rcases hn with rfl | ⟨stream, hn⟩
    · have hlength := (List.getElem?_eq_some_iff.mp hd).1
      exact absurd hlength (Nat.lt_irrefl _)
    · refine absurd ?_ (hs stream)
      simp [OpenFiles.sink?, OpenFiles.description?, hn, hd, hsink]
  rcases Command.plain_or_redirected hline with hc | ⟨stream, r, hc⟩
  · rw [hc]
    have hkept := kept_tracks watched ((inscription? p s (.plain c.argv)).map (·.mode)) p
      (s.host.tree.get? p)
    exact (runWords_keeps hkept (hstart _) c.argv).entry
  · generalize c.argv = argv at hc
    subst hc
    rw [execute_redirected_eq, redirecting_some, inscription?_redirected]
    refine (tracks_noting (hstart _) _ ?_).entry
    rintro h rfl hnoted
    have hlength := congrArg List.length
      (stays_note s.host log (.opening stream.descriptor (s.env.resolve r.target) r.mode)).sinks
    have houtline := sameOutline_note s.host log
      (.opening stream.descriptor (s.env.resolve r.target) r.mode)
    refine tracks_pointing hnoted (fun htarget => ?_) (.inl ?_) argv
    · have hbefore : s.host.target? (s.env.resolve r.target) = some (.file p) :=
        (houtline.target?_eq _).trans htarget
      rw [if_pos hbefore]
      rfl
    · simpa [withHost] using hlength

/-- A line touches no file but the one that its redirection opens, and of that it keeps what was
there: the mode but for bits that lend an identity, and in append mode all that the file held. -/
theorem line_touches_target (log : Log) (line : Text) (s : Shell) {p : Place}
    (hs : s.host.Spares p) :
    let before := s.host.tree.get? p
    let after := (Session.evalLine log (execute log) line s).2.host.tree.get? p
    (s.opens? line p = none → after = before) ∧
      ∀ mode, s.opens? line p = some mode → Revised mode before after := by
  intro before after
  have hleft : MayLeave (s.opens? line p) before after := by
    obtain ⟨hspares, hsame⟩ := (kept_spares p before).note ⟨hs, rfl⟩ log
      (.scanned (Words.ofLine line))
    have houtline := sameOutline_note s.host log
      (.scanned (Words.ofLine line))
    unfold after
    rw [evalLine_eq]
    unfold opens?
    cases hline : Command.ofLine line with
    | error e => exact hsame
    | ok c =>
        have hopens : inscription? p (s.withHost (s.host.note log
            (.scanned (Words.ofLine line))).2) c = inscription? p s c := by
          simp only [inscription?, withHost, ← houtline.target?_eq]
        have htracks := @tracks_execute (s.withHost _) log p hspares line c hline
        rw [hopens] at htracks
        dsimp only [withHost] at htracks
        rw [hsame] at htracks
        exact htracks
  constructor
  · intro hnone
    rw [hnone] at hleft
    exact hleft
  · intro mode hmode
    rw [hmode] at hleft
    exact hleft

theorem line_touches_target_link :
    let f : Place := ["f".toList, "w".toList]
    let g : Place := ["g".toList, "w".toList]
    let tree := (FileTree.bare.make f (.file 0o4755 (Utf8.encode "old\n".toList))).make
      ["l".toList, "w".toList] (.link "../w/g".toList)
    let s := ofParts (.ofVariables "/w".toList []) (.start tree ["w".toList])
    let line : Text := "cd / >> l".toList
    let after := (Session.evalLine .silent (execute .silent) line s).2.host.tree
    (s.host.Spares f ∧ s.host.Spares g) ∧ s.opens? line f = none ∧
      s.opens? line g = some .append ∧ after.get? f = tree.get? f ∧
      Revised .append none (after.get? g) := by
  intro f g tree s line after
  have hspares (p : Place) : s.host.Spares p := by
    intro stream
    cases stream <;> exact fun h => (by cases h)
  have hf : s.opens? line f = none := by decide +kernel
  have hg : s.opens? line g = some .append := by decide +kernel
  have hnew : tree.get? g = none := by decide +kernel
  refine ⟨⟨hspares f, hspares g⟩, hf, hg, (line_touches_target .silent line s (hspares f)).1 hf, ?_⟩
  rw [← hnew]
  exact (line_touches_target .silent line s (hspares g)).2 .append hg

/-- A file that lends the identity of its owner loses that, and so its mode, to the first octet that
is appended. -/
theorem line_takes_identity :
    let f : Place := ["f".toList, "w".toList]
    let tree := FileTree.bare.make f (.file 0o4755 (Utf8.encode "old\n".toList))
    let s := ofParts (.ofVariables "/w".toList []) (.start tree ["w".toList])
    let line : Text := "echo x >> f".toList
    s.opens? line f = some .append ∧
      tree.get? f = some (.file 0o4755 (Utf8.encode "old\n".toList)) ∧
      (Session.evalLine .silent (execute .silent) line s).2.host.tree.get? f =
        some (.file 0o755 (Utf8.encode "old\nx\n".toList)) := by
  decide +kernel

end Shell

end LineShell
