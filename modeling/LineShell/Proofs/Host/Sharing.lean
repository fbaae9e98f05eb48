import LineShell.Proofs.Host.Delivery
import LineShell.Proofs.Host.Overlay
import LineShell.Proofs.Host.Preparation

/-!
# Two streams that lead to one file

While each standard stream leads to the same file, through a description of its own, all output goes
there piece by piece, whichever stream it is for.  Nothing that is found or run depends on what the
file holds: the file is being written to, so it is no program.
-/

namespace LineShell

open Host

namespace Host

/-- Each stream leads to a file through a description of its own, which was opened in a mode and
stands where the stream has come to.  But for the content of the file the host is as it was at an
origin. -/
structure Shares (origin : Host) (mode : WriteMode) (f : Place) (number : Stream → Nat)
    (w : SharedFile) (h : Host) : Prop where
  workDir : h.workDir = origin.workDir
  files : origin.files.Stays h.files
  elsewhere : ∀ p, p ≠ f → h.tree.get? p = origin.tree.get? p
  file : ∃ perms perms' before, h.tree.get? f = some (.file perms w.content) ∧
    origin.tree.get? f = some (.file perms' before) ∧ perms.permissions = perms'.permissions
  own : ∀ stream : Stream, h.files.number? stream.descriptor = some (number stream)
  apart : ∀ one other, one ≠ other → number one ≠ number other
  description : ∀ stream, ∃ offset,
    h.files.descriptions[number stream]? = some ⟨.file f, offset, decide (mode = .append)⟩ ∧
      (mode = .truncate → offset = w.offset stream)

namespace Shares

variable {origin h : Host} {mode : WriteMode} {f : Place} {number : Stream → Nat} {w : SharedFile}

theorem outline (hs : Shares origin mode f number w h) : h.SameOutline origin := by
  refine ⟨hs.workDir, fun p => ?_⟩
  by_cases hp : p = f
  · obtain ⟨perms, perms', before, hfile, hfile', hperms⟩ := hs.file
    rw [hp, hfile, hfile']
    simp [Entry.outline, hperms]
  · rw [hs.elsewhere p hp]

theorem prepare_eq (hs : Shares origin mode f number w h) (program : Text)
    (argv environ : List Text) (workDir : Text) :
    h.prepare program argv environ workDir = origin.prepare program argv environ workDir := by
  obtain ⟨offset, hdescription, -⟩ := hs.description .stdout
  have hbusy : h.files.isWriting f = true :=
    OpenFiles.isWriting_iff.mpr ⟨_, OpenFiles.sink?_of_number? (hs.own .stdout) hdescription⟩
  refine hs.outline.prepare_eq (fun dir path => ?_) program argv environ workDir
  exact hs.outline.openProgram_eq hs.elsewhere (fun p _ => hs.files.isWriting p)
    ((hs.files.isWriting f).symm.trans hbusy) (openProgram_ne_of_isWriting hbusy dir path)

theorem await (hs : Shares origin mode f number w h) (waiting : Bytes) :
    Shares origin mode f number w { h with pending := waiting } :=
  { hs with }

theorem description_moved (hs : Shares origin mode f number w h) {stream : Stream}
    (data : Bytes) {offset start : Nat}
    (hdescription : h.files.descriptions[number stream]? =
      some ⟨.file f, offset, decide (mode = .append)⟩)
    (hstart : mode = .truncate → start = w.offset stream) (one : Stream) :
    ∃ offset', (h.files.moveTo (number stream) (start + data.length)).descriptions[number one]? =
        some ⟨.file f, offset', decide (mode = .append)⟩ ∧
      (mode = .truncate → offset' = (w.writePiece mode (stream, data)).offset one) := by
  by_cases hone : one = stream
  · subst hone
    refine ⟨_, OpenFiles.getElem?_moveTo hdescription _, ?_⟩
    rintro rfl
    change start + data.length = w.offset one + total one [(one, data)]
    rw [hstart rfl, total_singleton, if_pos rfl]
  · obtain ⟨other, hother, hwhere⟩ := hs.description one
    refine ⟨other, ?_, ?_⟩
    · rw [OpenFiles.getElem?_moveTo_of_ne _ (hs.apart stream one (Ne.symm hone)), hother]
    · rintro rfl
      change other = w.offset one + total one [(stream, data)]
      rw [hwhere rfl, total_singleton, if_neg (Ne.symm hone)]
      rfl

theorem write (hs : Shares origin mode f number w h) (stream : Stream) (data : Bytes) :
    ∃ k, h.write stream.descriptor data = (.ok (), k) ∧
      Shares origin mode f number (w.writePiece mode (stream, data)) k := by
  by_cases hdata : data = []
  · subst hdata
    rw [SharedFile.writePiece_nil]
    exact ⟨h, rfl, hs⟩
  · obtain ⟨offset, hdescription, hoffset⟩ := hs.description stream
    obtain ⟨perms, perms', before, hfile, hfile', hperms⟩ := hs.file
    let start := if mode = .append then w.content.length else offset
    have hstart : overwrite w.content start data = (w.writePiece mode (stream, data)).content := by
      cases mode with
      | append => exact overwrite_end w.content data
      | truncate =>
          change overwrite w.content offset data = _
          rw [hoffset rfl]
          rfl
    refine ⟨{ h with
      tree := h.tree.put f (.file perms.afterWrite (w.writePiece mode (stream, data)).content)
      files := h.files.moveTo (number stream) (start + data.length) }, ?_, ?_⟩
    · rw [← hstart]
      simp only [Host.write, hdata, hs.own, writeTo, hdescription, hfile, decide_eq_true_eq,
        if_false]
      rfl
    · exact
        { workDir := hs.workDir
          files := hs.files.trans (.moveTo h.files _ _)
          elsewhere := fun p hp => by rw [FileTree.get?_put, if_neg hp, hs.elsewhere p hp]
          file := ⟨perms.afterWrite, perms', before, by rw [FileTree.get?_put, if_pos rfl], hfile',
            by rw [Mode.permissions_afterWrite, hperms]⟩
          own := hs.own
          apart := hs.apart
          description := hs.description_moved data hdescription (by rintro rfl; exact hoffset rfl) }

theorem writeStream (hs : Shares origin mode f number w h) (stream : Stream) (data : Bytes) :
    ∃ k, h.writeStream stream data = (.ok (), k) ∧
      Shares origin mode f number (w.writePiece mode (stream, data)) k := by
  obtain ⟨k, hwrite, hk⟩ := hs.write stream data
  refine ⟨k, ?_, hk⟩
  unfold Host.writeStream
  rw [hwrite]

theorem flows (origin : Host) (mode : WriteMode) (f : Place) (number : Stream → Nat)
    (w : SharedFile) :
    Flows fun done h => Shares origin mode f number (w.writePiece mode (.stdout, done)) h where
  await := fun hs waiting => hs.await waiting
  write := fun {done h} hs data => by
    obtain ⟨k, hwrite, hk⟩ := hs.writeStream .stdout data
    rw [SharedFile.writePiece_writePiece] at hk
    exact ⟨k, hwrite, hk⟩

end Shares

end Host

end LineShell
