import LineShell.Proofs.Execution.Inscription
import LineShell.Proofs.Execution.Terminal
import LineShell.Proofs.Host.Retention
import LineShell.Proofs.Host.Sharing

/-!
# Both streams redirected to one file

A command writes pieces to its two streams: what the log notes, what the shell prints, and what a
program writes.  If both streams are redirected to one file, it holds afterwards what its mode makes
of these pieces, and every one of them had its part in that.
-/

namespace LineShell

open Host

theorem Host.Shares.writeAll {origin h : Host} {mode : WriteMode} {f : Place}
    {number : Stream → Nat} {w : SharedFile} (hs : Shares origin mode f number w h)
    (pieces : List Piece) :
    Shares origin mode f number (pieces.foldl (SharedFile.writePiece mode) w)
      (h.writeAll pieces) := by
  induction pieces generalizing h w with
  | nil => exact hs
  | cons piece rest ih =>
      obtain ⟨k, hwrite, hk⟩ := hs.write piece.1 piece.2
      refine ih ?_
      dsimp only
      rw [hwrite]
      exact hk

namespace Host

structure SharesSettled (origin : Host) (mode : WriteMode) (f : Place) (number : Stream → Nat)
    (w : SharedFile) (h : Host) : Prop extends Shares origin mode f number w h where
  settled : h.pending = []

namespace SharesSettled

variable {origin h : Host} {mode : WriteMode} {f : Place} {number : Stream → Nat} {w : SharedFile}

theorem writeStream (hr : SharesSettled origin mode f number w h) (stream : Stream) (data : Bytes) :
    ∃ k, h.writeStream stream data = (.ok (), k) ∧
      SharesSettled origin mode f number (w.writePiece mode (stream, data)) k := by
  obtain ⟨k, hwrite, hk⟩ := hr.toShares.writeStream stream data
  have hpending := pending_writeStream h stream data
  rw [hwrite] at hpending
  exact ⟨k, hwrite, hk, hpending.trans hr.settled⟩

theorem note (hr : SharesSettled origin mode f number w h) (log : Log) (e : Log.Event) :
    ∃ k, h.note log e = (.ok (), k) ∧
      SharesSettled origin mode f number (w.writePiece mode (log.noted e)) k := by
  rw [note_eq]
  exact hr.writeStream .stderr (log.written e)

theorem printAll_flush (hr : SharesSettled origin mode f number w h) (texts : List Text) :
    ∃ k k', h.printAll texts = (.ok (), k) ∧ k.flush = (.ok (), k') ∧
      SharesSettled origin mode f number
        (w.writePiece mode (.stdout, Utf8.encode texts.flatten)) k' := by
  have hstart : Shares origin mode f number (w.writePiece mode (.stdout, [])) h := by
    rw [SharedFile.writePiece_nil]
    exact hr.toShares
  obtain ⟨k, k', hprinted, hflushed, hk, hpending⟩ :=
    (Shares.flows origin mode f number w).printAll_flush hstart texts
  rw [hr.settled] at hk
  exact ⟨k, k', hprinted, hflushed, hk, hpending⟩

theorem record (hr : SharesSettled origin mode f number w h) (l : Launch) :
    SharesSettled origin mode f number w (h.recorded l) :=
  { hr with }

end SharesSettled

end Host

namespace Shell

variable {s : Shell} {log : Log} {next : Action}

section SharesSettled

variable {origin : Host} {mode : WriteMode} {f : Place} {number : Stream → Nat} {w : SharedFile}

end SharesSettled

end Shell

/-! ## Pointing both streams at the file -/

namespace Host

/-- Standard output is at the beginning of a file, at which standard error is to be pointed. -/
structure StdoutPointed (mode : WriteMode) (f : Place) (number : Nat) (content : Bytes) (err : Text)
    (h : Host) : Prop where
  directed : Directed f .stdout number content h
  description : h.files.descriptions[number]? = some ⟨.file f, 0, decide (mode = .append)⟩
  target : h.target? err = some (.file f)
  settled : h.pending = []

variable {h : Host} {log : Log} {mode : WriteMode} {f : Place} {number : Nat} {content : Bytes}
  {out err : Text}

theorem StdoutPointed.note (hh : StdoutPointed mode f number content err h) (log : Log)
    (e : Log.Event) :
    ∃ k, h.note log e = (.ok (), k) ∧ StdoutPointed mode f number content err k := by
  obtain ⟨k, hnote, hpending, hk⟩ := hh.directed.note log e
  rw [if_neg (by decide), List.append_nil] at hk
  have houtline := sameOutline_note h log e
  have hconfined : Confined (fun n => h.files.number? Stream.stderr.descriptor = some n) h
      (h.note log e).2 := by
    rw [note_eq, writeStream_snd]
    exact .write (fun _ hn => hn) _
  rw [hnote] at houtline hconfined
  exact ⟨k, hnote, hk, (hconfined.description number hh.directed.other.apart).trans hh.description,
    (houtline.target?_eq err).symm.trans hh.target, hpending.trans hh.settled⟩

end Host

namespace Shell

variable {s : Shell} {log : Log} {next : Action} {f : Place} {content : Bytes}

end Shell

end LineShell
