import LineShell.Proofs.Host.Confinement
import Mathlib.Data.List.Induction

/-!
# Two streams in one file

Both streams may be written to one file, through a description of its own each.  If the descriptions
append, the pieces follow one another.  If not, each stream writes on from where it left off, over
what the other has written there.
-/

namespace LineShell

open Host

abbrev Piece := Stream × Bytes

def total (stream : Stream) (pieces : List Piece) : Nat :=
  ((pieces.filter (·.1 = stream)).flatMap (·.2)).length

theorem total_singleton (stream : Stream) (piece : Piece) :
    total stream [piece] = if piece.1 = stream then piece.2.length else 0 := by
  by_cases h : piece.1 = stream <;> simp [total, h]

@[ext] structure SharedFile where
  content : Bytes
  offset : Stream → Nat
  within : ∀ stream, offset stream ≤ content.length

namespace Host

theorem length_overwrite (content : Bytes) (offset : Nat) (data : Bytes) :
    (overwrite content offset data).length = max content.length (offset + data.length) :=
  (overwritten_overwrite content offset data).length

theorem getElem?_overwrite {content : Bytes} {offset : Nat} (h : offset ≤ content.length)
    (data : Bytes) (i : Nat) :
    (overwrite content offset data)[i]? =
      if offset ≤ i ∧ i < offset + data.length then data[i - offset]? else content[i]? := by
  have hover := overwritten_overwrite content offset data
  split
  · next hi =>
      have hwritten := hover.written (i - offset) (by omega)
      rwa [Nat.add_sub_cancel' hi.1] at hwritten
  · next hi =>
      by_cases hlength : i < content.length
      · exact hover.kept i hlength (by omega)
      · have hafter := hover.length
        rw [List.getElem?_eq_none (by omega), List.getElem?_eq_none (by omega)]

theorem overwrite_nil {content : Bytes} {offset : Nat} (h : offset ≤ content.length) :
    overwrite content offset [] = content := by
  apply List.ext_getElem?
  intro i
  rw [getElem?_overwrite h, if_neg (by simp)]

theorem overwrite_overwrite {content : Bytes} {offset : Nat} (h : offset ≤ content.length)
    (data more : Bytes) :
    overwrite (overwrite content offset data) (offset + data.length) more =
      overwrite content offset (data ++ more) := by
  have hend : offset + data.length ≤ (overwrite content offset data).length := by
    rw [length_overwrite]
    omega
  apply List.ext_getElem?
  intro i
  rw [getElem?_overwrite hend, getElem?_overwrite h, getElem?_overwrite h, List.length_append]
  split
  · next hi =>
      rw [if_pos (by omega), List.getElem?_append_right (by omega)]
      congr 1
      omega
  · split
    · next hi => rw [if_pos (by omega), List.getElem?_append_left (by omega)]
    · rw [if_neg (by omega)]

end Host

namespace SharedFile

def appendPiece (w : SharedFile) (piece : Piece) : SharedFile where
  content := w.content ++ piece.2
  offset := w.offset
  within stream := by
    have hwithin := w.within stream
    rw [List.length_append]
    omega

-- from where the stream of the piece had come to
def overwritePiece (w : SharedFile) (piece : Piece) : SharedFile where
  content := overwrite w.content (w.offset piece.1) piece.2
  offset stream := w.offset stream + total stream [piece]
  within stream := by
    have hwithin := w.within stream
    rw [length_overwrite, total_singleton]
    split
    · next h =>
        rw [h]
        omega
    · omega

def writePiece : WriteMode → SharedFile → Piece → SharedFile
  | .append => appendPiece
  | .truncate => overwritePiece

variable (w : SharedFile) (mode : WriteMode) (stream : Stream)

theorem writePiece_nil : w.writePiece mode (stream, []) = w := by
  cases mode with
  | append => exact SharedFile.ext (List.append_nil _) rfl
  | truncate =>
      refine SharedFile.ext (overwrite_nil (w.within stream)) (funext fun one => ?_)
      change w.offset one + total one [(stream, [])] = w.offset one
      rw [total_singleton]
      simp

theorem writePiece_writePiece (data more : Bytes) :
    (w.writePiece mode (stream, data)).writePiece mode (stream, more) =
      w.writePiece mode (stream, data ++ more) := by
  cases mode with
  | append => exact SharedFile.ext (List.append_assoc ..) rfl
  | truncate =>
      refine SharedFile.ext ?_ (funext fun one => ?_)
      · have hoffset : w.offset stream + total stream [(stream, data)] =
            w.offset stream + data.length := by
          rw [total_singleton, if_pos rfl]
        change overwrite (overwrite w.content (w.offset stream) data)
          (w.offset stream + total stream [(stream, data)]) more = _
        rw [hoffset]
        exact overwrite_overwrite (w.within stream) data more
      · change w.offset one + total one [(stream, data)] + total one [(stream, more)] =
          w.offset one + total one [(stream, data ++ more)]
        simp only [total_singleton, List.length_append]
        split <;> omega

/-! ## Pieces one after another -/

variable (pieces : List Piece)

end SharedFile

section Puts

variable {pieces : List Piece} {number i : Nat} {b : UInt8} {stream : Stream} {data : Bytes}

end Puts

end LineShell
