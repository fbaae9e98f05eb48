import LineShell.Proofs.Execution.Inscription
import LineShell.Proofs.Host.Programs

/-!
# Pieces of which some go to a file

One stream leads to the end of a file, the other one elsewhere.  Of the pieces that are written
then, those of the one stand in the file, one after another, and everything else is as if only those
of the other had been written.
-/

namespace LineShell

open Host

def piecesOf (stream : Stream) (pieces : List Piece) : List Piece := pieces.filter (·.1 = stream)

def sentTo (stream : Stream) (pieces : List Piece) : Bytes := (piecesOf stream pieces).flatMap (·.2)

section pieces

variable {stream one : Stream} (data : Bytes) (rest : List Piece)

theorem piecesOf_cons_own :
    piecesOf stream ((stream, data) :: rest) = (stream, data) :: piecesOf stream rest := by
  simp [piecesOf]

theorem piecesOf_cons_of_ne (h : one ≠ stream) :
    piecesOf stream ((one, data) :: rest) = piecesOf stream rest := by
  simp [piecesOf, h]

theorem sentTo_cons_own : sentTo stream ((stream, data) :: rest) = data ++ sentTo stream rest := by
  rw [sentTo, piecesOf_cons_own, List.flatMap_cons, sentTo]

theorem sentTo_cons_of_ne (h : one ≠ stream) :
    sentTo stream ((one, data) :: rest) = sentTo stream rest := by
  rw [sentTo, piecesOf_cons_of_ne data rest h, sentTo]

theorem sentTo_piecesOf (stream : Stream) (pieces : List Piece) :
    sentTo stream (piecesOf stream pieces) = sentTo stream pieces := by
  simp [sentTo, piecesOf]

theorem sentTo_piecesOf_other (stream : Stream) (pieces : List Piece) :
    sentTo stream (piecesOf stream.other pieces) = [] := by
  have hnone : piecesOf stream (piecesOf stream.other pieces) = [] := by
    refine List.filter_eq_nil_iff.mpr fun piece hpiece => ?_
    have hother : piece.1 = stream.other := by simpa using (List.mem_filter.mp hpiece).2
    simp [hother, Stream.other_ne]
  rw [sentTo, hnone, List.flatMap_nil]

end pieces

namespace Host

variable {h k : Host} {f : Place} {stream : Stream} {number : Nat} {content : Bytes}

theorem writeAll_cons (h : Host) (piece : Piece) (rest : List Piece) :
    h.writeAll (piece :: rest) = (h.write piece.1.descriptor piece.2).2.writeAll rest := rfl

theorem received_writeAll (hterminal : ∀ one, h.OnTerminal one) (pieces : List Piece)
    (one : Stream) : (h.writeAll pieces).received one = h.received one ++ sentTo one pieces := by
  induction pieces generalizing h with
  | nil => exact (List.append_nil _).symm
  | cons piece rest ih =>
      obtain ⟨stream, data⟩ := piece
      have hstill : ∀ one, (h.receive stream data).OnTerminal one := fun one => by
        unfold OnTerminal
        rw [files_receive]
        exact hterminal one
      rw [writeAll_cons, write_terminal (hterminal stream), ih hstill]
      by_cases hone : one = stream
      · subst hone
        rw [received_receive, sentTo_cons_own, List.append_assoc]
      · rw [received_receive_of_ne h stream data hone, sentTo_cons_of_ne data rest (Ne.symm hone)]

/-- Two hosts that differ in nothing but a file, a description, and what the descriptors stand
for. -/
structure AlikeBut (f : Place) (number : Nat) (h k : Host) : Prop where
  rest : k = { h with tree := k.tree, files := k.files }
  elsewhere : ∀ p, p ≠ f → k.tree.get? p = h.tree.get? p
  description : ∀ n, n ≠ number → k.files.descriptions[n]? = h.files.descriptions[n]?

namespace AlikeBut

theorem write_own (hk : AlikeBut f number h k) (hi : Inscribed f number content k)
    {fd : Descriptor} (hown : k.files.number? fd = some number) (data : Bytes) :
    AlikeBut f number h (k.write fd data).2 := by
  by_cases hdata : data = []
  · subst hdata
    exact hk
  · obtain ⟨d, hd, hsink, hend⟩ := hi.description
    obtain ⟨perms, hfile⟩ := hi.file
    rw [write_file_end hown hd hsink hfile hend hdata]
    refine ⟨?_, fun p hp => ?_, fun n hn => ?_⟩
    · rw [hk.rest]
    · rw [FileTree.get?_put, if_neg hp, hk.elsewhere p hp]
    · exact (OpenFiles.getElem?_moveTo_of_ne _ (Ne.symm hn) _).trans (hk.description n hn)

theorem write_other (hk : AlikeBut f number h k) {fd : Descriptor}
    (hsame : k.files.number? fd = h.files.number? fd) (hother : h.files.number? fd ≠ some number)
    (hspared : h.files.sink? fd ≠ some (.file f)) (data : Bytes) :
    AlikeBut f number (h.write fd data).2 (k.write fd data).2 := by
  obtain ⟨tree, files, rfl⟩ : ∃ tree files, k = { h with tree := tree, files := files } :=
    ⟨_, _, hk.rest⟩
  obtain ⟨-, helsewhere, hdescription⟩ := hk
  dsimp only at helsewhere hdescription hsame
  unfold Host.write
  rw [hsame]
  split
  · exact ⟨rfl, helsewhere, hdescription⟩
  · cases hn : h.files.number? fd with
    | none => exact ⟨rfl, helsewhere, hdescription⟩
    | some n =>
        rw [hn, ne_eq, Option.some.injEq] at hother
        unfold writeTo
        dsimp only
        rw [hdescription n hother]
        cases hd : h.files.descriptions[n]? with
        | none => exact ⟨rfl, helsewhere, hdescription⟩
        | some d =>
            have hne : d.sink ≠ .file f := fun hsink =>
              hspared (by rw [OpenFiles.sink?_of_number? hn hd, hsink])
            dsimp only
            cases hsink : d.sink with
            | unlinked => exact ⟨rfl, helsewhere, hdescription⟩
            | device device => cases device <;> exact ⟨rfl, helsewhere, hdescription⟩
            | terminal stream => cases stream <;> exact ⟨rfl, helsewhere, hdescription⟩
            | file p =>
                have hp : p ≠ f := fun heq => hne (hsink.trans (heq ▸ rfl))
                dsimp only
                rw [helsewhere p hp]
                split
                · refine ⟨rfl, fun q hq => ?_, fun m hm => ?_⟩
                  · rw [FileTree.get?_put, FileTree.get?_put, helsewhere q hq]
                  · simp only [OpenFiles.moveTo, List.getElem?_modify, hdescription m hm]
                · exact ⟨rfl, helsewhere, hdescription⟩

end AlikeBut

/-- The pieces of a stream that leads to the end of a file are added to it, and the others go where
they go without them. -/
theorem Directed.writeAll (hd : Directed f stream number content k) (hk : AlikeBut f number h k)
    (hsame : k.files.number? stream.other.descriptor = h.files.number? stream.other.descriptor)
    (hsink : k.files.sink? stream.other.descriptor = h.files.sink? stream.other.descriptor)
    (pieces : List Piece) :
    Directed f stream number (content ++ sentTo stream pieces) (k.writeAll pieces) ∧
      AlikeBut f number (h.writeAll (piecesOf stream.other pieces)) (k.writeAll pieces) := by
  induction pieces generalizing h k content with
  | nil => exact ⟨(List.append_nil content).symm ▸ hd, hk⟩
  | cons piece rest ih =>
      obtain ⟨one, data⟩ := piece
      have hstays := stays_write k one.descriptor data
      rw [writeAll_cons]
      dsimp only
      rcases Stream.eq_or_eq_other stream one with rfl | rfl
      · obtain ⟨k', hwrite, hd'⟩ := hd.writeStream_own data
        have hafter : (k.write one.descriptor data).2 = k' := by
          rw [← writeStream_snd, hwrite]
        have halike := hk.write_own hd.other.inscribed hd.own data
        rw [piecesOf_cons_of_ne data rest one.other_ne.symm, sentTo_cons_own, ← List.append_assoc]
        rw [hafter] at hstays halike ⊢
        exact ih hd' halike (by rw [hstays.number, hsame]) (by rw [hstays.sink?, hsink])
      · obtain ⟨k', hwrite, hd'⟩ := hd.writeStream_other data
        have hafter : (k.write stream.other.descriptor data).2 = k' := by
          rw [← writeStream_snd, hwrite]
        have hstays' := stays_write h stream.other.descriptor data
        obtain ⟨own, hown, -, hne⟩ := hd.other.elsewhere
        have halike := hk.write_other hsame (hsame ▸ hd.other.apart)
          (by rw [← hsink, hown, ne_eq, Option.some.injEq]; exact hne) data
        rw [piecesOf_cons_own, sentTo_cons_of_ne data rest stream.other_ne, writeAll_cons]
        rw [hafter] at hstays halike ⊢
        exact ih hd' halike (by rw [hstays.number, hstays'.number, hsame])
          (by rw [hstays.sink?, hstays'.sink?, hsink])

end Host

end LineShell
