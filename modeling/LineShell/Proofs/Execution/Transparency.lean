import LineShell.Proofs.Execution.Diversion

/-!
# Redirection is transparent

Opening a target is all that a redirection to a file adds to a command.  On the host on which the
target was just opened, the command without the redirection has the same result and writes the same
pieces, and those that it sends to its stream are what the redirected command leaves in the file.
-/

namespace LineShell

open Host

namespace Host

section Pointed

variable {opened : Host} {fd file : Descriptor} {saved : Nat} {target : Place}
  (hsaved : opened.files.number? fd = some saved) (hne : fd ≠ file)
  (hfile : opened.files.sink? file = some (.file target))

include hsaved hne hfile

end Pointed

theorem AlikeBut.release {f : Place} {number : Nat} {h k : Host} (hk : AlikeBut f number h k)
    (hpending : k.pending = []) (g : Guard) : AlikeBut f number h (k.release g) := by
  rw [release_of_pending_eq_nil hpending]
  refine ⟨by rw [hk.rest], hk.elsewhere, fun n hn => ?_⟩
  rw [OpenFiles.descriptions_close, OpenFiles.descriptions_assign]
  exact hk.description n hn

theorem Directed.record {f : Place} {stream : Stream} {number : Nat} {content : Bytes} {h : Host}
    (hd : Directed f stream number content h) (launches : List Launch) :
    Directed f stream number content { h with launches := launches } :=
  ⟨hd.own, ⟨hd.other.inscribed.description, hd.other.inscribed.file⟩, hd.other.apart,
    hd.other.elsewhere⟩

end Host

namespace Shell

def programPlaces (s : Shell) : List Text → List Place
  | [] => []
  | name :: _ =>
      match Builtin.ofName? name, Lookup.resolveIn s.host s.env name, s.host.find s.env.cwd with
      | none, some path, .ok (dir, _) =>
          s.host.programPlaces dir (maxScripts + 2) (s.env.resolve path)
      | _, _, _ => []

variable {s : Shell}

/-! ## What a command asks for -/

section Occupied

variable {k : Host} {f : Place} (ho : Occupied f s.host k)

include ho

end Occupied

/-! ## The redirected command and the plain one -/

/-- What a host comes to on which the pieces of a command were written with a stream led to a file:
the file holds those of the stream behind what it held, and everything else is as if only those of
the other stream had been written. -/
structure Mirrors (stream : Stream) (target : Place) (number : Nat) (start : Host)
    (sent : List Piece) (redirected : Host) : Prop where
  alike : AlikeBut target number (start.writeAll (piecesOf stream.other sent)) redirected
  number : ∀ fd, redirected.files.number? fd = start.files.number? fd
  content : ∃ perms perms' content, start.tree.get? target = some (.file perms content) ∧
    redirected.tree.get? target = some (.file perms' (content ++ sentTo stream sent))

/-- On a terminal a stream that is led to a file receives nothing, and the other one what it
receives anyway. -/
theorem Mirrors.received {stream : Stream} {target : Place} {number : Nat} {start after : Host}
    {sent : List Piece} (hm : Mirrors stream target number start sent after)
    (hterminal : ∀ one, start.OnTerminal one) :
    after.received stream.other = (start.writeAll sent).received stream.other ∧
      after.received stream = start.received stream := by
  have hreceived (one : Stream) : after.received one =
      start.received one ++ sentTo one (piecesOf stream.other sent) := by
    rw [← received_writeAll hterminal, hm.alike.rest]
    exact received_congr rfl rfl one
  constructor
  · rw [hreceived, received_writeAll hterminal, sentTo_piecesOf]
  · rw [hreceived, sentTo_piecesOf_other, List.append_nil]

section Opened

variable {argv : List Text} {stream : Stream} {r : Redirection} {file : Descriptor} {opened : Host}
  {target : Place}
  (hopen : s.host.openTarget r.mode (s.env.resolve r.target) = (.ok file, opened))
  (hfile : opened.files.sink? file = some (.file target)) (hpending : s.host.pending = [])

include hopen hfile hpending

end Opened

-- where the other stream leads to the target too, its pieces come to stand there as well
example :
    let tree := (FileTree.bare.make ["r".toList] (.file 0o755 Reporter.image)).make
      ["w".toList] (.directory 0o755)
    let h := Host.start tree ["w".toList]
    let logged := (h.openTarget .append "/w/f".toList).2.pointed Stream.stderr.descriptor
      h.files.firstFree
    let s := ofParts (.ofVariables "/w".toList []) logged
    let argv := ["/r".toList, "out:a".toList, "err:b".toList]
    let redirected := execute .silent (.redirected argv .stdout ⟨"f".toList, .truncate⟩) s
    redirected.2.host.tree.get? ["f".toList, "w".toList] =
      some (.file 0o644 (Utf8.encode "a\nb\n".toList)) := by
  decide +kernel

end Shell

end LineShell
