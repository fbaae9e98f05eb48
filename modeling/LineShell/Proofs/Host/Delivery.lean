import LineShell.Proofs.Host.Output

/-!
# Delivery of printed text

Where every write to standard output succeeds, printing never fails: what was delivered and what
still waits is, put together, all that was printed.  A flush leaves nothing waiting.  So it is on
the terminal.
-/

namespace LineShell

namespace Host

def OnTerminal (h : Host) (stream : Stream) : Prop :=
  h.files.sink? stream.descriptor = some (.terminal stream)

/-- A property of hosts and of what standard output has delivered: it outlasts changes of the
buffer, and whatever is written is delivered. -/
structure Flows (P : Bytes → Host → Prop) : Prop where
  await : ∀ {done h}, P done h → ∀ waiting, P done { h with pending := waiting }
  write : ∀ {done h}, P done h → ∀ data,
    ∃ k, h.writeStream .stdout data = (.ok (), k) ∧ P (done ++ data) k

/-- A result after which what was delivered and what waits make up the data. -/
def Prints (P : Bytes → Host → Prop) (data : Bytes) (r : Except IOError Unit × Host) : Prop :=
  ∃ done k, r = (.ok (), k) ∧ P done k ∧ done ++ k.pending = data

variable {P : Bytes → Host → Prop} {done : Bytes} {h : Host}

theorem prints_wait (hP : Flows P) (hh : P done h) (data : Bytes) :
    Prints P (done ++ h.pending ++ data) (.ok (), { h with pending := h.pending ++ data }) :=
  ⟨done, _, rfl, hP.await hh _, by simp⟩

theorem prints_nothing (hh : P done h) : Prints P (done ++ h.pending) (.ok (), h) :=
  ⟨done, h, rfl, hh, rfl⟩

theorem Flows.flush (hP : Flows P) (hh : P done h) :
    ∃ k, h.flush = (.ok (), k) ∧ P (done ++ h.pending) k ∧ k.pending = [] := by
  obtain ⟨k, hwrite, hk⟩ := hP.write hh h.pending
  refine ⟨{ k with pending := [] }, ?_, hP.await hk [], rfl⟩
  unfold Host.flush
  rw [hwrite]

theorem prints_flush (hP : Flows P) (hh : P done h) : Prints P (done ++ h.pending) h.flush := by
  obtain ⟨k, hflush, hk, hpending⟩ := hP.flush hh
  exact ⟨_, _, hflush, hk, by simp [hpending]⟩

theorem prints_write (hP : Flows P) (hh : P done h) (hpending : h.pending = []) (data : Bytes) :
    Prints P (done ++ data) (h.writeStream .stdout data) := by
  obtain ⟨k, hwrite, hk⟩ := hP.write hh data
  have hwaits := pending_writeStream h .stdout data
  rw [hwrite, hpending] at hwaits
  refine ⟨done ++ data, k, hwrite, hk, ?_⟩
  rw [hwaits, List.append_nil]

theorem Prints.andThen {data later : Bytes} {r : Except IOError Unit × Host}
    {next : Host → Except IOError Unit × Host} (hr : Prints P data r)
    (hnext : ∀ done k, P done k → r = (.ok (), k) →
      Prints P (done ++ k.pending ++ later) (next k)) :
    Prints P (data ++ later) (Host.andThen r next) := by
  obtain ⟨done, k, hok, hk, rfl⟩ := hr
  rw [hok]
  exact hnext done k hk hok

theorem prints_buffer (hP : Flows P) (hh : P done h) (data : Bytes) :
    Prints P (done ++ h.pending ++ data) (h.buffer data) := by
  rw [buffer_eq]
  split
  · exact prints_wait hP hh data
  · next hroom =>
      have hearlier : Prints P (done ++ h.pending)
          (if bufferSize - h.pending.length < data.length then h.flush else (.ok (), h)) := by
        split
        · exact prints_flush hP hh
        · exact prints_nothing hh
      refine hearlier.andThen fun done k hk hok => ?_
      split
      · next hlarge =>
          -- the buffer was delivered, or it had room for all that it can hold
          have hempty : k.pending = [] := by
            split at hok
            · obtain ⟨k', hflush, -, hpending⟩ := hP.flush hh
              rw [hflush] at hok
              cases hok
              exact hpending
            · next hexact =>
                cases hok
                have hlength : h.pending.length = 0 := by
                  have hsize : bufferSize = 1024 := rfl
                  omega
                exact List.length_eq_zero_iff.mp hlength
          rw [hempty, List.append_nil]
          exact prints_write hP hk hempty data
      · exact prints_wait hP hk data

theorem splitLastLine_append (data : Bytes) :
    (splitLastLine data).1 ++ (splitLastLine data).2 = data := by
  have hsplit := List.takeWhile_append_dropWhile (p := (· != 0x0A)) (l := data.reverse)
  have hdata := congrArg List.reverse hsplit
  rw [List.reverse_append, List.reverse_reverse] at hdata
  simp only [splitLastLine]
  generalize (data.reverse.takeWhile (· != 0x0A)).reverse = rest at hdata ⊢
  generalize (data.reverse.dropWhile (· != 0x0A)).reverse = whole at hdata
  rw [← hdata]
  simp

theorem prints_print (hP : Flows P) (hh : P done h) (piece : Text) :
    Prints P (done ++ h.pending ++ Utf8.encode piece) (h.print piece) := by
  have hpiece := splitLastLine_append (Utf8.encode piece)
  rw [print_eq]
  rcases hsplit : splitLastLine (Utf8.encode piece) with ⟨whole, rest⟩
  rw [hsplit] at hpiece
  dsimp only at hpiece ⊢
  rw [← hpiece, ← List.append_assoc]
  split
  · next hwhole =>
      have hearlier : Prints P (done ++ h.pending ++ whole)
          (if h.pending.getLast? = some 0x0A then h.flush else (.ok (), h)) := by
        rw [hwhole, List.append_nil]
        split
        · exact prints_flush hP hh
        · exact prints_nothing hh
      exact hearlier.andThen fun done k hk _ => prints_buffer hP hk rest
  · split
    · next hpending =>
        have hwritten := prints_write hP hh hpending whole
        rw [hpending, List.append_nil]
        exact hwritten.andThen fun done k hk _ => prints_buffer hP hk rest
    · refine (prints_buffer hP hh whole).andThen fun done k hk _ => ?_
      exact (prints_flush hP hk).andThen fun done k hk _ => prints_buffer hP hk rest

theorem prints_printAll (hP : Flows P) (hh : P done h) (pieces : List Text) :
    Prints P (done ++ h.pending ++ Utf8.encode pieces.flatten) (h.printAll pieces) := by
  induction pieces generalizing done h with
  | nil =>
      have hnothing : Utf8.encode ([] : List Text).flatten = [] := rfl
      rw [hnothing, List.append_nil]
      exact prints_nothing hh
  | cons piece pieces ih =>
      rw [printAll_cons, List.flatten_cons, Utf8.encode_append, ← List.append_assoc]
      exact (prints_print hP hh piece).andThen fun done k hk _ => ih hk

theorem Flows.printAll_flush (hP : Flows P) (hh : P done h) (pieces : List Text) :
    ∃ k k', h.printAll pieces = (.ok (), k) ∧ k.flush = (.ok (), k') ∧
      P (done ++ h.pending ++ Utf8.encode pieces.flatten) k' ∧ k'.pending = [] := by
  obtain ⟨done', k, hprinted, hk, htotal⟩ := prints_printAll hP hh pieces
  obtain ⟨k', hflush, hk', hpending⟩ := hP.flush hk
  rw [htotal] at hk'
  exact ⟨k, k', hprinted, hflush, hk', hpending⟩

/-! ## The terminal -/

theorem OnTerminal.of_files {k : Host} {stream : Stream} (ht : h.OnTerminal stream)
    (hfiles : k.files = h.files) : k.OnTerminal stream := by
  unfold OnTerminal
  rw [hfiles]
  exact ht

theorem writeStream_terminal {stream : Stream} (ht : h.OnTerminal stream) (data : Bytes) :
    h.writeStream stream data = (.ok (), h.receive stream data) := by
  unfold writeStream
  rw [write_terminal ht]

theorem flush_terminal (ht : h.OnTerminal .stdout) :
    h.flush = (.ok (), { h with out := h.out ++ h.pending, pending := [] }) := by
  unfold flush
  rw [writeStream_terminal ht]
  rfl

theorem flows_terminal (ht : h.OnTerminal .stdout) :
    Flows fun out k => ∃ pending, k = { h with out := out, pending := pending } where
  await := by
    rintro out k ⟨pending, rfl⟩ waiting
    exact ⟨waiting, rfl⟩
  write := by
    rintro out k ⟨pending, rfl⟩ data
    have hterminal : OnTerminal { h with out := out, pending := pending } .stdout := ht.of_files rfl
    exact ⟨_, writeStream_terminal hterminal data, pending, rfl⟩

theorem printAll_flush_terminal (ht : h.OnTerminal .stdout) (pieces : List Text) :
    ∃ out pending,
      h.printAll pieces = (.ok (), { h with out := out, pending := pending }) ∧
      flush { h with out := out, pending := pending } =
        (.ok (), { h with
          out := h.out ++ h.pending ++ Utf8.encode pieces.flatten, pending := [] }) := by
  obtain ⟨out, k, hprinted, ⟨pending, rfl⟩, htotal⟩ :=
    prints_printAll (flows_terminal ht) ⟨h.pending, rfl⟩ pieces
  refine ⟨out, pending, hprinted, ?_⟩
  rw [← htotal]
  exact flush_terminal (ht.of_files rfl)

end Host

end LineShell
