import LineShell.Proofs.Host.Delivery
import Mathlib.Data.List.TakeWhile

/-!
# Sinks with and without room

Printing fails for one reason only: standard output leads to the device that has no room.
Everywhere else it succeeds, and a flush leaves nothing waiting.  On that device a first piece
that fits into the empty buffer without ending a line waits there, and no flush takes it away.
-/

namespace LineShell

namespace Host

def OnFull (h : Host) : Prop := h.files.sink? Stream.stdout.descriptor = some (.device .full)

def Accepts (h : Host) (stream : Stream) : Prop :=
  ∃ sink, h.files.sink? stream.descriptor = some sink ∧ sink ≠ .device .full

theorem Accepts.ne_full {h : Host} {stream : Stream} (ha : h.Accepts stream) :
    h.files.sink? stream.descriptor ≠ some (.device .full) := by
  obtain ⟨sink, hsink, hne⟩ := ha
  rw [hsink, ne_eq, Option.some.injEq]
  exact hne

theorem Accepts.not_onFull {h : Host} (ha : h.Accepts .stdout) : ¬ h.OnFull := ha.ne_full

theorem OnTerminal.not_onFull {h : Host} (ht : h.OnTerminal .stdout) : ¬ h.OnFull := by
  unfold OnTerminal at ht
  rw [OnFull, ht]
  simp

theorem onFull_write_iff (h : Host) (fd : Descriptor) (data : Bytes) :
    (h.write fd data).2.OnFull ↔ h.OnFull := by
  unfold OnFull
  rw [(stays_write h fd data).sink?]

theorem kept_onFull : Kept OnFull where
  await := fun hh _ => hh
  write := fun {h} hh stream data => (onFull_write_iff h stream.descriptor data).mpr hh
  record := fun hh _ => hh

theorem kept_not_onFull : Kept fun h => ¬ h.OnFull where
  await := fun hh _ => hh
  write := fun {h} hh stream data => by
    rw [onFull_write_iff]
    exact hh
  record := fun hh _ => hh

variable {h : Host}

theorem pending_flush (hflush : h.flush.1 = .ok ()) : h.flush.2.pending = [] := by
  unfold flush at hflush ⊢
  rcases hwrite : h.writeStream .stdout h.pending with ⟨_ | _, k⟩
  · simp [hwrite] at hflush
  · rfl

/-! ## Room for everything -/

theorem writeTo_result {number : Nat} {d : Description}
    (hd : h.files.descriptions[number]? = some d) (data : Bytes) :
    (h.writeTo number data).1 = .ok () ∨ d.sink = .device .full := by
  simp only [writeTo, hd]
  cases hsink : d.sink with
  | unlinked => exact .inl rfl
  | terminal stream => cases stream <;> exact .inl rfl
  | device device =>
      cases device with
      | null => exact .inl rfl
      | full => exact .inr rfl
  | file p =>
      left
      dsimp only
      split <;> rfl

theorem write_result (h : Host) (fd : Descriptor) (data : Bytes) :
    (h.write fd data).1 = .ok () ∨ (h.write fd data).1 = .error .badDescriptor ∨
      h.files.sink? fd = some (.device .full) := by
  unfold write
  split
  · exact .inl rfl
  · cases hnumber : h.files.number? fd with
    | none => exact .inr (.inl rfl)
    | some number =>
        dsimp only
        cases hd : h.files.descriptions[number]? with
        | none =>
            right; left
            simp only [writeTo, hd]
        | some d =>
            rcases writeTo_result hd data with hok | hfull
            · exact .inl hok
            · right; right
              simp [OpenFiles.sink?, OpenFiles.description?, hnumber, hd, hfull]

theorem writeStream_result (h : Host) (stream : Stream) (data : Bytes) :
    (h.writeStream stream data).1 = .ok () ∨
      h.files.sink? stream.descriptor = some (.device .full) := by
  have hresult := write_result h stream.descriptor data
  unfold writeStream
  rcases hwrite : h.write stream.descriptor data with ⟨result, k⟩
  rw [hwrite] at hresult
  rcases hresult with hok | hclosed | hfull
  · dsimp only at hok
    rw [hok]
    exact .inl rfl
  · dsimp only at hclosed
    rw [hclosed]
    exact .inl rfl
  · exact .inr hfull

theorem writeStream_of_room (hroom : ¬ h.OnFull) (data : Bytes) :
    (h.writeStream .stdout data).1 = .ok () := by
  rcases writeStream_result h .stdout data with hok | hfull
  · exact hok
  · exact absurd hfull hroom

theorem flows_room : Flows fun _ h => ¬ h.OnFull where
  await := fun hroom _ => hroom
  write := fun {_ h} hroom data => by
    have hkept := kept_not_onFull.writeStream hroom .stdout data
    have hok := writeStream_of_room hroom data
    exact ⟨(h.writeStream .stdout data).2, Prod.ext hok rfl, hkept⟩

theorem flush_of_room (hroom : ¬ h.OnFull) : h.flush.1 = .ok () := by
  obtain ⟨k, hflush, -, -⟩ := @Flows.flush _ [] h flows_room hroom
  rw [hflush]

theorem print_of_room (hroom : ¬ h.OnFull) (piece : Text) : (h.print piece).1 = .ok () := by
  obtain ⟨-, k, hprinted, -, -⟩ := @prints_print _ [] h flows_room hroom piece
  rw [hprinted]

theorem printAll_of_room (hroom : ¬ h.OnFull) (pieces : List Text) :
    (h.printAll pieces).1 = .ok () := by
  obtain ⟨-, k, hprinted, -, -⟩ := @prints_printAll _ [] h flows_room hroom pieces
  rw [hprinted]

/-! ## Room for nothing -/

theorem writeStream_onFull (hfull : h.OnFull) {data : Bytes} (hdata : data ≠ []) :
    h.writeStream .stdout data = (.error (.os .noSpace), h) := by
  obtain ⟨number, d, hnumber, hd, hsink⟩ := OpenFiles.sink?_eq_some hfull
  simp only [writeStream, write, if_neg hdata, hnumber, writeTo, hd, hsink]

theorem writeStream_onFull_snd (hfull : h.OnFull) (data : Bytes) :
    (h.writeStream .stdout data).2 = h := by
  by_cases hdata : data = []
  · subst hdata
    rfl
  · rw [writeStream_onFull hfull hdata]

structure Stuck (h : Host) : Prop where
  onFull : h.OnFull
  waiting : h.pending ≠ []

theorem Stuck.flush (hstuck : h.Stuck) : h.flush = (.error (.os .noSpace), h) := by
  unfold Host.flush
  rw [writeStream_onFull hstuck.onFull hstuck.waiting]

theorem Stuck.andThen {r : Except IOError Unit × Host}
    {next : Host → Except IOError Unit × Host} (hr : r.2.Stuck)
    (hnext : ∀ k : Host, k.Stuck → (next k).2.Stuck) : (Host.andThen r next).2.Stuck := by
  obtain ⟨result, k⟩ := r
  cases result with
  | error e => exact hr
  | ok u => exact hnext k hr

theorem Stuck.wait (hstuck : h.Stuck) (data : Bytes) :
    Stuck { h with pending := h.pending ++ data } :=
  ⟨hstuck.onFull, by simp [hstuck.waiting]⟩

theorem Stuck.buffer (hstuck : h.Stuck) (data : Bytes) : (h.buffer data).2.Stuck := by
  rw [buffer_eq]
  split
  · exact hstuck.wait data
  · refine Stuck.andThen ?_ fun k hk => ?_
    · split
      · rw [hstuck.flush]
        exact hstuck
      · exact hstuck
    · split
      · rw [writeStream_onFull_snd hk.onFull]
        exact hk
      · exact hk.wait data

theorem Stuck.print (hstuck : h.Stuck) (piece : Text) : (h.print piece).2.Stuck := by
  have hflush : h.flush.2.Stuck := by
    rw [hstuck.flush]
    exact hstuck
  rw [print_eq]
  rcases splitLastLine (Utf8.encode piece) with ⟨whole, rest⟩
  dsimp only
  have hrest : ∀ k : Host, k.Stuck → (k.buffer rest).2.Stuck := fun k hk => hk.buffer rest
  split
  · refine Stuck.andThen ?_ hrest
    split
    · exact hflush
    · exact hstuck
  · rw [if_neg hstuck.waiting]
    refine (hstuck.buffer whole).andThen fun k hk => ?_
    rw [hk.flush]
    exact hk

theorem Stuck.printAll (hstuck : h.Stuck) (pieces : List Text) : (h.printAll pieces).2.Stuck := by
  induction pieces generalizing h with
  | nil => exact hstuck
  | cons piece pieces ih =>
      rw [printAll_cons]
      exact (hstuck.print piece).andThen fun k hk => ih hk

def lineEnd : UInt8 := 0x0A

/-- Whether the first piece that is not empty fits into an empty buffer and ends no line. -/
def waitsFirst : List Text → Bool
  | [] => false
  | piece :: pieces =>
      let data := Utf8.encode piece
      if data = [] then waitsFirst pieces
      else decide (lineEnd ∉ data ∧ data.length < bufferSize)

theorem splitLastLine_of_not_mem {data : Bytes} (hdata : lineEnd ∉ data) :
    splitLastLine data = ([], data) := by
  have hrest : data.reverse.takeWhile (· != 0x0A) = data.reverse := by
    apply List.takeWhile_eq_self_iff.mpr
    intro b hb
    have hne : b ≠ lineEnd := fun heq => hdata (heq ▸ List.mem_reverse.mp hb)
    exact bne_iff_ne.mpr hne
  simp [splitLastLine, hrest]

theorem splitLastLine_of_mem {data : Bytes} (hdata : lineEnd ∈ data) :
    (splitLastLine data).1 ≠ [] := by
  intro hwhole
  have hlength : data.length ≤ (data.reverse.takeWhile (· != 0x0A)).length := by
    have htake : data.length - (data.reverse.takeWhile (· != 0x0A)).length = 0 ∨ data = [] := by
      simpa [splitLastLine] using hwhole
    rcases htake with hzero | hnil
    · omega
    · simp [hnil]
  have hall : data.reverse.takeWhile (· != 0x0A) = data.reverse :=
    (List.takeWhile_prefix (· != 0x0A)).eq_of_length_le (by simpa using hlength)
  have hend := List.takeWhile_eq_self_iff.mp hall lineEnd (List.mem_reverse.mpr hdata)
  exact absurd hend (by decide)

theorem buffer_of_pending_eq_nil (hpending : h.pending = []) (data : Bytes) :
    h.buffer data =
      if data.length < bufferSize then (.ok (), { h with pending := data })
      else h.writeStream .stdout data := by
  rw [buffer_eq, hpending, flush_of_pending_eq_nil hpending, ite_self]
  simp only [List.length_nil, Nat.sub_zero, List.nil_append]
  by_cases hsize : data.length < bufferSize
  · rw [if_pos hsize, if_pos hsize]
  · rw [if_neg hsize, if_neg hsize]
    simp only [andThen, if_pos (Nat.le_of_not_lt hsize)]

theorem print_of_not_mem (hpending : h.pending = []) {piece : Text}
    (hend : lineEnd ∉ Utf8.encode piece) : h.print piece = h.buffer (Utf8.encode piece) := by
  rw [print_eq, splitLastLine_of_not_mem hend, hpending]
  rfl

theorem print_of_mem (hfull : h.OnFull) (hpending : h.pending = []) {piece : Text}
    (hend : lineEnd ∈ Utf8.encode piece) : h.print piece = (.error (.os .noSpace), h) := by
  have hwhole := splitLastLine_of_mem hend
  rw [print_eq]
  generalize splitLastLine (Utf8.encode piece) = cut at hwhole ⊢
  dsimp only
  rw [if_neg hwhole, if_pos hpending, writeStream_onFull hfull hwhole]
  rfl

/-- Printing to the device without room leaves something waiting just if the first piece waits. -/
theorem pending_printAll_iff (hfull : h.OnFull) (hpending : h.pending = []) (pieces : List Text) :
    (h.printAll pieces).2.pending = [] ↔ waitsFirst pieces = false := by
  induction pieces with
  | nil => simp [printAll, waitsFirst, hpending]
  | cons piece pieces ih =>
      rw [printAll_cons]
      by_cases hdata : Utf8.encode piece = []
      · have hprint : h.print piece = (.ok (), h) := by
          rw [print_of_not_mem hpending (by simp [hdata]), buffer_of_pending_eq_nil hpending, hdata,
            if_pos (by decide), ← hpending]
        simp only [hprint, andThen, waitsFirst, if_pos hdata]
        exact ih
      · -- a line end makes the piece go past the buffer at once, and fail
        by_cases hend : lineEnd ∈ Utf8.encode piece
        · simp [print_of_mem hfull hpending hend, andThen, waitsFirst, hdata, hend, hpending]
        · rw [print_of_not_mem hpending hend, buffer_of_pending_eq_nil hpending]
          by_cases hsize : (Utf8.encode piece).length < bufferSize
          · have hstuck : Stuck { h with pending := Utf8.encode piece } := ⟨hfull, hdata⟩
            have hwaiting := (hstuck.printAll pieces).waiting
            rw [if_pos hsize]
            simp only [andThen, waitsFirst, if_neg hdata, hwaiting, hend, hsize]
            decide
          · rw [if_neg hsize, writeStream_onFull hfull hdata]
            simp [andThen, waitsFirst, hdata, hsize, hpending]

end Host

end LineShell
