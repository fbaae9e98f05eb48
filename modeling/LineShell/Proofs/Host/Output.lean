import LineShell.Host.Output
import LineShell.Host.Reporter
import LineShell.Proofs.Host.Streams

/-!
# Output in steps

All output of a session goes through writes to the two standard streams and through the buffer in
front of standard output.  A relation between hosts that outlasts each write and each change of
the buffer therefore outlasts every way to print, and both hosts see the same results.
-/

namespace LineShell

namespace Host

def andThen (r : Except IOError Unit × Host) (next : Host → Except IOError Unit × Host) :
    Except IOError Unit × Host :=
  match r with
  | (.error e, h) => (.error e, h)
  | (.ok (), h) => next h

theorem flush_eq (h : Host) :
    h.flush =
      andThen (h.writeStream .stdout h.pending) fun h => (.ok (), { h with pending := [] }) :=
  rfl

theorem buffer_eq (h : Host) (data : Bytes) :
    h.buffer data =
      if data.length < bufferSize - h.pending.length then
        (.ok (), { h with pending := h.pending ++ data })
      else
        andThen (if bufferSize - h.pending.length < data.length then h.flush else (.ok (), h))
          fun h =>
            if bufferSize ≤ data.length then h.writeStream .stdout data
            else (.ok (), { h with pending := h.pending ++ data }) :=
  rfl

theorem print_eq (h : Host) (piece : Text) :
    h.print piece =
      let (whole, rest) := splitLastLine (Utf8.encode piece)
      if whole = [] then
        andThen (if h.pending.getLast? = some 0x0A then h.flush else (.ok (), h)) (buffer · rest)
      else if h.pending = [] then andThen (h.writeStream .stdout whole) (buffer · rest)
      else andThen (h.buffer whole) fun h => andThen h.flush (buffer · rest) := by
  unfold print
  rcases splitLastLine (Utf8.encode piece) with ⟨_ | ⟨b, whole⟩, rest⟩ <;> rfl

theorem printAll_cons (h : Host) (piece : Text) (pieces : List Text) :
    h.printAll (piece :: pieces) = andThen (h.print piece) (printAll · pieces) :=
  rfl

theorem pending_act (p : Process) (args : List Text) (h : Host) :
    (Reporter.act p args h).2.pending = h.pending := by
  induction args generalizing h with
  | nil => rfl
  | cons arg args ih =>
      have hemit : ∀ stream t, (Reporter.emit h stream t).pending = h.pending :=
        fun stream t => pending_write h _ _
      unfold Reporter.act
      cases Reporter.Action.ofArgument arg with
      | write stream t => exact (ih _).trans (hemit stream _)
      | listArguments => exact (ih _).trans (hemit .stdout _)
      | tellWorkDir => exact (ih _).trans (hemit .stdout _)
      | tellImage => exact (ih _).trans (hemit .stdout _)
      | listVariables => exact (ih _).trans (hemit .stdout _)
      | exit status => rfl
      | die signal => rfl
      | nothing => exact ih h

theorem flush_of_pending_eq_nil {h : Host} (hpending : h.pending = []) : h.flush = (.ok (), h) := by
  cases h
  subst hpending
  rfl

/-! ## Two hosts that are written to alike -/

def Agree {ε : Type} (R : Host → Host → Prop) (a b : ε × Host) : Prop := a.1 = b.1 ∧ R a.2 b.2

/-- A relation that outlasts all output: related hosts have the same buffer, may change it alike,
and a write to a stream of theirs has the same result. -/
structure OutputStable (R : Host → Host → Prop) : Prop where
  pending : ∀ {h k}, R h k → h.pending = k.pending
  await : ∀ {h k}, R h k → ∀ waiting,
    R { h with pending := waiting } { k with pending := waiting }
  write : ∀ {h k}, R h k → ∀ (stream : Stream) (data : Bytes),
    Agree R (h.write stream.descriptor data) (k.write stream.descriptor data)

variable {R : Host → Host → Prop}

theorem Agree.exists_eq {ε : Type} {a b : ε × Host} (hab : Agree R a b) :
    ∃ r h k, a = (r, h) ∧ b = (r, k) ∧ R h k :=
  ⟨a.1, a.2, b.2, rfl, Prod.ext hab.1.symm rfl, hab.2⟩

theorem Agree.andThen {a b : Except IOError Unit × Host} (hab : Agree R a b)
    {f g : Host → Except IOError Unit × Host} (hfg : ∀ h k, R h k → Agree R (f h) (g k)) :
    Agree R (Host.andThen a f) (Host.andThen b g) := by
  obtain ⟨r, h, k, rfl, rfl, hrel⟩ := hab.exists_eq
  cases r with
  | error e => exact ⟨rfl, hrel⟩
  | ok u => exact hfg h k hrel

namespace OutputStable

variable {h k : Host}

theorem writeStream (hR : OutputStable R) (hk : R h k) (stream : Stream) (data : Bytes) :
    Agree R (h.writeStream stream data) (k.writeStream stream data) := by
  obtain ⟨r, h', k', hwrite, hwrite', hrel⟩ := (hR.write hk stream data).exists_eq
  unfold Host.writeStream
  rw [hwrite, hwrite']
  cases r with
  | error e => cases e <;> exact ⟨rfl, hrel⟩
  | ok u => exact ⟨rfl, hrel⟩

theorem flush (hR : OutputStable R) (hk : R h k) : Agree R h.flush k.flush := by
  rw [flush_eq, flush_eq, hR.pending hk]
  exact (hR.writeStream hk .stdout k.pending).andThen fun h k hk => ⟨rfl, hR.await hk []⟩

theorem buffer (hR : OutputStable R) (hk : R h k) (data : Bytes) :
    Agree R (h.buffer data) (k.buffer data) := by
  have hkeep : ∀ {h k}, R h k → R { h with pending := h.pending ++ data }
      { k with pending := k.pending ++ data } := by
    intro h k hk
    rw [← hR.pending hk]
    exact hR.await hk _
  rw [buffer_eq, buffer_eq, hR.pending hk]
  split
  · exact ⟨rfl, by simpa [hR.pending hk] using hkeep hk⟩
  · refine Agree.andThen ?_ fun h k hk => ?_
    · split
      · exact hR.flush hk
      · exact ⟨rfl, hk⟩
    · split
      · exact hR.writeStream hk .stdout data
      · exact ⟨rfl, hkeep hk⟩

theorem print (hR : OutputStable R) (hk : R h k) (piece : Text) :
    Agree R (h.print piece) (k.print piece) := by
  rw [print_eq, print_eq, hR.pending hk]
  rcases splitLastLine (Utf8.encode piece) with ⟨whole, rest⟩
  dsimp only
  split
  · refine Agree.andThen ?_ fun h k hk => hR.buffer hk rest
    split
    · exact hR.flush hk
    · exact ⟨rfl, hk⟩
  · split
    · exact (hR.writeStream hk .stdout whole).andThen fun h k hk => hR.buffer hk rest
    · refine (hR.buffer hk whole).andThen fun h k hk => ?_
      exact (hR.flush hk).andThen fun h k hk => hR.buffer hk rest

theorem printAll (hR : OutputStable R) (hk : R h k) (pieces : List Text) :
    Agree R (h.printAll pieces) (k.printAll pieces) := by
  induction pieces generalizing h k with
  | nil => exact ⟨rfl, hk⟩
  | cons piece pieces ih =>
      rw [printAll_cons, printAll_cons]
      exact (hR.print hk piece).andThen fun h k hk => ih hk

theorem emit (hR : OutputStable R) (hk : R h k) (stream : Stream) (t : Text) :
    R (Reporter.emit h stream t) (Reporter.emit k stream t) :=
  (hR.write hk stream (Utf8.encode t)).2

theorem act (hR : OutputStable R) (hk : R h k) (p : Process) (args : List Text) :
    Agree R (Reporter.act p args h) (Reporter.act p args k) := by
  induction args generalizing h k with
  | nil => exact ⟨rfl, hk⟩
  | cons arg args ih =>
      unfold Reporter.act
      cases Reporter.Action.ofArgument arg with
      | write stream t => exact ih (hR.emit hk stream _)
      | listArguments => exact ih (hR.emit hk .stdout _)
      | tellWorkDir => exact ih (hR.emit hk .stdout _)
      | tellImage => exact ih (hR.emit hk .stdout _)
      | listVariables => exact ih (hR.emit hk .stdout _)
      | exit status => exact ⟨rfl, hk⟩
      | die signal => exact ⟨rfl, hk⟩
      | nothing => exact ih hk

end OutputStable

/-! ## What outlasts output -/

/-- A property of one host that outlasts each write, each change of the buffer and each launch. -/
structure Kept (P : Host → Prop) : Prop where
  await : ∀ {h}, P h → ∀ waiting, P { h with pending := waiting }
  write : ∀ {h}, P h → ∀ (stream : Stream) (data : Bytes), P (h.write stream.descriptor data).2
  record : ∀ {h}, P h → ∀ l : Launch, P { h with launches := h.launches ++ [l] }

namespace Kept

variable {P : Host → Prop} {h : Host}

theorem outputStable (hP : Kept P) : OutputStable fun h k => h = k ∧ P h where
  pending := by
    rintro h k ⟨rfl, -⟩
    rfl
  await := by
    rintro h k ⟨rfl, hh⟩ waiting
    exact ⟨rfl, hP.await hh waiting⟩
  write := by
    rintro h k ⟨rfl, hh⟩ stream data
    exact ⟨rfl, rfl, hP.write hh stream data⟩

theorem writeStream (hP : Kept P) (hh : P h) (stream : Stream) (data : Bytes) :
    P (h.writeStream stream data).2 :=
  (hP.outputStable.writeStream ⟨rfl, hh⟩ stream data).2.2

theorem flush (hP : Kept P) (hh : P h) : P h.flush.2 := (hP.outputStable.flush ⟨rfl, hh⟩).2.2

theorem print (hP : Kept P) (hh : P h) (piece : Text) : P (h.print piece).2 :=
  (hP.outputStable.print ⟨rfl, hh⟩ piece).2.2

theorem printAll (hP : Kept P) (hh : P h) (pieces : List Text) : P (h.printAll pieces).2 :=
  (hP.outputStable.printAll ⟨rfl, hh⟩ pieces).2.2

end Kept

theorem kept_stays (o : OpenFiles) : Kept fun h => o.Stays h.files where
  await := fun hh _ => hh
  write := fun {h} hh stream data => hh.trans (stays_write h stream.descriptor data)
  record := fun hh _ => hh

theorem kept_out {o : OpenFiles}
    (ho : ∀ stream : Stream, o.sink? stream.descriptor ≠ some (.terminal .stdout)) (out : Bytes) :
    Kept fun h => o.Stays h.files ∧ h.out = out where
  await := fun hh _ => hh
  write := fun {h} hh stream data => by
    obtain ⟨hfiles, hout⟩ := hh
    have hsink : h.files.sink? stream.descriptor ≠ some (.terminal .stdout) := by
      rw [hfiles.sink?]
      exact ho stream
    constructor
    · exact (kept_stays o).write hfiles stream data
    · rw [out_write hsink, hout]
  record := fun hh _ => hh

end Host

end LineShell
