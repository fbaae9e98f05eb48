import LineShell.Host
import LineShell.Proofs.Host.Descriptors

/-!
# Writing to the standard streams

A write changes what its sink leads to and nothing else.  What waits in the buffer stays, every
descriptor keeps its sink, and the terminal of standard output gets something only if the
descriptor leads there.
-/

namespace LineShell

def Stream.other : Stream → Stream
  | stdout => stderr
  | stderr => stdout

theorem Stream.other_ne (stream : Stream) : stream.other ≠ stream := by
  cases stream <;> decide

theorem Stream.eq_or_eq_other (stream one : Stream) : one = stream ∨ one = stream.other := by
  cases stream <;> cases one <;> decide

theorem Stream.other_descriptor_ne (stream : Stream) :
    stream.other.descriptor ≠ stream.descriptor := by
  cases stream <;> decide

namespace Host

def received (h : Host) : Stream → Bytes
  | .stdout => h.out
  | .stderr => h.err

theorem received_congr {h k : Host} (hout : h.out = k.out) (herr : h.err = k.err)
    (stream : Stream) : h.received stream = k.received stream := by
  cases stream with
  | stdout => exact hout
  | stderr => exact herr

def receive (h : Host) : Stream → Bytes → Host
  | .stdout, data => { h with out := h.out ++ data }
  | .stderr, data => { h with err := h.err ++ data }

section receive

variable (h : Host) (stream : Stream) (data : Bytes)

@[simp] theorem tree_receive : (h.receive stream data).tree = h.tree := by cases stream <;> rfl

@[simp] theorem files_receive : (h.receive stream data).files = h.files := by cases stream <;> rfl

@[simp] theorem pending_receive : (h.receive stream data).pending = h.pending := by
  cases stream <;> rfl

@[simp] theorem received_receive :
    (h.receive stream data).received stream = h.received stream ++ data := by
  cases stream <;> rfl

theorem received_receive_of_ne {other : Stream} (hne : other ≠ stream) :
    (h.receive stream data).received other = h.received other := by
  cases stream <;> cases other <;> simp_all [receive, received]

end receive

@[simp] theorem receive_nil (h : Host) (stream : Stream) : h.receive stream [] = h := by
  cases stream <;> simp [receive]

theorem write_terminal {h : Host} {fd : Descriptor} {stream : Stream}
    (hsink : h.files.sink? fd = some (.terminal stream)) (data : Bytes) :
    h.write fd data = (.ok (), h.receive stream data) := by
  obtain ⟨number, d, hnumber, hd, hsink⟩ := OpenFiles.sink?_eq_some hsink
  unfold write
  split
  · next hdata => simp [hdata]
  · cases stream <;> simp [hnumber, writeTo, hd, hsink, receive]

theorem write_close (h : Host) {fd other : Descriptor} (hne : other ≠ fd) (data : Bytes) :
    (h.close fd).write other data = ((h.write other data).1, (h.write other data).2.close fd) := by
  have hnumber : (h.close fd).files.number? other = h.files.number? other :=
    (OpenFiles.number?_close ..).trans (if_neg hne)
  unfold write
  rw [hnumber]
  split
  · rfl
  · cases h.files.number? other with
    | none => rfl
    | some number =>
        unfold writeTo
        dsimp only [close, OpenFiles.close]
        cases h.files.descriptions[number]? with
        | none => rfl
        | some d =>
            dsimp only
            cases d.sink with
            | unlinked => rfl
            | device device => cases device <;> rfl
            | terminal stream => cases stream <;> rfl
            | file p =>
                dsimp only
                split <;> rfl

theorem overwrite_end (content data : Bytes) :
    overwrite content content.length data = content ++ data := by
  simp [overwrite]

theorem write_file_end {h : Host} {fd : Descriptor} {number : Nat} {d : Description} {p : Place}
    {perms : Mode} {content data : Bytes} (hnumber : h.files.number? fd = some number)
    (hd : h.files.descriptions[number]? = some d) (hsink : d.sink = .file p)
    (hfile : h.tree.get? p = some (.file perms content))
    (hend : d.append = true ∨ d.offset = content.length) (hdata : data ≠ []) :
    h.write fd data =
      (.ok (), { h with
        tree := h.tree.put p (.file perms.afterWrite (content ++ data))
        files := h.files.moveTo number (content ++ data).length }) := by
  have hoffset : (if d.append then content.length else d.offset) = content.length := by
    rcases hend with happend | hlength
    · simp [happend]
    · simp [hlength]
  simp only [write, hdata, hnumber, writeTo, hd, hsink, hfile, hoffset, overwrite_end,
    List.length_append, if_false]

/-! ## What a write keeps -/

inductive Written (h : Host) (fd : Descriptor) (data : Bytes) : Host → Prop
  | nowhere : Written h fd data h
  | terminal {stream : Stream} (hsink : h.files.sink? fd = some (.terminal stream)) :
      Written h fd data (h.receive stream data)
  | file {number : Nat} {d : Description} {p : Place} {perms : Mode} {content : Bytes}
      {offset : Nat} (hdata : data ≠ []) (hnumber : h.files.number? fd = some number)
      (hd : h.files.descriptions[number]? = some d) (hsink : d.sink = .file p)
      (hfile : h.tree.get? p = some (.file perms content))
      (hoffset : offset = if d.append then content.length else d.offset) :
      Written h fd data { h with
        tree := h.tree.put p (.file perms.afterWrite (overwrite content offset data))
        files := h.files.moveTo number (offset + data.length) }

theorem written (h : Host) (fd : Descriptor) (data : Bytes) :
    Written h fd data (h.write fd data).2 := by
  unfold write
  split
  · exact .nowhere
  · next hdata =>
      cases hnumber : h.files.number? fd with
      | none => exact .nowhere
      | some number =>
          unfold writeTo
          dsimp only
          cases hd : h.files.descriptions[number]? with
          | none => exact .nowhere
          | some d =>
              have hfd : h.files.sink? fd = some d.sink := by
                rw [OpenFiles.sink?, OpenFiles.description?, hnumber, Option.bind_some, hd,
                  Option.map_some]
              dsimp only
              cases hsink : d.sink with
              | unlinked => exact .nowhere
              | device device => cases device <;> exact .nowhere
              | terminal stream =>
                  rw [hsink] at hfd
                  cases stream <;> exact .terminal hfd
              | file p =>
                  dsimp only
                  split
                  · next hfile => exact .file hdata hnumber hd hsink hfile rfl
                  · exact .nowhere

@[simp] theorem pending_write (h : Host) (fd : Descriptor) (data : Bytes) :
    (h.write fd data).2.pending = h.pending := by
  have hwritten := h.written fd data
  generalize (h.write fd data).2 = k at hwritten ⊢
  cases hwritten with
  | nowhere => rfl
  | terminal => exact pending_receive h _ data
  | file => rfl

theorem writeStream_snd (h : Host) (stream : Stream) (data : Bytes) :
    (h.writeStream stream data).2 = (h.write stream.descriptor data).2 := by
  unfold writeStream
  rcases h.write stream.descriptor data with ⟨e | _, k⟩
  · cases e <;> rfl
  · rfl

@[simp] theorem pending_writeStream (h : Host) (stream : Stream) (data : Bytes) :
    (h.writeStream stream data).2.pending = h.pending := by
  rw [writeStream_snd, pending_write]

theorem stays_write (h : Host) (fd : Descriptor) (data : Bytes) :
    h.files.Stays (h.write fd data).2.files := by
  have hwritten := h.written fd data
  generalize (h.write fd data).2 = k at hwritten ⊢
  cases hwritten with
  | nowhere => exact .refl h.files
  | terminal =>
      rw [files_receive]
      exact .refl h.files
  | file => exact .moveTo h.files _ _

theorem received_write {h : Host} {fd : Descriptor} {stream : Stream}
    (hsink : h.files.sink? fd ≠ some (.terminal stream)) (data : Bytes) :
    (h.write fd data).2.received stream = h.received stream := by
  have hwritten := h.written fd data
  generalize (h.write fd data).2 = k at hwritten ⊢
  cases hwritten with
  | nowhere => rfl
  | terminal hother =>
      refine received_receive_of_ne h _ data ?_
      rintro rfl
      exact hsink hother
  | file => cases stream <;> rfl

theorem out_write {h : Host} {fd : Descriptor}
    (hsink : h.files.sink? fd ≠ some (.terminal .stdout)) (data : Bytes) :
    (h.write fd data).2.out = h.out :=
  received_write hsink data

theorem out_writeStream {h : Host} {stream : Stream}
    (hsink : h.files.sink? stream.descriptor ≠ some (.terminal .stdout)) (data : Bytes) :
    (h.writeStream stream data).2.out = h.out := by
  rw [writeStream_snd, out_write hsink]

end Host

end LineShell
