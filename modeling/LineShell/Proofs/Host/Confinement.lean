import LineShell.Proofs.Host.Opening
import LineShell.Proofs.Host.Output

/-!
# Where writes go

A write goes through one description: its offset, the file or the terminal that it leads to, and
nothing else changes.  On a host whose descriptors all stand for descriptions, and whose
descriptions of files lead to files, data that are written stand in the file where the description
says, octet by octet, with the rest of the file as it was.
-/

namespace LineShell

namespace Host

theorem flush_eq_write (h : Host) :
    ∃ waiting, h.flush.2 = { (h.write Stream.stdout.descriptor h.pending).2 with
      pending := waiting } := by
  rw [← writeStream_snd]
  unfold flush
  rcases h.writeStream .stdout h.pending with ⟨_ | _, k⟩
  · exact ⟨k.pending, rfl⟩
  · exact ⟨[], rfl⟩

/-- From one host to another nothing changed but by writes to some descriptions. -/
structure Confined (numbers : Nat → Prop) (h k : Host) : Prop where
  files : h.files.Stays k.files
  description : ∀ n, ¬ numbers n → k.files.descriptions[n]? = h.files.descriptions[n]?
  tree : ∀ p, (∀ n, numbers n →
      (h.files.descriptions.map (·.sink))[n]? ≠ some (.file p)) → k.tree.get? p = h.tree.get? p
  terminal : ∀ stream, (∀ n, numbers n →
      (h.files.descriptions.map (·.sink))[n]? ≠ some (.terminal stream)) →
    k.received stream = h.received stream

namespace Confined

variable {numbers : Nat → Prop} {h k k' : Host}

theorem refl (numbers : Nat → Prop) (h : Host) : Confined numbers h h :=
  ⟨.refl h.files, fun _ _ => rfl, fun _ _ => rfl, fun _ _ => rfl⟩

theorem trans (hk : Confined numbers h k) (hk' : Confined numbers k k') :
    Confined numbers h k' := by
  constructor
  · exact hk.files.trans hk'.files
  · intro n hn
    rw [hk'.description n hn, hk.description n hn]
  · intro p hp
    rw [hk'.tree p (by rwa [hk.files.sinks]), hk.tree p hp]
  · intro stream hstream
    rw [hk'.terminal stream (by rwa [hk.files.sinks]), hk.terminal stream hstream]

theorem await (hk : Confined numbers h k) (waiting : Bytes) :
    Confined numbers h { k with pending := waiting } :=
  ⟨hk.files, hk.description, hk.tree, fun stream hstream => by
    rw [← hk.terminal stream hstream]
    cases stream <;> rfl⟩

theorem write {fd : Descriptor} (hfd : ∀ n, h.files.number? fd = some n → numbers n)
    (data : Bytes) : Confined numbers h (h.write fd data).2 := by
  have hwritten := h.written fd data
  generalize (h.write fd data).2 = k at hwritten ⊢
  cases hwritten with
  | nowhere => exact refl numbers h
  | @terminal stream hsink =>
      obtain ⟨number, d, hnumber, hd, hsink⟩ := OpenFiles.sink?_eq_some hsink
      refine ⟨?_, fun _ _ => by rw [files_receive], fun _ _ => by rw [tree_receive], ?_⟩
      · rw [files_receive]
        exact .refl h.files
      · intro other hother
        refine received_receive_of_ne h stream data ?_
        rintro rfl
        exact hother number (hfd number hnumber) (by rw [List.getElem?_map, hd, ← hsink]; rfl)
  | @file number d p perms content offset hdata hnumber hd hsink hfile hoffset =>
      refine ⟨.moveTo h.files _ _, ?_, ?_, fun stream _ => by cases stream <;> rfl⟩
      · intro n hn
        refine OpenFiles.getElem?_moveTo_of_ne _ ?_ _
        rintro rfl
        exact hn (hfd _ hnumber)
      · intro q hq
        have hne : q ≠ p := by
          rintro rfl
          exact hq number (hfd number hnumber) (by rw [List.getElem?_map, hd, ← hsink]; rfl)
        rw [FileTree.get?_put, if_neg hne]

theorem flush (hout : ∀ n, h.files.number? Stream.stdout.descriptor = some n → numbers n) :
    Confined numbers h h.flush.2 := by
  obtain ⟨waiting, heq⟩ := flush_eq_write h
  rw [heq]
  exact (write hout h.pending).await waiting

theorem settle {fd : Descriptor} (hfd : ∀ n, h.files.number? fd = some n → numbers n) :
    Confined numbers h (h.settle fd) := by
  unfold Host.settle
  split
  · next hstdout => exact flush (hstdout ▸ hfd)
  · exact refl numbers h

end Confined

theorem kept_confined {numbers : Nat → Prop} {h : Host}
    (hstreams : ∀ (stream : Stream) n, h.files.number? stream.descriptor = some n → numbers n) :
    Kept (Confined numbers h) where
  await := fun hk waiting => hk.await waiting
  write := fun {k} hk stream data => by
    refine hk.trans (.write ?_ data)
    intro n hn
    exact hstreams stream n ((hk.files.number stream.descriptor).symm.trans hn)
  record := fun hk _ => ⟨hk.files, hk.description, hk.tree, hk.terminal⟩

/-! ## Hosts whose open files are in order -/

theorem get?_put_file {t : FileTree} {p : Place} {perms : Mode} {content : Bytes}
    (hfile : t.get? p = some (.file perms content)) (q : Place) (perms' : Mode)
    (content' : Bytes) :
    ∃ perms content, (t.put q (.file perms' content')).get? p = some (.file perms content) := by
  by_cases hp : p = q
  · exact ⟨_, _, by rw [FileTree.get?_put, if_pos hp]⟩
  · exact ⟨perms, content, by rw [FileTree.get?_put, if_neg hp, hfile]⟩

theorem Opening.get?_of_file {h : Host} {mode : WriteMode} {path : Text} {sink : Sink}
    {tree : FileTree} (ho : Opening h mode path sink tree) {p : Place} {perms : Mode}
    {content : Bytes} (hfile : h.tree.get? p = some (.file perms content)) :
    ∃ perms content, tree.get? p = some (.file perms content) := by
  cases ho with
  | created => exact get?_put_file hfile _ _ _
  | kept => exact ⟨perms, content, hfile⟩
  | emptied => exact get?_put_file hfile _ _ _
  | device => exact ⟨perms, content, hfile⟩

/-- Every open descriptor stands for a description, and every description of a file leads to a
file. -/
structure Sound (h : Host) : Prop where
  number : ∀ fd n, h.files.number? fd = some n → n < h.files.descriptions.length
  file : ∀ p, Sink.file p ∈ h.files.descriptions.map (·.sink) →
    ∃ perms content, h.tree.get? p = some (.file perms content)

namespace Sound

variable {h k : Host}

theorem await (hs : h.Sound) (waiting : Bytes) : Sound { h with pending := waiting } :=
  ⟨hs.number, hs.file⟩

theorem of_stays (hs : h.Sound) (hfiles : h.files.Stays k.files)
    (htree : ∀ p perms content, h.tree.get? p = some (.file perms content) →
      ∃ perms content, k.tree.get? p = some (.file perms content)) : k.Sound := by
  constructor
  · intro fd n hn
    rw [hfiles.length]
    exact hs.number fd n ((hfiles.number fd).symm.trans hn)
  · intro p hp
    rw [hfiles.sinks] at hp
    obtain ⟨perms, content, hfile⟩ := hs.file p hp
    exact htree p perms content hfile

theorem write (hs : h.Sound) (fd : Descriptor) (data : Bytes) : (h.write fd data).2.Sound := by
  refine hs.of_stays (stays_write h fd data) fun p perms content hfile => ?_
  have hwritten := h.written fd data
  generalize (h.write fd data).2 = k at hwritten ⊢
  cases hwritten with
  | nowhere => exact ⟨perms, content, hfile⟩
  | terminal => exact ⟨perms, content, by rw [tree_receive, hfile]⟩
  | file => exact get?_put_file hfile _ _ _

theorem settle (hs : h.Sound) (fd : Descriptor) : (h.settle fd).Sound := by
  unfold Host.settle
  split
  · obtain ⟨waiting, heq⟩ := flush_eq_write h
    rw [heq]
    exact (hs.write Stream.stdout.descriptor h.pending).await waiting
  · exact hs

theorem of_descriptions (hs : h.Sound) {files : OpenFiles}
    (hdescriptions : files.descriptions = h.files.descriptions)
    (hnumber : ∀ fd n, files.number? fd = some n → ∃ source, h.files.number? source = some n) :
    Sound { h with files := files } := by
  constructor
  · intro fd n hn
    obtain ⟨source, hsource⟩ := hnumber fd n hn
    change n < files.descriptions.length
    rw [hdescriptions]
    exact hs.number source n hsource
  · intro p hp
    change Sink.file p ∈ files.descriptions.map (·.sink) at hp
    rw [hdescriptions] at hp
    exact hs.file p hp

theorem assign (hs : h.Sound) (fd source : Descriptor) :
    Sound { h with files := h.files.assign fd source } := by
  cases hsource : h.files.number? source with
  | none =>
      unfold OpenFiles.assign
      rw [hsource]
      exact hs
  | some number =>
      refine hs.of_descriptions (OpenFiles.descriptions_assign h.files fd source)
        fun other n hn => ?_
      rw [OpenFiles.number?_assign hsource] at hn
      split at hn
      · exact ⟨source, hsource.trans hn⟩
      · exact ⟨other, hn⟩

theorem close (hs : h.Sound) (fd : Descriptor) : (h.close fd).Sound := by
  refine hs.of_descriptions (OpenFiles.descriptions_close h.files fd) fun other n hn => ?_
  rw [OpenFiles.number?_close] at hn
  split at hn
  · cases hn
  · exact ⟨other, hn⟩

theorem withOpened (hs : h.Sound) {mode : WriteMode} {path : Text} {sink : Sink} {tree : FileTree}
    (ho : Opening h mode path sink tree) : (h.withOpened mode sink tree).Sound := by
  have hopened := OpenFiles.Extends.add h.files ⟨sink, 0, decide (mode = .append)⟩
  constructor
  · intro fd n hn
    have hlength : (h.withOpened mode sink tree).files.descriptions.length =
        h.files.descriptions.length + 1 := by simp [Host.withOpened]
    rw [number?_withOpened] at hn
    split at hn
    · cases hn
      omega
    · have hbefore := hs.number fd n hn
      omega
  · intro p hp
    change Sink.file p ∈ (h.files.add _).descriptions.map (·.sink) at hp
    rw [hopened.sinks, List.mem_append, List.mem_singleton] at hp
    rcases hp with hp | rfl
    · obtain ⟨perms, content, hfile⟩ := hs.file p hp
      exact ho.get?_of_file hfile
    · obtain ⟨perms, content, hfile, -⟩ := ho.get?_file
      exact ⟨perms, content, hfile⟩

end Sound

/-! ## Data in a file -/

structure Overwritten (content : Bytes) (offset : Nat) (data after : Bytes) : Prop where
  length : after.length = max content.length (offset + data.length)
  written : ∀ i < data.length, after[offset + i]? = data[i]?
  kept : ∀ i < content.length, i < offset ∨ offset + data.length ≤ i → after[i]? = content[i]?
  gap : ∀ i < offset, content.length ≤ i → after[i]? = some 0

theorem overwritten_overwrite (content : Bytes) (offset : Nat) (data : Bytes) :
    Overwritten content offset data (overwrite content offset data) := by
  have hfront : (content.take offset ++
      List.replicate (offset - content.length) 0).length = offset := by
    simp only [List.length_append, List.length_take, List.length_replicate]
    omega
  unfold overwrite
  refine ⟨?_, ?_, ?_, ?_⟩
  · simp only [List.length_append, hfront, List.length_drop]
    omega
  · intro i hi
    rw [List.getElem?_append_left (by rw [List.length_append, hfront]; omega),
      List.getElem?_append_right (by omega), hfront, Nat.add_sub_cancel_left]
  · intro i hi hoff
    rcases hoff with hbefore | hbehind
    · rw [List.append_assoc, List.append_assoc, List.getElem?_append_left (by
        rw [List.length_take]; omega), List.getElem?_take_of_lt hbefore]
    · rw [List.getElem?_append_right (by rw [List.length_append, hfront]; omega),
        List.getElem?_drop]
      congr 1
      rw [List.length_append, hfront]
      omega
  · intro i hi hbehind
    rw [List.append_assoc, List.getElem?_append_left (by omega),
      List.getElem?_append_right (by rw [List.length_take]; omega), List.getElem?_replicate,
      if_pos (by rw [List.length_take]; omega)]

end Host

end LineShell
