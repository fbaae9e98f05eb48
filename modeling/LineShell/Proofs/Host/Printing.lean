import LineShell.Proofs.Host.Acceptance
import LineShell.Proofs.Host.Overlay
import LineShell.Proofs.Host.Revision

/-!
# Printing as one write

Data that are written in pieces leave a host as if they were written at once, wherever the
descriptor leads.  So what is printed in pieces and then flushed is delivered in one write, behind
what waited before, whenever standard output has room.
-/

namespace LineShell

theorem FileTree.put_again (t : FileTree) (p : Place) (e e' : Entry) :
    (t.put p e).put p e' = t.put p e' := by
  have hentries : ∀ entries, putEntry p e' (putEntry p e entries) = putEntry p e' entries := by
    intro entries
    induction entries with
    | nil => simp [putEntry]
    | cons first rest ih =>
        by_cases hfirst : p = first.1
        · simp [putEntry, hfirst]
        · simp [putEntry, hfirst, ih]
  exact congrArg FileTree.mk (hentries t.entries)

theorem OpenFiles.moveTo_moveTo (o : OpenFiles) (number offset offset' : Nat) :
    (o.moveTo number offset).moveTo number offset' = o.moveTo number offset' := by
  simp [moveTo, List.modify_modify_eq, Function.comp_def]

namespace Host

variable {h : Host}

theorem overwrite_append (content : Bytes) (offset : Nat) (data more : Bytes) :
    overwrite (overwrite content offset data) (offset + data.length) more =
      overwrite content offset (data ++ more) := by
  rcases Nat.le_total offset content.length with hwithin | hbehind
  · exact overwrite_overwrite hwithin data more
  · have hover : ∀ data, overwrite content offset data =
        content ++ List.replicate (offset - content.length) 0 ++ data := by
      intro data
      rw [overwrite, List.take_of_length_le hbehind, List.drop_eq_nil_of_le (by omega),
        List.append_nil]
    have hend : offset + data.length = (overwrite content offset data).length := by
      rw [hover]
      simp only [List.length_append, List.length_replicate]
      omega
    rw [hend, overwrite_end, hover, hover, List.append_assoc]

theorem write_await (h : Host) (waiting : Bytes) (fd : Descriptor) (data : Bytes) :
    write { h with pending := waiting } fd data =
      ((h.write fd data).1, { (h.write fd data).2 with pending := waiting }) := by
  unfold write
  split
  · rfl
  · dsimp only
    cases h.files.number? fd with
    | none => rfl
    | some number =>
        unfold writeTo
        dsimp only
        cases h.files.descriptions[number]? with
        | none => rfl
        | some d =>
            dsimp only
            cases d.sink with
            | unlinked => rfl
            | device device => cases device <;> rfl
            | terminal stream => cases stream <;> rfl
            | file p =>
                dsimp only
                split <;> rfl

theorem write_of_file {fd : Descriptor} {number : Nat} {d : Description} {p : Place} {perms : Mode}
    {content : Bytes} (hnumber : h.files.number? fd = some number)
    (hd : h.files.descriptions[number]? = some d) (hsink : d.sink = .file p)
    (hfile : h.tree.get? p = some (.file perms content)) {data : Bytes} (hdata : data ≠ []) :
    h.write fd data =
      let offset := if d.append then content.length else d.offset
      (.ok (), { h with
        tree := h.tree.put p (.file perms.afterWrite (overwrite content offset data))
        files := h.files.moveTo number (offset + data.length) }) := by
  simp only [write, hdata, hnumber, writeTo, hd, hsink, hfile, if_false]

theorem writeTo_cases (h : Host) (number : Nat) :
    (∀ data, (h.writeTo number data).2 = h) ∨
      ∃ d, h.files.descriptions[number]? = some d ∧
        ((∃ stream, d.sink = .terminal stream) ∨
          ∃ p perms content, d.sink = .file p ∧ h.tree.get? p = some (.file perms content)) := by
  cases hd : h.files.descriptions[number]? with
  | none => exact .inl fun data => by simp only [writeTo, hd]
  | some d =>
      cases hsink : d.sink with
      | terminal stream => exact .inr ⟨d, rfl, .inl ⟨stream, hsink⟩⟩
      | unlinked => exact .inl fun data => by simp only [writeTo, hd, hsink]
      | device device => exact .inl fun data => by cases device <;> simp only [writeTo, hd, hsink]
      | file p =>
          cases hfile : h.tree.get? p with
          | none => exact .inl fun data => by simp only [writeTo, hd, hsink, hfile]
          | some entry =>
              cases entry with
              | file perms content => exact .inr ⟨d, rfl, .inr ⟨p, perms, content, hsink, hfile⟩⟩
              | directory _ | link _ | device _ =>
                  exact .inl fun data => by simp only [writeTo, hd, hsink, hfile]

theorem write_append_file {fd : Descriptor} {number : Nat} {d : Description} {p : Place}
    {perms : Mode} {content : Bytes} (hnumber : h.files.number? fd = some number)
    (hd : h.files.descriptions[number]? = some d) (hsink : d.sink = .file p)
    (hfile : h.tree.get? p = some (.file perms content)) {data more : Bytes} (hdata : data ≠ [])
    (hmore : more ≠ []) :
    ((h.write fd data).2.write fd more).2 = (h.write fd (data ++ more)).2 := by
  let offset := if d.append then content.length else d.offset
  have hfile' : (h.tree.put p (.file perms.afterWrite (overwrite content offset data))).get? p =
      some (.file perms.afterWrite (overwrite content offset data)) := by
    rw [FileTree.get?_put, if_pos rfl]
  -- the next write goes on where this one ended, also at the end of a file that is appended to
  have hoffset : (if d.append then (overwrite content offset data).length
      else offset + data.length) = offset + data.length := by
    split
    · next happend =>
        have hend : offset = content.length := if_pos happend
        rw [hend, overwrite_end, List.length_append]
    · rfl
  have hlater := write_of_file
    (h := { h with
      tree := h.tree.put p (.file perms.afterWrite (overwrite content offset data))
      files := h.files.moveTo number (offset + data.length) })
    hnumber (OpenFiles.getElem?_moveTo hd (offset + data.length)) hsink hfile' hmore
  dsimp only at hlater
  rw [hoffset, FileTree.put_again, OpenFiles.moveTo_moveTo, Mode.afterWrite_afterWrite,
    overwrite_append, Nat.add_assoc, ← List.length_append] at hlater
  rw [write_of_file hnumber hd hsink hfile hdata,
    write_of_file hnumber hd hsink hfile (List.append_ne_nil_of_left_ne_nil hdata more)]
  exact congrArg Prod.snd hlater

theorem write_nothing {fd : Descriptor}
    (h' : ∀ number, h.files.number? fd = some number → ∀ data, (h.writeTo number data).2 = h)
    (data : Bytes) : (h.write fd data).2 = h := by
  unfold write
  split
  · rfl
  · cases hnumber : h.files.number? fd with
    | none => rfl
    | some number => exact h' number hnumber data

/-- Data that follow others leave a host as both do that are written at once. -/
theorem write_append (h : Host) (fd : Descriptor) (data more : Bytes) :
    ((h.write fd data).2.write fd more).2 = (h.write fd (data ++ more)).2 := by
  by_cases hdata : data = []
  · rw [hdata]
    rfl
  by_cases hmore : more = []
  · rw [hmore, List.append_nil]
    rfl
  by_cases hnothing : ∀ number, h.files.number? fd = some number →
      ∀ data, (h.writeTo number data).2 = h
  · rw [write_nothing hnothing, write_nothing hnothing, write_nothing hnothing]
  · push Not at hnothing
    obtain ⟨number, hnumber, other, hother⟩ := hnothing
    rcases h.writeTo_cases number with
      hto | ⟨d, hd, ⟨stream, hsink⟩ | ⟨p, perms, content, hsink, hfile⟩⟩
    · exact absurd (hto other) hother
    · have hfd : h.files.sink? fd = some (.terminal stream) := by
        rw [OpenFiles.sink?, OpenFiles.description?, hnumber, Option.bind_some, hd,
          Option.map_some, hsink]
      have hfd' : (h.receive stream data).files.sink? fd = some (.terminal stream) := by
        rw [files_receive]
        exact hfd
      rw [write_terminal hfd, write_terminal hfd', write_terminal hfd]
      cases stream <;> simp [receive]
    · exact write_append_file hnumber hd hsink hfile hdata hmore

/-! ## Delivery -/

def delivered (h : Host) (t : Text) : Host :=
  { (h.write Stream.stdout.descriptor (h.pending ++ Utf8.encode t)).2 with pending := [] }

theorem flows_write (hroom : ¬ h.OnFull) :
    Flows fun done k => ∃ waiting,
      k = { (h.write Stream.stdout.descriptor done).2 with pending := waiting } where
  await := by
    rintro done k ⟨-, rfl⟩ waiting
    exact ⟨waiting, rfl⟩
  write := by
    rintro done k ⟨waiting, rfl⟩ data
    have hroom' := kept_not_onFull.await
      (kept_not_onFull.write hroom .stdout done) waiting
    have hsnd := writeStream_snd
      { (h.write Stream.stdout.descriptor done).2 with pending := waiting } .stdout data
    have hwrite := congrArg Prod.snd
      (write_await (h.write Stream.stdout.descriptor done).2 waiting Stream.stdout.descriptor data)
    dsimp only at hwrite
    rw [write_append] at hwrite
    exact ⟨_, Prod.ext (writeStream_of_room hroom' data) (hsnd.trans hwrite), waiting, rfl⟩

theorem printAll_flush_of_room (hroom : ¬ h.OnFull) (pieces : List Text) :
    ∃ k, h.printAll pieces = (.ok (), k) ∧ k.flush = (.ok (), h.delivered pieces.flatten) := by
  have hnone : ∃ waiting,
      h = { (h.write Stream.stdout.descriptor []).2 with pending := waiting } :=
    ⟨h.pending, rfl⟩
  obtain ⟨k, k', hprinted, hflushed, ⟨waiting, hk'⟩, hpending⟩ :=
    (flows_write hroom).printAll_flush hnone pieces
  refine ⟨k, hprinted, ?_⟩
  rw [hflushed, delivered]
  rw [hk'] at hpending
  dsimp only at hpending
  rw [hk', hpending, List.nil_append]

end Host

end LineShell
