import LineShell.Proofs.Host.Inscription

/-!
# What becomes of one entry

Writes through descriptions that were opened for one file, and through such as lead elsewhere,
leave of an entry what opening and writing may leave: a new file has the mode of new files, an old
one keeps its mode but for the bits that lend an identity, and what is written to append goes on
from what the file held.
-/

namespace LineShell

open Host

@[simp] theorem Mode.afterWrite_afterWrite (m : Mode) : m.afterWrite.afterWrite = m.afterWrite := by
  change @Eq Nat _ _
  unfold Mode.afterWrite
  simp only [Nat.testBit_eq_decide_div_mod_eq, Bool.and_eq_true, decide_eq_true_eq, Nat.reducePow]
  split_ifs <;> omega

inductive Revised (mode : WriteMode) : Option Entry → Option Entry → Prop
  | same (e : Option Entry) : Revised mode e e
  | created (content : Bytes) : Revised mode none (some (.file 0o644 content))
  | rewritten (perms : Mode) {old new : Bytes}
      (h : mode = .append → ∃ data, data ≠ [] ∧ new = old ++ data) :
      Revised mode (some (.file perms old)) (some (.file perms.afterWrite new))

theorem Revised.trans {mode : WriteMode} {a b c : Option Entry} (h : Revised mode a b)
    (h' : Revised mode b c) : Revised mode a c := by
  cases h with
  | same => exact h'
  | created content =>
      cases h' with
      | same => exact .created content
      | rewritten => exact .created _
  | @rewritten perms old new hnew =>
      cases h' with
      | same => exact .rewritten perms hnew
      | @rewritten _ _ newer hnewer =>
          rw [Mode.afterWrite_afterWrite]
          refine .rewritten perms fun happend => ?_
          obtain ⟨data, hdata, rfl⟩ := hnew happend
          obtain ⟨more, -, rfl⟩ := hnewer happend
          exact ⟨data ++ more, List.append_ne_nil_of_left_ne_nil hdata more, List.append_assoc ..⟩

def MayLeave (opened : Option WriteMode) (before after : Option Entry) : Prop :=
  match opened with
  | none => after = before
  | some mode => Revised mode before after

theorem MayLeave.refl (opened : Option WriteMode) (e : Option Entry) : MayLeave opened e e := by
  cases opened with
  | none => rfl
  | some mode => exact .same e

theorem MayLeave.trans {opened : Option WriteMode} {a b c : Option Entry} (h : MayLeave opened a b)
    (h' : MayLeave opened b c) : MayLeave opened a c := by
  cases opened with
  | none => exact Eq.trans h' h
  | some mode => exact Revised.trans h h'

namespace Host

variable {h k : Host} {p : Place} {watched : Nat → Prop} {opened : Option WriteMode}
  {before : Option Entry}

/-- The standard streams stand for some descriptions, and those of them that lead to a place were
opened in a mode, so that the entry there is what opening and writing may leave. -/
structure Tracks (watched : Nat → Prop) (opened : Option WriteMode) (p : Place)
    (before : Option Entry) (h : Host) : Prop where
  entry : MayLeave opened before (h.tree.get? p)
  streams : ∀ (stream : Stream) n, h.files.number? stream.descriptor = some n → watched n
  leading : ∀ n d, watched n → h.files.descriptions[n]? = some d → d.sink = .file p →
    ∃ mode, opened = some mode ∧ (mode = .append → d.append = true)

namespace Tracks

theorem write (ht : Tracks watched opened p before h) {fd : Descriptor}
    (hfd : ∀ n, h.files.number? fd = some n → watched n) (data : Bytes) :
    Tracks watched opened p before (h.write fd data).2 := by
  have hwritten := h.written fd data
  generalize (h.write fd data).2 = k at hwritten ⊢
  cases hwritten with
  | nowhere => exact ht
  | @terminal stream => cases stream <;> exact ⟨ht.entry, ht.streams, ht.leading⟩
  | @file number d q perms content offset hdata hnumber hd hsink hfile hoffset =>
      refine ⟨ht.entry.trans ?_, ht.streams, fun n d' hn hd' hsink' => ?_⟩
      · dsimp only
        rw [FileTree.get?_put]
        split
        · next heq =>
            subst heq
            obtain ⟨mode, rfl, happend⟩ := ht.leading number d (hfd number hnumber) hd hsink
            rw [hfile]
            refine Revised.rewritten perms fun hmode => ⟨data, hdata, ?_⟩
            rw [hoffset, if_pos (happend hmode), overwrite_end]
        · exact .refl opened _
      · obtain ⟨d₀, hd₀, hsink₀, happend₀⟩ := OpenFiles.of_getElem?_moveTo hd'
        rw [happend₀]
        exact ht.leading n d₀ hn hd₀ (hsink₀ ▸ hsink')

end Tracks

theorem kept_tracks (watched : Nat → Prop) (opened : Option WriteMode) (p : Place)
    (before : Option Entry) : Kept (Tracks watched opened p before) where
  await := fun ht _ => ⟨ht.entry, ht.streams, ht.leading⟩
  write := fun ht stream data => ht.write (ht.streams stream) data
  record := fun ht _ => ⟨ht.entry, ht.streams, ht.leading⟩

theorem Opening.revised {mode : WriteMode} {path : Text} {tree : FileTree}
    (ho : Opening h mode path (.file p) tree) : Revised mode (h.tree.get? p) (tree.get? p) := by
  cases ho with
  | created hp hparent =>
      rw [FileTree.get?_put, if_pos rfl, FileTree.get?_of_vacant hp]
      exact .created []
  | kept hp hfile hperms hmode => exact .same _
  | @emptied _ perms content hp hfile hperms hmode =>
      rw [FileTree.get?_put, if_pos rfl, hfile]
      refine .rewritten perms fun happend => ?_
      rw [hmode] at happend
      cases happend

theorem Tracks.withOpened (ht : Tracks watched opened p before h) {mode : WriteMode} {path : Text}
    {sink : Sink} {tree : FileTree} (ho : Opening h mode path sink tree)
    (hopened : sink = .file p → opened = some mode)
    (hnew : watched h.files.descriptions.length) :
    Tracks watched opened p before (h.withOpened mode sink tree) := by
  refine ⟨ht.entry.trans ?_, fun stream n hn => ?_, fun n d hn hd hsink => ?_⟩
  · change MayLeave opened (h.tree.get? p) (tree.get? p)
    by_cases hp : sink = .file p
    · subst hp
      rw [hopened rfl]
      exact ho.revised
    · rw [ho.get?_of_ne hp]
      exact .refl opened _
  · rw [number?_withOpened] at hn
    split at hn
    · cases hn
      exact hnew
    · exact ht.streams stream n hn
  · rcases OpenFiles.getElem?_add hd with hold | rfl
    · exact ht.leading n d hn hold hsink
    · exact ⟨mode, hopened hsink, fun happend => by simp [happend]⟩

end Host

end LineShell
