import LineShell.Proofs.Text.Lines
import LineShell.Source

/-!
# Decoding line by line

A newline octet is never a part of another character: it ends a character that was begun, and no
other octets become a newline.  So the lines of a decoded text are the decoded lines.
-/

namespace LineShell

open Source (newline)

namespace Utf8

/-- The octet that a begun character lacks is not one of ASCII, and neither is the character. -/
structure Begun.Sound (s : Begun) : Prop where
  low : 0x80 ≤ s.low.toNat
  bits : 0x10 ≤ s.bits * 64 + (s.low.toNat - 0x80)

def Sound (r : Text × Option Begun) : Prop := '\n' ∉ r.1 ∧ ∀ s ∈ r.2, s.Sound

theorem ofNat_ne_newline {n : Nat} (hn : n ≠ 0x0A) : Char.ofNat n ≠ '\n' := by
  by_cases hvalid : n.isValidChar
  · have hcode : (Char.ofNat n).toNat = n := by
      rw [Char.ofNat, dif_pos hvalid]
      rfl
    intro h
    rw [h] at hcode
    exact hn hcode.symm
  · rw [Char.ofNat, dif_neg hvalid]
    decide

theorem sound_replacement : Sound ([replacement], none) := ⟨by decide, by simp⟩

theorem sound_begun {s : Begun} (hs : s.Sound) : Sound ([], some s) :=
  ⟨List.not_mem_nil, fun _ h => by cases h; exact hs⟩

theorem toNat_ne {b c : UInt8} (h : ¬ (b == c) = true) : b.toNat ≠ c.toNat := fun heq =>
  h (by simpa using UInt8.toNat_inj.mp heq)

theorem sound_begin {b : UInt8} (hb : b ≠ newline) : Sound (begin b) := by
  unfold begin
  split
  · refine ⟨?_, by simp⟩
    have hcode : b.toNat ≠ 0x0A := fun h => hb (UInt8.toNat_inj.mp h)
    simpa using (ofNat_ne_newline hcode).symm
  split
  · exact sound_replacement
  next htail =>
  have hlead : 0xC2 ≤ b.toNat := by simpa [UInt8.lt_iff_toNat_lt] using htail
  split
  · exact sound_begun ⟨Nat.le_refl 0x80, by dsimp only; omega⟩
  next htwo =>
  have hlead : 0xE0 ≤ b.toNat := by simpa [UInt8.lt_iff_toNat_lt] using htwo
  split
  · exact sound_begun ⟨by decide, by decide⟩
  next hleast =>
  have hleast : b.toNat ≠ 0xE0 := toNat_ne hleast
  split
  · exact sound_begun ⟨by decide, by decide⟩
  split
  · exact sound_begun ⟨Nat.le_refl 0x80, by dsimp only; omega⟩
  next hthree =>
  have hlead : 0xF0 ≤ b.toNat := by simpa [UInt8.lt_iff_toNat_lt] using hthree
  split
  · exact sound_begun ⟨by decide, by decide⟩
  next hleast =>
  have hleast : b.toNat ≠ 0xF0 := toNat_ne hleast
  split
  · exact sound_begun ⟨Nat.le_refl 0x80, by dsimp only; omega⟩
  split
  · exact sound_begun ⟨by decide, by decide⟩
  · exact sound_replacement

theorem sound_feed {state : Option Begun} (hstate : ∀ s ∈ state, s.Sound) {b : UInt8}
    (hb : b ≠ newline) : Sound (feed state b) := by
  cases state with
  | none => exact sound_begin hb
  | some s =>
      obtain ⟨hlow, hbits⟩ := hstate s rfl
      unfold feed
      dsimp only
      split
      · next hrange =>
          have hcode : s.low.toNat ≤ b.toNat := by
            simp only [Bool.and_eq_true, decide_eq_true_eq] at hrange
            exact UInt8.le_iff_toNat_le.mp hrange.1
          split
          · refine ⟨?_, by simp⟩
            have hne : s.bits * 64 + (b.toNat - 0x80) ≠ 0x0A := by omega
            simpa using (ofNat_ne_newline hne).symm
          · exact sound_begun ⟨Nat.le_refl 0x80, by dsimp only; omega⟩
      · obtain ⟨htext, hnext⟩ := sound_begin hb
        exact ⟨List.not_mem_cons_of_ne_of_not_mem (by decide) htext, hnext⟩

theorem feed_newline {state : Option Begun} (hstate : ∀ s ∈ state, s.Sound) :
    feed state newline = (decodeFrom state [] ++ ['\n'], none) := by
  cases state with
  | none => rfl
  | some s =>
      have hrange : (s.low ≤ newline && newline ≤ s.high) = false := by
        have hlow := (hstate s rfl).low
        have hcode : newline.toNat = 0x0A := rfl
        simp only [Bool.and_eq_false_iff, decide_eq_false_iff_not, UInt8.le_iff_toNat_le]
        omega
      rw [feed, hrange]
      rfl

theorem decodeFrom_cons (state : Option Begun) (b : UInt8) (rest : Bytes) :
    decodeFrom state (b :: rest) = (feed state b).1 ++ decodeFrom (feed state b).2 rest := by
  cases state <;> rfl

theorem decodeFrom_newline {state : Option Begun} (hstate : ∀ s ∈ state, s.Sound) {line : Bytes}
    (hline : newline ∉ line) (rest : Bytes) :
    decodeFrom state (line ++ newline :: rest) =
      decodeFrom state line ++ '\n' :: decodeFrom none rest := by
  induction line generalizing state with
  | nil => rw [List.nil_append, decodeFrom_cons, feed_newline hstate, List.append_assoc]; rfl
  | cons b line ih =>
      rw [List.mem_cons, not_or] at hline
      have hnext := (sound_feed hstate (Ne.symm hline.1)).2
      rw [List.cons_append, decodeFrom_cons, decodeFrom_cons, ih hnext hline.2,
        List.append_assoc]

theorem newline_not_mem_decodeFrom {state : Option Begun} (hstate : ∀ s ∈ state, s.Sound)
    {line : Bytes} (hline : newline ∉ line) : '\n' ∉ decodeFrom state line := by
  induction line generalizing state with
  | nil => cases state <;> simp [decodeFrom, replacement]
  | cons b line ih =>
      rw [List.mem_cons, not_or] at hline
      obtain ⟨htext, hnext⟩ := sound_feed hstate (Ne.symm hline.1)
      rw [decodeFrom_cons, List.mem_append, not_or]
      exact ⟨htext, ih hnext hline.2⟩

theorem feed_progress (state : Option Begun) (b : UInt8) :
    (feed state b).1 ≠ [] ∨ (feed state b).2.isSome = true := by
  have hbegin : (begin b).1 ≠ [] ∨ (begin b).2.isSome = true := by
    unfold begin
    repeat' split
    all_goals simp
  cases state with
  | none => exact hbegin
  | some s =>
      unfold feed
      dsimp only
      split
      · split <;> simp
      · simp

theorem decodeFrom_ne_nil {state : Option Begun} {line : Bytes}
    (h : state.isSome = true ∨ line ≠ []) : decodeFrom state line ≠ [] := by
  induction line generalizing state with
  | nil =>
      cases state with
      | none => simp at h
      | some s => simp [decodeFrom]
  | cons b line ih =>
      rw [decodeFrom_cons]
      rcases feed_progress state b with htext | hnext
      · simp [htext]
      · simp [ih (.inl hnext)]

end Utf8

namespace Source

/-- Standard input that is read octet by octet gives the lines of the text that it encodes. -/
theorem inputLines_eq_lines (data : Bytes) :
    inputLines data = Text.lines (Utf8.decodeLossy data) := by
  have hnone : ∀ s ∈ (none : Option Utf8.Begun), s.Sound := by simp
  induction data using byBreaks newline with
  | nil => rfl
  | last line hne hline =>
      have htext := Utf8.newline_not_mem_decodeFrom hnone hline
      rw [inputLines, cutAfter_of_not_break (beq_eq_false_of_not_mem hline) hne, Text.lines,
        Utf8.decodeLossy, cutAfter_of_not_break (beq_eq_false_of_not_mem htext)
          (Utf8.decodeFrom_ne_nil (.inr hne))]
      rfl
  | ended line rest hline ih =>
      have htext := Utf8.newline_not_mem_decodeFrom hnone hline
      have hended := Utf8.decodeFrom_newline hnone hline []
      unfold inputLines Utf8.decodeLossy at ih ⊢
      rw [cutAfter_append (beq_eq_false_of_not_mem hline) (beq_self_eq_true newline), List.map_cons,
        ih, hended, Utf8.decodeFrom_newline hnone hline rest, Text.lines_append htext]
      rfl

theorem flatten_decodeLossy_cutAfter (data : Bytes) :
    ((cutAfter (· == newline) data).map Utf8.decodeLossy).flatten = Utf8.decodeLossy data := by
  have hnone : ∀ s ∈ (none : Option Utf8.Begun), s.Sound := by simp
  induction data using byBreaks newline with
  | nil => rfl
  | last line hne hline =>
      rw [cutAfter_of_not_break (beq_eq_false_of_not_mem hline) hne, List.map_singleton,
        List.flatten_singleton]
  | ended line rest hline ih =>
      unfold Utf8.decodeLossy at ih ⊢
      rw [cutAfter_append (beq_eq_false_of_not_mem hline) (beq_self_eq_true newline), List.map_cons,
        List.flatten_cons, ih, Utf8.decodeFrom_newline hnone hline [],
        Utf8.decodeFrom_newline hnone hline rest, List.append_assoc]
      rfl

end Source

end LineShell
