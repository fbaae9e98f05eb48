import LineShell.Text.Utf8
import Mathlib.Algebra.Group.Nat.Defs
import Mathlib.Tactic.SplitIfs

/-!
# What lossy decoding replaces

Octets are read as characters where a character's octets stand.  Where none do, the longest part
that begins like a character, or else one octet, is read as a replacement character.  There is one
way to read octets so, and the decoder that reads one octet at a time takes it.
-/

namespace LineShell

namespace Utf8

def Begins (part : Bytes) : Prop := ∃ c : Char, part <+: String.utf8EncodeChar c

/-- A part that no character begins with, in front of the rest: it is the longest that begins like a
character, or one octet. -/
structure Broken (part rest : Bytes) : Prop where
  unreadable : ∀ c : Char, ¬ String.utf8EncodeChar c <+: part ++ rest
  nonempty : part ≠ []
  begun : part.length = 1 ∨ Begins part
  longest : ∀ longer, Begins longer → longer <+: part ++ rest → longer.length ≤ part.length

inductive Decodes : Bytes → Text → Prop
  | done : Decodes [] []
  | char (c : Char) {rest : Bytes} {t : Text} (hrest : Decodes rest t) :
      Decodes (String.utf8EncodeChar c ++ rest) (c :: t)
  | broken {part rest : Bytes} {t : Text} (hpart : Broken part rest) (hrest : Decodes rest t) :
      Decodes (part ++ rest) (replacement :: t)

/-! ## One reading -/

theorem utf8EncodeChar_ne_nil (c : Char) : String.utf8EncodeChar c ≠ [] := by
  intro hnil
  have hlength := String.length_utf8EncodeChar c
  have hpos := c.utf8Size_pos
  rw [hnil, List.length_nil] at hlength
  omega

theorem eq_of_utf8EncodeChar_append {c d : Char} {rest rest' : Bytes}
    (h : String.utf8EncodeChar c ++ rest = String.utf8EncodeChar d ++ rest') :
    c = d ∧ rest = rest' := by
  have hbytes : (String.utf8EncodeChar c).toByteArray ++ rest.toByteArray =
      (String.utf8EncodeChar d).toByteArray ++ rest'.toByteArray := by
    rw [← List.toByteArray_append, ← List.toByteArray_append, h]
  have hdecoded := congrArg (ByteArray.utf8DecodeChar? · 0) hbytes
  simp only [ByteArray.utf8DecodeChar?_utf8EncodeChar_append] at hdecoded
  cases hdecoded
  exact ⟨rfl, List.append_cancel_left h⟩

theorem Broken.length_le {part part' rest rest' : Bytes} (h : Broken part rest)
    (h' : Broken part' rest') (heq : part ++ rest = part' ++ rest') :
    part'.length ≤ part.length := by
  rcases h'.begun with hone | hbegins
  · rw [hone]
    exact List.length_pos_iff.mpr h.nonempty
  · exact h.longest part' hbegins (heq ▸ List.prefix_append part' rest')

theorem Decodes.unique {bs : Bytes} {t u : Text} (ht : Decodes bs t) (hu : Decodes bs u) :
    t = u := by
  induction ht generalizing u with
  | done =>
      generalize hbs : ([] : Bytes) = bs at hu
      cases hu with
      | done => rfl
      | char c => exact absurd (List.append_eq_nil_iff.mp hbs.symm).1 (utf8EncodeChar_ne_nil c)
      | broken hpart => exact absurd (List.append_eq_nil_iff.mp hbs.symm).1 hpart.nonempty
  | @char c rest t hrest ih =>
      generalize hbs : String.utf8EncodeChar c ++ rest = bs at hu
      cases hu with
      | done => exact absurd (List.append_eq_nil_iff.mp hbs).1 (utf8EncodeChar_ne_nil c)
      | char d hrest' =>
          obtain ⟨rfl, rfl⟩ := eq_of_utf8EncodeChar_append hbs
          rw [ih hrest']
      | broken hpart =>
          exact absurd ⟨rest, hbs⟩ (hpart.unreadable c)
  | @broken part rest t hpart hrest ih =>
      generalize hbs : part ++ rest = bs at hu
      cases hu with
      | done => exact absurd (List.append_eq_nil_iff.mp hbs).1 hpart.nonempty
      | @char d rest' => exact absurd ⟨rest', hbs.symm⟩ (hpart.unreadable d)
      | broken hpart' hrest' =>
          have hlength := Nat.le_antisymm (hpart'.length_le hpart hbs.symm)
            (hpart.length_le hpart' hbs)
          obtain ⟨rfl, rfl⟩ := List.append_inj hbs hlength
          rw [ih hrest']

/-! ## Encodings by codes -/

def lead (code : Nat) : Nat :=
  if code < 0x80 then code
  else if code < 0x800 then 0xC0 + code / 64
  else if code < 0x10000 then 0xE0 + code / 4096
  else 0xF0 + code / 262144

def trailing (code : Nat) : Nat :=
  if code < 0x80 then 0 else if code < 0x800 then 1 else if code < 0x10000 then 2 else 3

def trail : Nat → Nat → Bytes
  | 0, _ => []
  | n + 1, code => UInt8.ofNat (0x80 + code / 64 ^ n % 64) :: trail n code

theorem utf8EncodeChar_eq (c : Char) :
    String.utf8EncodeChar c = UInt8.ofNat (lead c.toNat) :: trail (trailing c.toNat) c.toNat := by
  have hvalid : c.toNat.isValidChar := c.valid
  have hcode : c.val.toNat = c.toNat := rfl
  simp only [String.utf8EncodeChar, hcode]
  generalize c.toNat = code at hvalid ⊢
  by_cases hone : code < 0x80
  · have hone' : code ≤ 0x7F := by omega
    simp only [lead, trailing, hone, hone', if_true, trail]
  have hone' : ¬ code ≤ 0x7F := by omega
  by_cases htwo : code < 0x800
  · have htwo' : code ≤ 0x7FF := by omega
    have hlead : code / 64 % 0x20 + 0xC0 = 0xC0 + code / 64 := by omega
    simp only [lead, trailing, hone, hone', htwo, htwo', if_true, if_false, trail, hlead]
    simp [Nat.add_comm]
  have htwo' : ¬ code ≤ 0x7FF := by omega
  by_cases hthree : code < 0x10000
  · have hthree' : code ≤ 0xFFFF := by omega
    have hlead : code / 4096 % 0x10 + 0xE0 = 0xE0 + code / 4096 := by omega
    simp only [lead, trailing, hone, hone', htwo, htwo', hthree, hthree', if_true, if_false, trail,
      hlead]
    simp [Nat.add_comm]
  · have hthree' : ¬ code ≤ 0xFFFF := by omega
    have hlead : code / 262144 % 0x08 + 0xF0 = 0xF0 + code / 262144 := by
      unfold Nat.isValidChar at hvalid
      omega
    simp only [lead, trailing, hone, hone', htwo, htwo', hthree, hthree', if_false, trail, hlead]
    simp [Nat.add_comm]

theorem lead_lt {code : Nat} (hvalid : code.isValidChar) : lead code < 256 := by
  unfold Nat.isValidChar at hvalid
  unfold lead
  split_ifs <;> omega

theorem utf8EncodeChar_eq_cons_iff {c : Char} {b : UInt8} {more : Bytes} :
    String.utf8EncodeChar c = b :: more ↔
      lead c.toNat = b.toNat ∧ more = trail (trailing c.toNat) c.toNat := by
  have hlead : (UInt8.ofNat (lead c.toNat)).toNat = lead c.toNat :=
    UInt8.toNat_ofNat_of_lt' (lead_lt c.valid)
  rw [utf8EncodeChar_eq, List.cons.injEq, ← UInt8.toNat_inj, hlead]
  exact and_congr_right fun _ => eq_comm

/-! ## The characters begun -/

namespace Begun

def Covers (s : Begun) (code : Nat) : Prop :=
  let next := code / 64 ^ (s.lacking - 1)
  next / 64 = s.bits ∧ s.low.toNat ≤ 0x80 + next % 64 ∧ 0x80 + next % 64 ≤ s.high.toNat

/-- A character begun by some octets: what may follow them is what makes it one of those that it can
become. -/
structure Holds (s : Begun) (part : Bytes) : Prop where
  nonempty : part ≠ []
  lacking : 0 < s.lacking
  low : 0x80 ≤ s.low.toNat
  order : s.low.toNat ≤ s.high.toNat
  high : s.high.toNat ≤ 0xBF
  valid : ∀ code, s.Covers code → code.isValidChar
  reads : ∀ (c : Char) (more : Bytes), String.utf8EncodeChar c = part ++ more ↔
    s.Covers c.toNat ∧ more = trail s.lacking c.toNat
  unended : ∀ c : Char, ¬ String.utf8EncodeChar c <+: part

end Begun

theorem trail_ne_nil {n : Nat} (hn : 0 < n) (code : Nat) : trail n code ≠ [] := by
  cases n with
  | zero => exact absurd hn (Nat.lt_irrefl 0)
  | succ n => exact List.cons_ne_nil _ _

theorem holds_lead {b low high : UInt8} {n bits : Nat} (hn : 0 < n) (hlow : 0x80 ≤ low.toNat)
    (horder : low.toNat ≤ high.toNat) (hhigh : high.toNat ≤ 0xBF)
    (hcodes : ∀ code,
      (Begun.Covers ⟨n, low, high, bits⟩ code ↔ code.isValidChar ∧ lead code = b.toNat) ∧
        (lead code = b.toNat → trailing code = n)) :
    Begun.Holds ⟨n, low, high, bits⟩ [b] := by
  have hreads : ∀ (c : Char) (more : Bytes), String.utf8EncodeChar c = [b] ++ more ↔
      Begun.Covers ⟨n, low, high, bits⟩ c.toNat ∧ more = trail n c.toNat := by
    intro c more
    have hvalid : c.toNat.isValidChar := c.valid
    obtain ⟨hcovers, htrailing⟩ := hcodes c.toNat
    rw [List.singleton_append, utf8EncodeChar_eq_cons_iff, hcovers, and_iff_right hvalid]
    exact and_congr_right fun hlead => by rw [htrailing hlead]
  refine ⟨List.cons_ne_nil b [], hn, hlow, horder, hhigh,
    fun code h => ((hcodes code).1.mp h).1, hreads, ?_⟩
  rintro c ⟨more, hmore⟩
  have hsingle : String.utf8EncodeChar c = [b] ++ [] := by
    cases hencode : String.utf8EncodeChar c with
    | nil => exact absurd hencode (utf8EncodeChar_ne_nil c)
    | cons d later =>
        rw [hencode, List.cons_append, List.cons.injEq, List.append_eq_nil_iff] at hmore
        rw [hmore.1, hmore.2.1]
        rfl
  exact trail_ne_nil hn _ ((hreads c []).mp hsingle).2.symm

theorem holds_two {b : UInt8} (h : 0xC2 ≤ b.toNat) (h' : b.toNat < 0xE0) :
    Begun.Holds ⟨1, 0x80, 0xBF, b.toNat - 0xC0⟩ [b] := by
  refine holds_lead (by decide) (by decide) (by decide) (by decide) fun code => ?_
  have hlead : lead code = b.toNat ↔ 0x80 ≤ code ∧ code < 0x800 ∧ code / 64 + 0xC0 = b.toNat := by
    unfold lead
    split_ifs <;> omega
  rw [hlead]
  constructor
  · simp only [Begun.Covers, UInt8.reduceToNat, Nat.isValidChar]
    omega
  · rintro ⟨hmore, hless, -⟩
    rw [trailing, if_neg (Nat.not_lt.mpr hmore), if_pos hless]

theorem holds_three {b low high : UInt8} {bits : Nat} (h : 0xE0 ≤ b.toNat) (h' : b.toNat < 0xF0)
    (hlow : low.toNat = if b.toNat = 0xE0 then 0xA0 else 0x80)
    (hhigh : high.toNat = if b.toNat = 0xED then 0x9F else 0xBF) (hbits : bits + 0xE0 = b.toNat) :
    Begun.Holds ⟨2, low, high, bits⟩ [b] := by
  have hbounds : 0x80 ≤ low.toNat ∧ low.toNat ≤ high.toNat ∧ high.toNat ≤ 0xBF := by
    split_ifs at hlow hhigh <;> omega
  refine holds_lead (by decide) hbounds.1 hbounds.2.1 hbounds.2.2 fun code => ?_
  have hlead : lead code = b.toNat ↔
      0x800 ≤ code ∧ code < 0x10000 ∧ code / 4096 + 0xE0 = b.toNat := by
    unfold lead
    split_ifs <;> omega
  rw [hlead]
  constructor
  · simp only [Begun.Covers, Nat.isValidChar]
    split_ifs at hlow hhigh <;> omega
  · rintro ⟨hmore, hless, -⟩
    rw [trailing, if_neg (by omega), if_neg (Nat.not_lt.mpr hmore), if_pos hless]

theorem holds_four {b low high : UInt8} {bits : Nat} (h : 0xF0 ≤ b.toNat) (h' : b.toNat < 0xF5)
    (hlow : low.toNat = if b.toNat = 0xF0 then 0x90 else 0x80)
    (hhigh : high.toNat = if b.toNat = 0xF4 then 0x8F else 0xBF) (hbits : bits + 0xF0 = b.toNat) :
    Begun.Holds ⟨3, low, high, bits⟩ [b] := by
  have hbounds : 0x80 ≤ low.toNat ∧ low.toNat ≤ high.toNat ∧ high.toNat ≤ 0xBF := by
    split_ifs at hlow hhigh <;> omega
  refine holds_lead (by decide) hbounds.1 hbounds.2.1 hbounds.2.2 fun code => ?_
  have hlead : lead code = b.toNat ↔ 0x10000 ≤ code ∧ code / 262144 + 0xF0 = b.toNat := by
    unfold lead
    split_ifs <;> omega
  rw [hlead]
  constructor
  · simp only [Begun.Covers, Nat.isValidChar]
    split_ifs at hlow hhigh <;> omega
  · rintro ⟨hmore, -⟩
    rw [trailing, if_neg (by omega), if_neg (by omega), if_neg (Nat.not_lt.mpr hmore)]

theorem not_begins_of_lead {b : UInt8} (h : ∀ code, code.isValidChar → lead code ≠ b.toNat) :
    ¬ Begins [b] := by
  rintro ⟨c, more, hmore⟩
  exact h c.toNat c.valid (utf8EncodeChar_eq_cons_iff.mp hmore.symm).1

theorem toNat_ofNat_of_isValidChar {code : Nat} (h : code.isValidChar) :
    (Char.ofNat code).toNat = code := by
  rw [Char.ofNat, dif_pos h]
  rfl

theorem utf8EncodeChar_ofNat {b : UInt8} (hb : b.toNat < 0x80) :
    String.utf8EncodeChar (Char.ofNat b.toNat) = [b] := by
  have hvalid : b.toNat.isValidChar := .inl (Nat.lt_trans hb (by decide))
  rw [utf8EncodeChar_eq, toNat_ofNat_of_isValidChar hvalid]
  simp [lead, trailing, trail, hb]

inductive First (b : UInt8) : Text × Option Begun → Prop
  | char (c : Char) (hc : String.utf8EncodeChar c = [b]) : First b ([c], none)
  | nowhere (hb : ¬ Begins [b]) : First b ([replacement], none)
  | begun {s : Begun} (hs : s.Holds [b]) : First b ([], some s)

theorem first_begin (b : UInt8) : First b (begin b) := by
  have hb := b.toNat_lt
  have hbeq : ∀ c : UInt8, (b == c) = true ↔ b.toNat = c.toNat := fun c => by
    rw [beq_iff_eq, UInt8.toNat_inj]
  unfold begin
  simp only [UInt8.lt_iff_toNat_lt, hbeq, UInt8.reduceToNat]
  split_ifs with hone hnone htwo hleast hsurrogate hthree hleast' hfour hmost
  · exact .char _ (utf8EncodeChar_ofNat hone)
  · refine .nowhere (not_begins_of_lead fun code _ => ?_)
    unfold lead
    split_ifs <;> omega
  · exact .begun (holds_two (by omega) htwo)
  · exact .begun (holds_three (by omega) (by omega) (by simp [hleast]) (by simp [hleast])
      (by omega))
  · exact .begun (holds_three (by omega) (by omega) (by simp [hsurrogate]) (by simp [hsurrogate])
      (by omega))
  · exact .begun (holds_three (by omega) hthree (by simp [hleast]) (by simp [hsurrogate])
      (by omega))
  · exact .begun (holds_four (by omega) (by omega) (by simp [hleast']) (by simp [hleast'])
      (by omega))
  · have hless : b.toNat ≠ 0xF4 := by omega
    exact .begun (holds_four (by omega) (by omega) (by simp [hleast']) (by simp [hless])
      (by omega))
  · exact .begun (holds_four (by omega) (by omega) (by simp [hmost]) (by simp [hmost])
      (by omega))
  · refine .nowhere (not_begins_of_lead fun code hvalid => ?_)
    unfold Nat.isValidChar at hvalid
    unfold lead
    split_ifs <;> omega

/-! ## The decoder -/

theorem trail_eq_cons_iff {n code : Nat} {b : UInt8} {more : Bytes} :
    b :: more = trail (n + 1) code ↔ b.toNat = 0x80 + code / 64 ^ n % 64 ∧ more = trail n code := by
  have hless : 0x80 + code / 64 ^ n % 64 < 256 := by omega
  have hoctet : (UInt8.ofNat (0x80 + code / 64 ^ n % 64)).toNat = 0x80 + code / 64 ^ n % 64 :=
    UInt8.toNat_ofNat_of_lt' hless
  rw [trail, List.cons.injEq, ← UInt8.toNat_inj, hoctet]

namespace Begun.Holds

variable {s : Begun} {part : Bytes} {b : UInt8}

theorem bounds (hs : s.Holds part) {c : Char} {more : Bytes}
    (hc : String.utf8EncodeChar c = part ++ b :: more) :
    s.low.toNat ≤ b.toNat ∧ b.toNat ≤ s.high.toNat := by
  obtain ⟨hcovers, hmore⟩ := (hs.reads c _).mp hc
  rw [← Nat.sub_add_cancel hs.lacking, trail_eq_cons_iff] at hmore
  rw [hmore.1]
  exact hcovers.2

theorem reads_cons (hs : s.Holds part) (hlow : s.low.toNat ≤ b.toNat)
    (hhigh : b.toNat ≤ s.high.toNat) {c : Char} {more : Bytes} :
    String.utf8EncodeChar c = part ++ b :: more ↔
      c.toNat / 64 ^ (s.lacking - 1) = s.bits * 64 + (b.toNat - 0x80) ∧
        more = trail (s.lacking - 1) c.toNat := by
  have hleast := hs.low
  have hmost := hs.high
  rw [hs.reads, ← Nat.sub_add_cancel hs.lacking, trail_eq_cons_iff, Nat.add_sub_cancel, ← and_assoc]
  refine and_congr_left fun _ => ?_
  simp only [Covers]
  generalize c.toNat / 64 ^ (s.lacking - 1) = next
  omega

theorem covers_of_next (hs : s.Holds part) (hlow : s.low.toNat ≤ b.toNat)
    (hhigh : b.toNat ≤ s.high.toNat) {code : Nat}
    (hcode : code / 64 ^ (s.lacking - 1) = s.bits * 64 + (b.toNat - 0x80)) : s.Covers code := by
  have hleast := hs.low
  have hmost := hs.high
  simp only [Covers, hcode]
  omega

theorem exists_reads_cons (hs : s.Holds part) (hlow : s.low.toNat ≤ b.toNat)
    (hhigh : b.toNat ≤ s.high.toNat) :
    ∃ c more, String.utf8EncodeChar c = part ++ b :: more ∧
      c.toNat = (s.bits * 64 + (b.toNat - 0x80)) * 64 ^ (s.lacking - 1) := by
  have hnext := Nat.mul_div_cancel (s.bits * 64 + (b.toNat - 0x80))
    (Nat.pow_pos (n := s.lacking - 1) (Nat.zero_lt_succ 63))
  have hvalid := hs.valid _ (hs.covers_of_next hlow hhigh hnext)
  have hcode := toNat_ofNat_of_isValidChar hvalid
  refine ⟨_, _, (hs.reads_cons hlow hhigh).mpr ⟨?_, rfl⟩, hcode⟩
  rw [hcode]
  exact hnext

theorem completes (hs : s.Holds part) (hlow : s.low.toNat ≤ b.toNat)
    (hhigh : b.toNat ≤ s.high.toNat) (hlast : s.lacking ≤ 1) :
    String.utf8EncodeChar (Char.ofNat (s.bits * 64 + (b.toNat - 0x80))) = part ++ [b] := by
  have hone : s.lacking - 1 = 0 := by omega
  have hnext : (s.bits * 64 + (b.toNat - 0x80)) / 64 ^ (s.lacking - 1) =
      s.bits * 64 + (b.toNat - 0x80) := by
    rw [hone, Nat.pow_zero, Nat.div_one]
  have hcode := toNat_ofNat_of_isValidChar (hs.valid _ (hs.covers_of_next hlow hhigh hnext))
  refine (hs.reads_cons hlow hhigh).mpr ⟨?_, ?_⟩
  · rw [hcode, hnext]
  · rw [hone]
    rfl

theorem next (hs : s.Holds part) (hlow : s.low.toNat ≤ b.toNat) (hhigh : b.toNat ≤ s.high.toNat)
    (hmore : ¬ s.lacking ≤ 1) :
    Holds ⟨s.lacking - 1, 0x80, 0xBF, s.bits * 64 + (b.toNat - 0x80)⟩ (part ++ [b]) := by
  have hcovers : ∀ code, Covers ⟨s.lacking - 1, 0x80, 0xBF, s.bits * 64 + (b.toNat - 0x80)⟩ code ↔
      code / 64 ^ (s.lacking - 1) = s.bits * 64 + (b.toNat - 0x80) := by
    intro code
    have hpow : 64 ^ (s.lacking - 1) = 64 ^ (s.lacking - 1 - 1) * 64 := by
      rw [← Nat.pow_succ]
      congr 1
      omega
    simp only [Covers, UInt8.reduceToNat, hpow, ← Nat.div_div_eq_div_mul]
    omega
  exact {
    nonempty := List.append_ne_nil_of_left_ne_nil hs.nonempty [b]
    lacking := Nat.sub_pos_of_lt (Nat.lt_of_not_le hmore)
    low := Nat.le_refl 0x80
    order := (by decide : 0x80 ≤ 0xBF)
    high := Nat.le_refl 0xBF
    valid := fun code hcode =>
      hs.valid code (hs.covers_of_next hlow hhigh ((hcovers code).mp hcode))
    reads := fun c more => by
      rw [List.append_assoc, List.singleton_append, hs.reads_cons hlow hhigh, hcovers]
    unended := fun c hreach => by
      rcases List.prefix_concat_iff.mp hreach with hwhole | hpart
      · have htrail := ((hs.reads_cons hlow hhigh).mp hwhole).2
        exact trail_ne_nil (Nat.sub_pos_of_lt (Nat.lt_of_not_le hmore)) _ htrail.symm
      · exact hs.unended c hpart }

theorem length_le (hs : s.Holds part) {rest longer : Bytes}
    (hrest : ∀ b ∈ rest.head?, ¬ (s.low.toNat ≤ b.toNat ∧ b.toNat ≤ s.high.toNat))
    (hlonger : Begins longer) (hreach : longer <+: part ++ rest) :
    longer.length ≤ part.length := by
  rcases List.prefix_or_prefix_of_prefix hreach (List.prefix_append part rest) with
    hwithin | ⟨more, rfl⟩
  · exact hwithin.length_le
  · obtain ⟨c, later, hc⟩ := hlonger
    cases more with
    | nil => simp
    | cons b more =>
        obtain ⟨behind, rfl⟩ := (List.prefix_append_right_inj part).mp hreach
        rw [List.append_assoc] at hc
        exact absurd (hs.bounds hc.symm) (hrest b rfl)

theorem broken (hs : s.Holds part) {rest : Bytes}
    (hrest : ∀ b ∈ rest.head?, ¬ (s.low.toNat ≤ b.toNat ∧ b.toNat ≤ s.high.toNat)) :
    Broken part rest where
  unreadable c hreach := by
    have hlength := hs.length_le hrest ⟨c, List.prefix_refl _⟩ hreach
    exact hs.unended c
      (List.prefix_of_prefix_length_le hreach (List.prefix_append part rest) hlength)
  nonempty := hs.nonempty
  begun := by
    obtain ⟨c, more, hc, -⟩ := hs.exists_reads_cons (Nat.le_refl _) hs.order
    exact .inr ⟨c, s.low :: more, hc.symm⟩
  longest longer hlonger hreach := hs.length_le hrest hlonger hreach

end Begun.Holds

theorem broken_nowhere {b : UInt8} (hb : ¬ Begins [b]) (rest : Bytes) : Broken [b] rest := by
  have hnothing : ∀ longer, Begins longer → longer <+: [b] ++ rest → longer = [] := by
    rintro longer ⟨c, hlonger⟩ hreach
    cases longer with
    | nil => rfl
    | cons d more =>
        obtain ⟨rfl, -⟩ := List.cons_prefix_cons.mp hreach
        exact absurd ⟨c, (List.prefix_append [d] more).trans hlonger⟩ hb
  exact {
    unreadable := fun c hreach =>
      utf8EncodeChar_ne_nil c (hnothing _ ⟨c, List.prefix_refl _⟩ hreach)
    nonempty := List.cons_ne_nil b []
    begun := .inl rfl
    longest := fun longer hlonger hreach => by
      rw [hnothing longer hlonger hreach]
      exact Nat.zero_le _ }

/-- One more octet completes the character begun, or goes on with it, or breaks it off. -/
theorem feed_cases {s : Begun} {part : Bytes} (hs : s.Holds part) (b : UInt8) :
    (∃ c, String.utf8EncodeChar c = part ++ [b] ∧ feed (some s) b = ([c], none)) ∨
    (∃ s' : Begun, s'.Holds (part ++ [b]) ∧ feed (some s) b = ([], some s')) ∨
    (¬ (s.low.toNat ≤ b.toNat ∧ b.toNat ≤ s.high.toNat) ∧
      feed (some s) b = (replacement :: (begin b).1, (begin b).2)) := by
  have hin : (s.low ≤ b && b ≤ s.high) = true ↔
      s.low.toNat ≤ b.toNat ∧ b.toNat ≤ s.high.toNat := by
    simp only [Bool.and_eq_true, decide_eq_true_eq, UInt8.le_iff_toNat_le]
  rw [feed]
  by_cases hrange : s.low.toNat ≤ b.toNat ∧ b.toNat ≤ s.high.toNat
  · obtain ⟨hlow, hhigh⟩ := hrange
    rw [if_pos (hin.mpr ⟨hlow, hhigh⟩)]
    by_cases hlast : s.lacking ≤ 1
    · exact .inl ⟨_, hs.completes hlow hhigh hlast, if_pos hlast⟩
    · exact .inr (.inl ⟨_, hs.next hlow hhigh hlast, if_neg hlast⟩)
  · rw [if_neg (mt hin.mp hrange)]
    exact .inr (.inr ⟨hrange, rfl⟩)

theorem decodes_begin {b : UInt8} {rest : Bytes} (hnone : Decodes rest (decodeFrom none rest))
    (hsome : ∀ (part : Bytes) (s : Begun), s.Holds part →
      Decodes (part ++ rest) (decodeFrom (some s) rest)) :
    Decodes (b :: rest) ((begin b).1 ++ decodeFrom (begin b).2 rest) := by
  have hfirst := first_begin b
  generalize begin b = r at hfirst ⊢
  cases hfirst with
  | char c hc =>
      have hread := Decodes.char c hnone
      rw [hc] at hread
      exact hread
  | nowhere hb => exact .broken (broken_nowhere hb rest) hnone
  | begun hs => exact hsome [b] _ hs

/-- The decoder takes the one way to read octets, also from the middle of a character. -/
theorem decodes_decodeFrom (bs : Bytes) :
    Decodes bs (decodeFrom none bs) ∧
      ∀ (part : Bytes) (s : Begun), s.Holds part →
        Decodes (part ++ bs) (decodeFrom (some s) bs) := by
  induction bs with
  | nil =>
      refine ⟨.done, fun part s hs => ?_⟩
      exact .broken (hs.broken (by simp)) .done
  | cons b rest ih =>
      obtain ⟨hnone, hsome⟩ := ih
      refine ⟨decodes_begin hnone hsome, fun part s hs => ?_⟩
      rw [decodeFrom]
      rcases feed_cases hs b with ⟨c, hc, hfed⟩ | ⟨s', hs', hfed⟩ | ⟨hout, hfed⟩
      · rw [hfed, List.append_cons, ← hc]
        exact .char c hnone
      · rw [hfed, List.append_cons]
        exact hsome _ s' hs'
      · rw [hfed]
        refine .broken (hs.broken ?_) (decodes_begin hnone hsome)
        intro c hc
        cases hc
        exact hout

theorem decodes_iff {bs : Bytes} {t : Text} : Decodes bs t ↔ t = decodeLossy bs := by
  have hdecoded := (decodes_decodeFrom bs).1
  constructor
  · intro ht
    exact ht.unique hdecoded
  · rintro rfl
    exact hdecoded

end Utf8

end LineShell
