import LineShell.Text

/-!
# UTF-8

Encoding, and decoding that never fails: every maximal part of the octets that begins like a
character and cannot be completed becomes one replacement character.  The decoder reads one octet
at a time and remembers only the character that it is in the middle of.  A text can be cut at
offsets in octets, but not inside a character.
-/

namespace LineShell.Utf8

def encode (t : Text) : Bytes := t.flatMap String.utf8EncodeChar

theorem encode_append (t u : Text) : encode (t ++ u) = encode t ++ encode u := by
  simp [encode]

theorem encode_inj {t u : Text} : encode t = encode u ↔ t = u := by
  constructor
  · intro h
    have hbytes : (String.ofList t).toByteArray = (String.ofList u).toByteArray :=
      congrArg List.toByteArray h
    exact String.ofList_inj.mp (String.toByteArray_inj.mp hbytes)
  · rintro rfl
    rfl

def replacement : Char := '\uFFFD'

structure Begun where
  lacking : Nat
  low : UInt8
  high : UInt8
  bits : Nat
  deriving DecidableEq, Repr

def begin (b : UInt8) : Text × Option Begun :=
  if b < 0x80 then ([Char.ofNat b.toNat], none)
  else if b < 0xC2 then ([replacement], none)
  else if b < 0xE0 then ([], some ⟨1, 0x80, 0xBF, b.toNat - 0xC0⟩)
  else if b == 0xE0 then ([], some ⟨2, 0xA0, 0xBF, 0⟩)
  else if b == 0xED then ([], some ⟨2, 0x80, 0x9F, 0xD⟩)
  else if b < 0xF0 then ([], some ⟨2, 0x80, 0xBF, b.toNat - 0xE0⟩)
  else if b == 0xF0 then ([], some ⟨3, 0x90, 0xBF, 0⟩)
  else if b < 0xF4 then ([], some ⟨3, 0x80, 0xBF, b.toNat - 0xF0⟩)
  else if b == 0xF4 then ([], some ⟨3, 0x80, 0x8F, 4⟩)
  else ([replacement], none)

def feed : Option Begun → UInt8 → Text × Option Begun
  | none, b => begin b
  | some s, b =>
      if s.low ≤ b && b ≤ s.high then
        let bits := s.bits * 64 + (b.toNat - 0x80)
        if s.lacking ≤ 1 then ([Char.ofNat bits], none)
        else ([], some ⟨s.lacking - 1, 0x80, 0xBF, bits⟩)
      else
        let (t, state) := begin b
        (replacement :: t, state)

def decodeFrom : Option Begun → Bytes → Text
  | none, [] => []
  | some _, [] => [replacement]
  | state, b :: rest =>
      let (t, next) := feed state b
      t ++ decodeFrom next rest

def decodeLossy (bs : Bytes) : Text := decodeFrom none bs

def decode? (bs : Bytes) : Option Text :=
  let t := decodeLossy bs
  if encode t = bs then some t else none

def drop? : Nat → Text → Option Text
  | 0, t => some t
  | _ + 1, [] => none
  | n + 1, c :: rest => if c.utf8Size ≤ n + 1 then drop? (n + 1 - c.utf8Size) rest else none

def take? : Nat → Text → Option Text
  | 0, _ => some []
  | _ + 1, [] => none
  | n + 1, c :: rest =>
      if c.utf8Size ≤ n + 1 then (take? (n + 1 - c.utf8Size) rest).map (c :: ·) else none

def slice? (first last : Nat) (t : Text) : Option Text :=
  (drop? first t).bind (take? (last - first))

end LineShell.Utf8
