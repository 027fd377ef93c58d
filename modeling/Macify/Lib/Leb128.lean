import Macify.Lib.Bytes

/-!
# LEB128 numbers

Readers of variable-length numbers: seven bits a byte, least significant first, the top bit set on all
bytes but the last. They stop at the end of the input. Shifting by 64 or more bits gives zero.
-/

namespace Macify.Lib

def lebBits (b : UInt8) (shift : ℕ) : W64 := (b &&& 0x7F).toBitVec.setWidth 64 <<< shift

def ulebLoop : Buf → ℕ → W64 → W64 × Buf
  | [], _, result => (result, [])
  | b :: rest, shift, result =>
    if b &&& 0x80 = 0 then (result ||| lebBits b shift, rest)
    else ulebLoop rest (shift + 7) (result ||| lebBits b shift)

def readUleb128 (bytes : Buf) : W64 × Buf := ulebLoop bytes 0 0

def slebLoop : Buf → ℕ → W64 → UInt8 → W64 × UInt8 × ℕ × Buf
  | [], shift, result, byte => (result, byte, shift, [])
  | b :: rest, shift, result, _ =>
    if b &&& 0x80 = 0 then (result ||| lebBits b shift, b, shift + 7, rest)
    else slebLoop rest (shift + 7) (result ||| lebBits b shift) b

def readSleb128 (bytes : Buf) : W64 × Buf :=
  match slebLoop bytes 0 0 0 with
  | (result, byte, shift, rest) =>
    if shift < 64 ∧ byte &&& 0x40 ≠ 0 then (result ||| -(1 <<< shift), rest) else (result, rest)

lemma ulebLoop_suffix {bytes shift result} : (ulebLoop bytes shift result).2 <:+ bytes := by
  induction bytes generalizing shift result with
  | nil => exact List.suffix_rfl
  | cons b rest ih =>
    rw [ulebLoop]
    split
    · exact List.suffix_cons b rest
    · exact ih.trans (List.suffix_cons b rest)

lemma readUleb128_suffix (bytes : Buf) : (readUleb128 bytes).2 <:+ bytes := ulebLoop_suffix

lemma readUleb128_length (bytes : Buf) : (readUleb128 bytes).2.length ≤ bytes.length :=
  (readUleb128_suffix bytes).length_le

lemma slebLoop_suffix {bytes shift result byte} : (slebLoop bytes shift result byte).2.2.2 <:+ bytes := by
  induction bytes generalizing shift result byte with
  | nil => exact List.suffix_rfl
  | cons b rest ih =>
    rw [slebLoop]
    split
    · exact List.suffix_cons b rest
    · exact ih.trans (List.suffix_cons b rest)

lemma readSleb128_suffix (bytes : Buf) : (readSleb128 bytes).2 <:+ bytes := by
  unfold readSleb128
  split
  next e =>
    have part := @slebLoop_suffix bytes 0 0 0
    rw [e] at part
    split
    · exact part
    · exact part

lemma readSleb128_length (bytes : Buf) : (readSleb128 bytes).2.length ≤ bytes.length :=
  (readSleb128_suffix bytes).length_le

end Macify.Lib
