import Macify.Lib.Leb128

/-!
# Numbers in bytecode

`read_uleb128` and `read_sleb128` (`src/fixups.c`) read the numbers of bind and rebase bytecode. The
encoders here are those of the format, with no group more than the value needs. The readers undo them
whatever follows, and what they leave is a part of what they were given (`numbers_round_trip`).
-/

namespace Macify.Fixups
open Lib

def lowGroup (n : ℤ) : ℕ := (n % 128).toNat

def encodeUleb128 (n : ℕ) : Buf :=
  if n < 128 then [UInt8.ofNat (lowGroup n)]
  else UInt8.ofNat (lowGroup n + 128) :: encodeUleb128 (n / 128)
termination_by n
decreasing_by omega

/-- The minimal encoding of an integer: bit 6 of the last group is its sign. -/
def encodeSleb128 (n : ℤ) : Buf :=
  if -64 ≤ n ∧ n < 64 then [UInt8.ofNat (lowGroup n)]
  else UInt8.ofNat (lowGroup n + 128) :: encodeSleb128 (n / 128)
termination_by n.natAbs
decreasing_by omega

lemma lowGroup_lt (n : ℤ) : lowGroup n < 128 := by
  unfold lowGroup
  omega

lemma last_byte {m : ℕ} (small : m < 128) :
    UInt8.ofNat m &&& 0x80 = 0 ∧ (UInt8.ofNat m &&& 0x7F).toBitVec = BitVec.ofNat 8 m ∧
      (UInt8.ofNat m &&& 0x40 ≠ 0 ↔ 64 ≤ m) := by
  have all : ∀ m : Fin 128, UInt8.ofNat m &&& 0x80 = 0 ∧ (UInt8.ofNat m &&& 0x7F).toBitVec = BitVec.ofNat 8 m ∧
      (UInt8.ofNat m &&& 0x40 ≠ 0 ↔ 64 ≤ m.val) := by
    decide +kernel
  exact all ⟨m, small⟩

lemma more_byte {m : ℕ} (small : m < 128) :
    UInt8.ofNat (m + 128) &&& 0x80 ≠ 0 ∧ (UInt8.ofNat (m + 128) &&& 0x7F).toBitVec = BitVec.ofNat 8 m := by
  have all : ∀ m : Fin 128, UInt8.ofNat (m + 128) &&& 0x80 ≠ 0 ∧
      (UInt8.ofNat (m + 128) &&& 0x7F).toBitVec = BitVec.ofNat 8 m := by
    decide +kernel
  exact all ⟨m, small⟩

lemma lebBits_of_bits {b : UInt8} {m shift : ℕ} (small : m < 128) (bits : (b &&& 0x7F).toBitVec = BitVec.ofNat 8 m) :
    lebBits b shift = BitVec.ofNat 64 m <<< shift := by
  have wide : (BitVec.ofNat 8 m).setWidth 64 = BitVec.ofNat 64 m := by
    apply BitVec.eq_of_toNat_eq
    simp only [BitVec.toNat_setWidth, BitVec.toNat_ofNat]
    omega
  rw [lebBits, bits, wide]

lemma ofInt_groups (n : ℤ) (shift : ℕ) :
    BitVec.ofNat 64 (lowGroup n) <<< shift ||| BitVec.ofInt 64 (n / 128) <<< (shift + 7) =
      BitVec.ofInt 64 n <<< shift := by
  have apart : BitVec.ofNat 64 (lowGroup n) &&& BitVec.ofInt 64 (n / 128) <<< 7 = 0 := by
    apply BitVec.eq_of_getLsbD_eq
    intro i _
    rw [BitVec.getLsbD_and, BitVec.getLsbD_shiftLeft, BitVec.getLsbD_ofNat]
    by_cases low : i < 7
    · simp [low]
    · have high : (lowGroup n).testBit i = false :=
        Nat.testBit_lt_two_pow ((lowGroup_lt n).trans_le (Nat.pow_le_pow_right two_pos (Nat.le_of_not_lt low)))
      simp [high]
  have whole : BitVec.ofNat 64 (lowGroup n) ||| BitVec.ofInt 64 (n / 128) <<< 7 = BitVec.ofInt 64 n := by
    rw [← BitVec.add_eq_or_of_and_eq_zero _ _ apart, ← BitVec.ofInt_natCast, BitVec.shiftLeft_eq_mul_twoPow]
    have seven : BitVec.twoPow 64 7 = BitVec.ofInt 64 128 := by decide
    rw [seven, ← BitVec.ofInt_mul, ← BitVec.ofInt_add]
    congr 1
    unfold lowGroup
    omega
  rw [Nat.add_comm, BitVec.shiftLeft_add, ← BitVec.shiftLeft_or_distrib, whole]

variable {rest : Buf}

lemma ulebLoop_encode (n shift : ℕ) (result : W64) :
    ulebLoop (encodeUleb128 n ++ rest) shift result = (result ||| BitVec.ofInt 64 n <<< shift, rest) := by
  induction n using Nat.strongRecOn generalizing shift result with
  | ind n ih =>
    rw [encodeUleb128]
    split
    · next small =>
      obtain ⟨stop, bits, _⟩ := last_byte (lowGroup_lt n)
      have value : lowGroup n = n := by
        unfold lowGroup
        omega
      rw [List.singleton_append, ulebLoop, if_pos stop, lebBits_of_bits (lowGroup_lt n) bits, value,
        BitVec.ofInt_natCast]
    · next large =>
      obtain ⟨more, bits⟩ := more_byte (lowGroup_lt n)
      rw [List.cons_append, ulebLoop, if_neg more, lebBits_of_bits (lowGroup_lt n) bits, ih _ (by omega),
        BitVec.or_assoc, Int.natCast_div, Nat.cast_ofNat, ofInt_groups]

lemma readUleb128_encode (v : W64) : readUleb128 (encodeUleb128 v.toNat ++ rest) = (v, rest) := by
  rw [readUleb128, ulebLoop_encode, BitVec.ofInt_natCast, BitVec.ofNat_toNat, BitVec.setWidth_eq,
    BitVec.shiftLeft_zero]
  exact congrArg (·, rest) BitVec.zero_or

lemma readSleb128_eq (bytes : Buf) :
    readSleb128 bytes =
      ((slebLoop bytes 0 0 0).1 ||| (if (slebLoop bytes 0 0 0).2.1 &&& 0x40 ≠ 0 then
        -(1#64 <<< (slebLoop bytes 0 0 0).2.2.1) else 0#64), (slebLoop bytes 0 0 0).2.2.2) := by
  rw [readSleb128]
  generalize slebLoop bytes 0 0 0 = read
  obtain ⟨result, byte, shift, rest⟩ := read
  dsimp only
  by_cases fits : shift < 64
  · simp only [fits, true_and]
    split
    · rfl
    · rw [BitVec.or_zero]
  · have gone : 1#64 <<< shift = 0#64 := BitVec.shiftLeft_eq_zero (Nat.le_of_not_lt fits)
    rw [if_neg (fun both => fits both.1), gone, BitVec.neg_zero, ite_self, BitVec.or_zero]

lemma ofInt_last {n : ℤ} (small : -64 ≤ n ∧ n < 64) (shift : ℕ) :
    BitVec.ofNat 64 (lowGroup n) <<< shift ||| (if 64 ≤ lowGroup n then -(1#64 <<< (shift + 7)) else 0#64) =
      BitVec.ofInt 64 n <<< shift := by
  rw [← ofInt_groups n shift]
  congr 1
  by_cases negative : n < 0
  · have above : n / 128 = -1 := by omega
    have sign : 64 ≤ lowGroup n := by
      unfold lowGroup
      omega
    rw [if_pos sign, above, BitVec.shiftLeft_eq_mul_twoPow, BitVec.shiftLeft_eq_mul_twoPow, BitVec.one_mul]
    have minus : BitVec.ofInt 64 (-1) = -1#64 := by decide
    rw [minus, BitVec.neg_mul, BitVec.one_mul]
  · have above : n / 128 = 0 := by omega
    have sign : ¬64 ≤ lowGroup n := by
      unfold lowGroup
      omega
    rw [if_neg sign, above, show BitVec.ofInt 64 0 = 0#64 from rfl, BitVec.zero_shiftLeft]

lemma slebLoop_encode (n : ℤ) (shift : ℕ) (result : W64) (byte : UInt8) :
    ∃ value last bits, slebLoop (encodeSleb128 n ++ rest) shift result byte = (value, last, bits, rest) ∧
      value ||| (if last &&& 0x40 ≠ 0 then -(1#64 <<< bits) else 0#64) = result ||| BitVec.ofInt 64 n <<< shift := by
  induction k : n.natAbs using Nat.strongRecOn generalizing n shift result byte with
  | ind k ih =>
    rw [encodeSleb128]
    split
    · next small =>
      obtain ⟨stop, bits, sign⟩ := last_byte (lowGroup_lt n)
      refine ⟨_, _, _, by rw [List.singleton_append, slebLoop, if_pos stop], ?_⟩
      rw [lebBits_of_bits (lowGroup_lt n) bits, BitVec.or_assoc, if_congr sign rfl rfl, ofInt_last small]
    · next large =>
      obtain ⟨more, bits⟩ := more_byte (lowGroup_lt n)
      rw [List.cons_append, slebLoop, if_neg more, lebBits_of_bits (lowGroup_lt n) bits]
      obtain ⟨value, last, shifted, read, signed⟩ := ih _ (by omega) (n / 128) (shift + 7)
        (result ||| BitVec.ofNat 64 (lowGroup n) <<< shift) (UInt8.ofNat (lowGroup n + 128)) rfl
      refine ⟨value, last, shifted, read, ?_⟩
      rw [signed, BitVec.or_assoc, ofInt_groups]

lemma readSleb128_encode (v : W64) : readSleb128 (encodeSleb128 v.toInt ++ rest) = (v, rest) := by
  obtain ⟨value, last, bits, read, signed⟩ := @slebLoop_encode rest v.toInt 0 0 0
  rw [readSleb128_eq, read]
  simp only [signed, BitVec.ofInt_toInt, BitVec.shiftLeft_zero]
  exact congrArg (·, rest) BitVec.zero_or

/-- The readers undo the minimal encodings of all 64-bit values, and never read past the end. -/
theorem numbers_round_trip :
    (∀ (v : W64) (rest : Buf), readUleb128 (encodeUleb128 v.toNat ++ rest) = (v, rest)) ∧
      (∀ (v : W64) (rest : Buf), readSleb128 (encodeSleb128 v.toInt ++ rest) = (v, rest)) ∧
      ∀ bytes : Buf, (readUleb128 bytes).2 <:+ bytes ∧ (readSleb128 bytes).2 <:+ bytes := by
  exact ⟨fun v rest => readUleb128_encode v, fun v rest => readSleb128_encode v,
    fun bytes => ⟨readUleb128_suffix bytes, readSleb128_suffix bytes⟩⟩

end Macify.Fixups
