import Macify.Lib.Memory

/-!
# Fields of buffers and words

Little-endian integers at an offset of a buffer, and bit fields of 64-bit words, cut out with a shift and a mask:
`toNat_field` and `toNat_mask` say what they are as numbers, `field_eq` and `mask_eq` which bits they have. Integers
that were stored side by side (`leAt_flatMap`) or each at its own offset (`leAt_putAll`) are found there.
-/

namespace Macify.Lib

def leAt (n : ℕ) (b : Buf) (k : ℕ) : ℕ := Mem.ofLe ((List.range n).map fun i => byte b (k + i))

def u16 (b : Buf) (k : ℕ) : BitVec 16 := BitVec.ofNat 16 (leAt 2 b k)

def u32 (b : Buf) (k : ℕ) : W32 := BitVec.ofNat 32 (leAt 4 b k)

def u64 (b : Buf) (k : ℕ) : W64 := BitVec.ofNat 64 (leAt 8 b k)

section Append

variable {a b : Buf} {n k : ℕ}

lemma leAt_append (inside : k + n ≤ a.length) : leAt n (a ++ b) k = leAt n a k := by
  unfold leAt
  congr 1
  apply List.map_congr_left
  intro i mem
  have lt := List.mem_range.mp mem
  exact byte_append_left (by omega)

lemma u32_append (inside : k + 4 ≤ a.length) : u32 (a ++ b) k = u32 a k :=
  congrArg (BitVec.ofNat 32) (leAt_append inside)

lemma leAt_append_right : leAt n (a ++ b) (a.length + k) = leAt n b k := by
  rw [leAt, leAt]
  simp only [Nat.add_assoc, byte_append_right]

lemma leAt_one : leAt 1 b k = (byte b k).toNat := by
  simp [leAt, Mem.ofLe]

lemma leAt_self : leAt a.length (a ++ b) 0 = Mem.ofLe a := by
  rw [leAt_append (by omega), leAt]
  congr 1
  refine List.ext_getElem (by rw [List.length_map, List.length_range]) fun i _ lt => ?_
  rw [List.getElem_map, List.getElem_range, Nat.zero_add, byte_of_lt lt]

lemma leAt_flatMap {α : Type*} {f : α → ℕ} {xs : List α} {i : ℕ} (lt : i < xs.length) :
    leAt n (xs.flatMap (fun x => Mem.leBytes n (f x)) ++ b) (n * i) = f xs[i] % 256 ^ n := by
  induction xs generalizing i with
  | nil => exact absurd lt (Nat.not_lt_zero i)
  | cons x xs ih =>
    rw [List.flatMap_cons, List.append_assoc]
    cases i with
    | zero =>
      have first := @leAt_self (Mem.leBytes n (f x)) (xs.flatMap (fun x => Mem.leBytes n (f x)) ++ b)
      rw [Mem.length_leBytes, Mem.ofLe_leBytes] at first
      exact first
    | succ i =>
      have skip := @leAt_append_right (Mem.leBytes n (f x)) (xs.flatMap (fun x => Mem.leBytes n (f x)) ++ b)
        n (n * i)
      rw [Mem.length_leBytes] at skip
      rw [Nat.mul_succ, Nat.add_comm, skip, ih (Nat.lt_of_succ_lt_succ lt)]
      rfl

lemma leAt_zeros {i : ℕ} : leAt n (List.replicate k 0) i = 0 := by
  have zeros : (List.range n).map (fun j => byte (List.replicate k 0) (i + j)) = List.replicate n 0 := by
    refine List.eq_replicate_iff.mpr ⟨by rw [List.length_map, List.length_range], fun v mem => ?_⟩
    obtain ⟨j, -, rfl⟩ := List.mem_map.mp mem
    rw [byte, List.getD_eq_getElem?_getD, List.getElem?_replicate]
    split <;> rfl
  rw [leAt, zeros]
  clear zeros
  induction n with
  | zero => rfl
  | succ n ih =>
    rw [List.replicate_succ, Mem.ofLe, ih]
    rfl

end Append

def putAt (b : Buf) (k : ℕ) (v : Buf) : Buf := b.take k ++ v ++ b.drop (k + v.length)

def putAll (b : Buf) (stores : List (ℕ × Buf)) : Buf := stores.foldl (fun b p => putAt b p.1 p.2) b

section Stores

variable {b v : Buf} {n k j : ℕ} {stores : List (ℕ × Buf)}

lemma length_putAt (inside : k + v.length ≤ b.length) : (putAt b k v).length = b.length := by
  rw [putAt, List.length_append, List.length_append, List.length_take, List.length_drop]
  omega

lemma leAt_putAt_self (inside : k + v.length ≤ b.length) : leAt v.length (putAt b k v) k = Mem.ofLe v := by
  have before : (b.take k).length = k := List.length_take_of_le (by omega)
  have skip := @leAt_append_right (b.take k) (v ++ b.drop (k + v.length)) v.length 0
  rw [before, Nat.add_zero, leAt_self, ← List.append_assoc] at skip
  exact skip

lemma leAt_putAt_apart (inside : k + v.length ≤ b.length) (apart : j + n ≤ k ∨ k + v.length ≤ j) :
    leAt n (putAt b k v) j = leAt n b j := by
  have before : (b.take k).length = k := List.length_take_of_le (by omega)
  rcases apart with below | above
  · have whole : leAt n (b.take k ++ b.drop k) j = leAt n (b.take k) j := leAt_append (by omega)
    rw [List.take_append_drop] at whole
    rw [putAt, List.append_assoc, leAt_append (by omega), whole]
  · obtain ⟨i, rfl⟩ := Nat.exists_eq_add_of_le above
    have front : (b.take k ++ v).length = k + v.length := by rw [List.length_append, before]
    have front' : (b.take (k + v.length)).length = k + v.length := List.length_take_of_le inside
    have whole := @leAt_append_right (b.take (k + v.length)) (b.drop (k + v.length)) n i
    rw [List.take_append_drop, front'] at whole
    rw [whole, putAt, ← front, leAt_append_right]

def StoresApart (p q : ℕ × Buf) : Prop := p.1 + p.2.length ≤ q.1 ∨ q.1 + q.2.length ≤ p.1

instance (p q : ℕ × Buf) : Decidable (StoresApart p q) := inferInstanceAs (Decidable (_ ∨ _))

variable (inside : ∀ p ∈ stores, p.1 + p.2.length ≤ b.length)
include inside

lemma length_putAll : (putAll b stores).length = b.length := by
  induction stores generalizing b with
  | nil => rfl
  | cons p stores ih =>
    have length := length_putAt (inside p (.head _))
    show (putAll (putAt b p.1 p.2) stores).length = b.length
    rw [ih fun q mem => length ▸ inside q (.tail _ mem), length]

lemma leAt_putAll_apart
    (apart : ∀ p ∈ stores, j + n ≤ p.1 ∨ p.1 + p.2.length ≤ j) : leAt n (putAll b stores) j = leAt n b j := by
  induction stores generalizing b with
  | nil => rfl
  | cons p stores ih =>
    have length := length_putAt (inside p (.head _))
    show leAt n (putAll (putAt b p.1 p.2) stores) j = leAt n b j
    rw [ih (fun q mem => length ▸ inside q (.tail _ mem)) fun q mem => apart q (.tail _ mem),
      leAt_putAt_apart (inside p (.head _)) (apart p (.head _))]

lemma leAt_putAll (apart : stores.Pairwise StoresApart)
    (mem : (k, v) ∈ stores) : leAt v.length (putAll b stores) k = Mem.ofLe v := by
  induction stores generalizing b with
  | nil => exact absurd mem List.not_mem_nil
  | cons p stores ih =>
    have length := length_putAt (inside p (.head _))
    have inside' : ∀ q ∈ stores, q.1 + q.2.length ≤ (putAt b p.1 p.2).length := fun q mem =>
      length ▸ inside q (.tail _ mem)
    obtain ⟨first, rest⟩ := List.pairwise_cons.mp apart
    show leAt v.length (putAll (putAt b p.1 p.2) stores) k = Mem.ofLe v
    rw [List.mem_cons] at mem
    rcases mem with rfl | mem
    · rw [leAt_putAll_apart inside' fun q mem => (first q mem).imp id id, leAt_putAt_self (inside _ (.head _))]
    · exact ih inside' rest mem

end Stores

section Fields

variable {v a b : W64} {n w : ℕ}

lemma toNat_mask (w : ℕ) (le : w ≤ 64) : (v &&& BitVec.ofNat 64 (2 ^ w - 1)).toNat = v.toNat % 2 ^ w := by
  have bound : 2 ^ w ≤ 2 ^ 64 := Nat.pow_le_pow_right (by decide) le
  rw [BitVec.toNat_and, BitVec.toNat_ofNat, Nat.mod_eq_of_lt (by omega), Nat.and_two_pow_sub_one_eq_mod]

lemma toNat_field (n w : ℕ) (le : w ≤ 64) :
    ((v >>> n) &&& BitVec.ofNat 64 (2 ^ w - 1)).toNat = v.toNat / 2 ^ n % 2 ^ w := by
  rw [toNat_mask w le, BitVec.toNat_ushiftRight, Nat.shiftRight_eq_div_pow]

lemma mask_eq (w : ℕ) (le : w ≤ 64) : v &&& BitVec.ofNat 64 (2 ^ w - 1) = (v.extractLsb' 0 w).setWidth 64 := by
  apply BitVec.eq_of_toNat_eq
  rw [toNat_mask w le, BitVec.toNat_setWidth_of_le le, BitVec.extractLsb'_toNat, Nat.shiftRight_zero]

lemma field_eq (n w : ℕ) (le : w ≤ 64) :
    (v >>> n) &&& BitVec.ofNat 64 (2 ^ w - 1) = (v.extractLsb' n w).setWidth 64 := by
  apply BitVec.eq_of_toNat_eq
  rw [toNat_field n w le, BitVec.toNat_setWidth_of_le le, BitVec.extractLsb'_toNat, Nat.shiftRight_eq_div_pow]

lemma toNat_clear (w : ℕ) : (v &&& ~~~BitVec.ofNat 64 (2 ^ w - 1)).toNat = v.toNat / 2 ^ w * 2 ^ w := by
  have shifts : v &&& ~~~BitVec.ofNat 64 (2 ^ w - 1) = (v >>> w) <<< w := by
    apply BitVec.eq_of_getLsbD_eq
    intro i lt
    rw [BitVec.getLsbD_and, BitVec.getLsbD_not, BitVec.getLsbD_ofNat, Nat.testBit_two_pow_sub_one,
      BitVec.getLsbD_shiftLeft, BitVec.getLsbD_ushiftRight]
    by_cases low : i < w
    · simp [lt, low]
    · simp [lt, low, Nat.add_sub_of_le (Nat.not_lt.mp low)]
  have le : v.toNat / 2 ^ w * 2 ^ w ≤ v.toNat := Nat.div_mul_le_self _ _
  have lt := v.isLt
  rw [shifts, BitVec.toNat_shiftLeft, BitVec.toNat_ushiftRight, Nat.shiftRight_eq_div_pow, Nat.shiftLeft_eq,
    Nat.mod_eq_of_lt (by omega)]

lemma toNat_shl_or (lt : b.toNat < 2 ^ n) (fits : a.toNat * 2 ^ n < 2 ^ 64) :
    (a <<< n ||| b).toNat = a.toNat * 2 ^ n + b.toNat := by
  rw [BitVec.toNat_or, BitVec.toNat_shiftLeft, Nat.shiftLeft_eq, Nat.mod_eq_of_lt fits,
    ← Nat.shiftLeft_eq, ← Nat.shiftLeft_add_eq_or_of_lt lt]

end Fields

end Macify.Lib
