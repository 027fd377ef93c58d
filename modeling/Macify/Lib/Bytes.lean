import Mathlib.Tactic

/-!
# Byte buffers

A buffer is a list of bytes read through the total accessor `byte`, which is `0` past the end, and
written with `List.set`. The lemmas say how reads see writes and concatenation; two buffers of one
length with the same bytes are equal (`Buf.ext`).
-/

namespace Macify.Lib

abbrev Buf := List UInt8

/-- Machine words, signed or not. -/
abbrev W32 := BitVec 32

@[inherit_doc W32]
abbrev W64 := BitVec 64

def byte (b : Buf) (k : ℕ) : UInt8 := b.getD k 0

lemma byte_of_le {b k} (le : b.length ≤ k) : byte b k = 0 := by
  simp [byte, List.getD_eq_getElem?_getD, List.getElem?_eq_none le]

lemma byte_of_lt {b k} (lt : k < b.length) : byte b k = b[k] := by
  simp [byte, List.getD_eq_getElem?_getD, List.getElem?_eq_getElem lt]

lemma lt_of_byte_ne {b k} (ne : byte b k ≠ 0) : k < b.length := by
  by_contra ge
  exact ne (byte_of_le (by omega))

lemma byte_set {b : Buf} {i k v} : byte (b.set i v) k = if k = i ∧ i < b.length then v else byte b k := by
  by_cases e : k = i
  · subst e
    by_cases lt : k < b.length
    · simp [byte, List.getD_eq_getElem?_getD, lt]
    · rw [List.set_eq_of_length_le (by omega), if_neg (by omega)]
  · rw [if_neg (by tauto)]
    simp [byte, List.getD_eq_getElem?_getD, Ne.symm e]

lemma byte_set_self {b : Buf} {i v} (lt : i < b.length) : byte (b.set i v) i = v := by
  rw [byte_set, if_pos ⟨rfl, lt⟩]

lemma byte_set_ne {b : Buf} {i k v} (ne : k ≠ i) : byte (b.set i v) k = byte b k := by
  rw [byte_set, if_neg (by tauto)]

lemma byte_append_left {a b : Buf} {k} (lt : k < a.length) : byte (a ++ b) k = byte a k := by
  simp [byte, List.getD_eq_getElem?_getD, List.getElem?_append_left lt]

lemma byte_append_right {a b : Buf} {k} : byte (a ++ b) (a.length + k) = byte b k := by
  simp [byte, List.getD_eq_getElem?_getD, List.getElem?_append_right]

lemma byte_drop {b : Buf} {n k} : byte (b.drop n) k = byte b (n + k) := by
  simp [byte, List.getD_eq_getElem?_getD]

lemma byte_take {b : Buf} {n k} (lt : k < n) : byte (b.take n) k = byte b k := by
  simp [byte, List.getD_eq_getElem?_getD, lt]

@[simp] lemma byte_cons_zero {c : UInt8} {b : Buf} : byte (c :: b) 0 = c := rfl

@[simp] lemma byte_cons_succ {c : UInt8} {b : Buf} {k} : byte (c :: b) (k + 1) = byte b k := rfl

lemma Buf.ext {a b : Buf} (len : a.length = b.length) (h : ∀ k, byte a k = byte b k) : a = b := by
  apply List.ext_getElem len
  intro k lta ltb
  rw [← byte_of_lt lta, ← byte_of_lt ltb, h k]

end Macify.Lib
