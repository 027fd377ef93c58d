import Macify.Lib.Memory

/-!
# Machine code that is rewritten in place

Code is given by its bytes at offsets from some start; targets of branches are offsets too, and may lie
before that start. `Holds m p bytes` says which bytes stand at an offset, `store` writes some, and
`branchAt` decodes the jumps and conditional branches of x86-64 with a displacement of one or four
bytes.
-/

namespace Macify.Lib
open Mem (leBytes ofLe ofLe_leBytes)

abbrev Code := ℕ → UInt8

namespace Code

def store (m : Code) (a : ℕ) (bytes : Buf) : Code := fun k =>
  if a ≤ k ∧ k < a + bytes.length then byte bytes (k - a) else m k

def storeAll (m : Code) (stores : List (ℕ × Buf)) : Code := stores.foldl (fun m s => m.store s.1 s.2) m

def written (stores : List (ℕ × Buf)) : List ℕ := stores.flatMap fun s => List.range' s.1 s.2.length

def Holds (m : Code) (p : ℕ) (bytes : Buf) : Prop := ∀ k, k < bytes.length → m (p + k) = byte bytes k

instance (m : Code) (p : ℕ) (bytes : Buf) : Decidable (Holds m p bytes) :=
  inferInstanceAs (Decidable (∀ k, k < bytes.length → m (p + k) = byte bytes k))

section Stores

variable {m m' : Code} {a p n : ℕ} {bytes x y : Buf} {stores : List (ℕ × Buf)} {k : ℕ}

lemma store_outside (out : k < a ∨ a + bytes.length ≤ k) : m.store a bytes k = m k := by
  rw [store, if_neg (by omega)]

lemma holds_store : (m.store a bytes).Holds a bytes := by
  intro k lt
  rw [store, if_pos (by omega), Nat.add_sub_cancel_left]

lemma holds_append : m.Holds p (x ++ y) ↔ m.Holds p x ∧ m.Holds (p + x.length) y := by
  unfold Holds
  rw [List.length_append]
  constructor
  · intro all
    constructor
    · intro k lt
      rw [all k (by omega), byte_append_left lt]
    · intro k lt
      rw [Nat.add_assoc, all (x.length + k) (by omega), byte_append_right]
  · rintro ⟨left, right⟩ k lt
    rcases Nat.lt_or_ge k x.length with front | back
    · rw [left k front, byte_append_left front]
    · obtain ⟨j, rfl⟩ := Nat.exists_eq_add_of_le back
      rw [← Nat.add_assoc, right j (by omega), byte_append_right]

lemma Holds.congr (holds : m.Holds p bytes)
    (same : ∀ k, p ≤ k → k < p + bytes.length → m' k = m k) : m'.Holds p bytes := by
  intro k lt
  rw [same (p + k) (by omega) (by omega), holds k lt]

lemma Holds.store_apart (holds : m.Holds p bytes)
    (apart : p + bytes.length ≤ a ∨ a + x.length ≤ p) : (m.store a x).Holds p bytes :=
  holds.congr fun k ge lt => store_outside (by omega)

lemma storeAll_cons {s : ℕ × Buf} : m.storeAll (s :: stores) = (m.store s.1 s.2).storeAll stores := rfl

lemma storeAll_append {later : List (ℕ × Buf)} : m.storeAll (stores ++ later) = (m.storeAll stores).storeAll later :=
  List.foldl_append

lemma Holds.storeAll_apart (holds : m.Holds p bytes)
    (apart : ∀ s ∈ stores, p + bytes.length ≤ s.1 ∨ s.1 + s.2.length ≤ p) :
    (m.storeAll stores).Holds p bytes := by
  induction stores generalizing m with
  | nil => exact holds
  | cons s stores ih =>
    rw [storeAll_cons]
    apply ih (holds.store_apart (apart s List.mem_cons_self))
    exact fun s mem => apart s (List.mem_cons_of_mem _ mem)

@[simp] lemma mem_written_nil : k ∉ written [] := nofun

@[simp] lemma mem_written_cons :
    k ∈ written ((a, bytes) :: stores) ↔ a ≤ k ∧ k < a + bytes.length ∨ k ∈ written stores := by
  simp only [written, List.flatMap_cons, List.mem_append, List.mem_range'_1]

lemma storeAll_outside (out : k ∉ written stores) : m.storeAll stores k = m k := by
  induction stores generalizing m with
  | nil => rfl
  | cons s stores ih =>
    have apart : k < s.1 ∨ s.1 + s.2.length ≤ k := by
      by_contra inside
      exact out (mem_written_cons.mpr (.inl (by omega)))
    have rest : k ∉ written stores := fun mem => out (mem_written_cons.mpr (.inr mem))
    exact (ih rest).trans (store_outside apart)

end Stores

def rel8 (m : Code) (p : ℕ) : ℤ := (m p).toBitVec.toInt

def word32 (m : Code) (p : ℕ) : W32 :=
  BitVec.ofNat 32 (ofLe [m p, m (p + 1), m (p + 2), m (p + 3)])

def rel32 (m : Code) (p : ℕ) : ℤ := (m.word32 p).toInt

section Displacements

variable {m : Code} {p : ℕ}

lemma Holds.word32 {v : W32} (holds : m.Holds p (leBytes 4 v.toNat)) : m.word32 p = v := by
  have bytes : [m p, m (p + 1), m (p + 2), m (p + 3)] = leBytes 4 v.toNat := by
    rw [← Nat.add_zero p, holds 0 (by simp), Nat.add_zero, holds 1 (by simp), holds 2 (by simp), holds 3 (by simp)]
    rfl
  rw [Code.word32, bytes, ofLe_leBytes]
  exact BitVec.eq_of_toNat_eq (by rw [BitVec.toNat_ofNat]; omega)

lemma word32_congr {m' : Code} (same : ∀ k, p ≤ k → m' k = m k) : m'.word32 p = m.word32 p := by
  rw [word32, word32, same p (by omega), same (p + 1) (by omega), same (p + 2) (by omega), same (p + 3) (by omega)]

end Displacements

inductive Branch where
  | jump (target : ℤ)
  /-- The condition, the target when it holds, and the offset of the next instruction. -/
  | cond (cc : UInt8) (target : ℤ) (next : ℕ)
  deriving DecidableEq

def branchAt (m : Code) (p : ℕ) : Option Branch :=
  if m p = 0xEB then some (.jump (p + 2 + m.rel8 (p + 1)))
  else if m p = 0xE9 then some (.jump (p + 5 + m.rel32 (p + 1)))
  else if m p &&& 0xF0 = 0x70 then some (.cond (m p &&& 0x0F) (p + 2 + m.rel8 (p + 1)) (p + 2))
  else if m p = 0x0F ∧ m (p + 1) &&& 0xF0 = 0x80 then
    some (.cond (m (p + 1) &&& 0x0F) (p + 6 + m.rel32 (p + 2)) (p + 6))
  else none

def FallsThrough (m : Code) (p next : ℕ) : Prop := ∀ k, p ≤ k → k < next → m k = 0x90

section Branches

variable {m : Code} {p : ℕ}

lemma branchAt_jmp {v : W32} (holds : m.Holds p (0xE9 :: leBytes 4 v.toNat)) :
    m.branchAt p = some (.jump (p + 5 + v.toInt)) := by
  obtain ⟨op, rel⟩ := (@holds_append m p [0xE9] _).mp holds
  have code : m p = 0xE9 := op 0 (by decide)
  have word : m.word32 (p + 1) = v := rel.word32
  rw [branchAt, code, if_neg (by decide), if_pos rfl, rel32, word]

lemma branchAt_near_cond (code : m p = 0x0F) (second : m (p + 1) &&& 0xF0 = 0x80) :
    m.branchAt p = some (.cond (m (p + 1) &&& 0x0F) (p + 6 + m.rel32 (p + 2)) (p + 6)) := by
  rw [branchAt, code, if_neg (by decide), if_neg (by decide), if_neg (by decide), if_pos ⟨rfl, second⟩]

lemma branchAt_je {v : W32} (holds : m.Holds p (0x0F :: 0x84 :: leBytes 4 v.toNat)) :
    m.branchAt p = some (.cond 4 (p + 6 + v.toInt) (p + 6)) := by
  obtain ⟨op, rel⟩ := (@holds_append m p [0x0F, 0x84] _).mp holds
  have code : m p = 0x0F := op 0 (by decide)
  have second : m (p + 1) = 0x84 := op 1 (by decide)
  have word : m.word32 (p + 2) = v := rel.word32
  rw [branchAt_near_cond code (by rw [second]; rfl), second, rel32, word]
  rfl

lemma branchAt_short_jmp (code : m p = 0xEB) : m.branchAt p = some (.jump (p + 2 + m.rel8 (p + 1))) := by
  rw [branchAt, if_pos code]

lemma branchAt_short_cond (code : m p &&& 0xF0 = 0x70) :
    m.branchAt p = some (.cond (m p &&& 0x0F) (p + 2 + m.rel8 (p + 1)) (p + 2)) := by
  have other : ∀ op : UInt8, op &&& 0xF0 ≠ 0x70 → m p ≠ op := by
    rintro op ne rfl
    exact ne code
  rw [branchAt, if_neg (other 0xEB (by decide)), if_neg (other 0xE9 (by decide)), if_pos code]

end Branches

end Code

end Macify.Lib
