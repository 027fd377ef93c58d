import Macify.Lib.Bytes

/-!
# Byte-addressed memory

A memory maps every 64-bit address to a byte. Words are little-endian. Stores and loads wrap around
at the top of the address space, as pointer arithmetic on 64-bit words does.
-/

namespace Macify.Lib

abbrev Mem := W64 → UInt8

lemma toNat_pos {x : W64} (ne : x ≠ 0) : 0 < x.toNat :=
  Nat.pos_of_ne_zero fun zero => ne (BitVec.eq_of_toNat_eq zero)

namespace Mem

def leBytes : ℕ → ℕ → Buf
  | 0, _ => []
  | n + 1, v => UInt8.ofNat (v % 256) :: leBytes n (v / 256)

def ofLe : Buf → ℕ
  | [] => 0
  | v :: vs => v.toNat + 256 * ofLe vs

def store (m : Mem) (a : W64) : Buf → Mem
  | [] => m
  | v :: vs => store (fun x => if x = a then v else m x) (a + 1) vs

def load (m : Mem) (a : W64) : ℕ → Buf
  | 0 => []
  | n + 1 => m a :: load m (a + 1) n

def read16 (m : Mem) (a : W64) : BitVec 16 := BitVec.ofNat 16 (ofLe (m.load a 2))

def read32 (m : Mem) (a : W64) : W32 := BitVec.ofNat 32 (ofLe (m.load a 4))

def read64 (m : Mem) (a : W64) : W64 := BitVec.ofNat 64 (ofLe (m.load a 8))

def write32 (m : Mem) (a : W64) (v : W32) : Mem := m.store a (leBytes 4 v.toNat)

def write64 (m : Mem) (a : W64) (v : W64) : Mem := m.store a (leBytes 8 v.toNat)

def zero (m : Mem) (a : W64) (n : ℕ) : Mem := m.store a (List.replicate n 0)

@[simp] lemma length_leBytes {n v} : (leBytes n v).length = n := by
  induction n generalizing v with
  | zero => rfl
  | succ n ih => rw [leBytes, List.length_cons, ih]

lemma ofLe_leBytes {n v} : ofLe (leBytes n v) = v % 256 ^ n := by
  induction n generalizing v with
  | zero => rw [leBytes, ofLe, pow_zero, Nat.mod_one]
  | succ n ih =>
    rw [leBytes, ofLe, ih, UInt8.toNat_ofNat', Nat.mod_mod_of_dvd _ (dvd_refl _), pow_succ', Nat.mod_mul]

variable {m : Mem} {a b : W64} {vs : Buf}

/-- What a read sees after a store that does not wrap around onto itself. -/
lemma store_apply {x : W64} (fits : vs.length ≤ 2 ^ 64) :
    m.store a vs x = if (x - a).toNat < vs.length then byte vs (x - a).toNat else m x := by
  induction vs generalizing m a with
  | nil => rfl
  | cons v vs ih =>
    rw [store, ih (by rw [List.length_cons] at fits; omega)]
    rw [List.length_cons] at fits ⊢
    by_cases e : x = a
    · subst e
      have last : (x - (x + 1)).toNat = 2 ^ 64 - 1 := by bv_omega
      rw [if_neg (by omega), if_pos rfl, BitVec.sub_self]
      rfl
    · have step : (x - a).toNat = (x - (a + 1)).toNat + 1 := by
        bv_omega
      rw [step]
      by_cases lt : (x - (a + 1)).toNat < vs.length
      · rw [if_pos lt, if_pos (by omega), byte_cons_succ]
      · rw [if_neg lt, if_neg e, if_neg (by omega)]

lemma load_eq {n} : m.load a n = (List.range n).map fun i => m (a + BitVec.ofNat 64 i) := by
  induction n generalizing a with
  | zero => rfl
  | succ n ih =>
    rw [load, ih, List.range_succ_eq_map, List.map_cons, List.map_map]
    congr 1
    · simp
    · apply List.map_congr_left
      intro i _
      show m (a + 1 + _) = m (a + _)
      congr 1
      show _ = a + BitVec.ofNat 64 (i + 1)
      bv_omega

lemma load_store_self (fits : vs.length ≤ 2 ^ 64) : (m.store a vs).load a vs.length = vs := by
  rw [load_eq]
  apply List.ext_getElem
  · simp
  · intro i _ lt
    rw [List.getElem_map, List.getElem_range, store_apply fits]
    have off : (a + BitVec.ofNat 64 i - a).toNat = i := by bv_omega
    rw [off, if_pos lt, byte_of_lt lt]

lemma read64_blank : read64 (fun _ => 0) a = 0 := by
  have bytes : load (fun _ => 0) a 8 = List.replicate 8 0 := rfl
  rw [read64, bytes]
  decide

@[simp] lemma read64_write64_self {v : W64} : (m.write64 a v).read64 a = v := by
  have whole := @load_store_self m a (leBytes 8 v.toNat) (by simp)
  rw [length_leBytes] at whole
  rw [read64, write64, whole, ofLe_leBytes]
  bv_omega

@[simp] lemma read32_write32_self {v : W32} : (m.write32 a v).read32 a = v := by
  have whole := @load_store_self m a (leBytes 4 v.toNat) (by simp)
  rw [length_leBytes] at whole
  rw [read32, write32, whole, ofLe_leBytes]
  bv_omega

lemma load_store_apart {n : ℕ} (fits : vs.length ≤ 2 ^ 64)
    (apart : ∀ i < n, vs.length ≤ (a + BitVec.ofNat 64 i - b).toNat) :
    (m.store b vs).load a n = m.load a n := by
  rw [load_eq, load_eq]
  apply List.map_congr_left
  intro i mem
  rw [store_apply fits, if_neg (Nat.not_lt.mpr (apart i (List.mem_range.mp mem)))]

lemma read64_store_apart (fits : vs.length ≤ 2 ^ 64)
    (apart : ∀ i < 8, vs.length ≤ (a + BitVec.ofNat 64 i - b).toNat) :
    (m.store b vs).read64 a = m.read64 a := by
  rw [read64, read64, load_store_apart fits apart]

lemma read32_store_apart (fits : vs.length ≤ 2 ^ 64)
    (apart : ∀ i < 4, vs.length ≤ (a + BitVec.ofNat 64 i - b).toNat) :
    (m.store b vs).read32 a = m.read32 a := by
  rw [read32, read32, load_store_apart fits apart]

def writeAll (m : Mem) (ws : List (W64 × W64)) : Mem :=
  ws.foldl (fun m w => m.write64 w.1 w.2) m

def Apart (a b : W64) : Prop := ∀ i < 8, 8 ≤ (a + BitVec.ofNat 64 i - b).toNat

lemma apart_of_le (top : a.toNat + 8 ≤ 2 ^ 64 ∧ b.toNat + 8 ≤ 2 ^ 64)
    (gap : a.toNat + 8 ≤ b.toNat ∨ b.toNat + 8 ≤ a.toNat) : Apart a b := by
  intro i lt
  obtain ⟨topa, topb⟩ := top
  rcases gap with gap | gap
  · bv_omega
  · bv_omega

lemma read64_write64_apart {v : W64} (apart : Apart a b) : (m.write64 b v).read64 a = m.read64 a := by
  refine read64_store_apart (by simp) fun i lt => ?_
  rw [length_leBytes]
  exact apart i lt

section Words

variable {v : W64} {ws : List (W64 × W64)}

lemma writeAll_cons {w} : m.writeAll (w :: ws) = (m.write64 w.1 w.2).writeAll ws := rfl

lemma read64_writeAll_apart (apart : ∀ w ∈ ws, Apart a w.1) : (m.writeAll ws).read64 a = m.read64 a := by
  induction ws generalizing m with
  | nil => rfl
  | cons w ws ih =>
    obtain ⟨here, rest⟩ := List.forall_mem_cons.mp apart
    rw [writeAll_cons, ih rest, read64_write64_apart here]

lemma read64_writeAll (mem : (a, v) ∈ ws) (apart : ∀ w ∈ ws, w = (a, v) ∨ Apart a w.1) :
    (m.writeAll ws).read64 a = v := by
  induction ws generalizing m with
  | nil => cases mem
  | cons w ws ih =>
    obtain ⟨_, rest⟩ := List.forall_mem_cons.mp apart
    rw [writeAll_cons]
    by_cases later : (a, v) ∈ ws
    · exact ih later rest
    · have others : ∀ w ∈ ws, Apart a w.1 :=
        fun w mem => (rest w mem).resolve_left fun e => later (e ▸ mem)
      have last : w = (a, v) := ((List.mem_cons.mp mem).resolve_right later).symm
      rw [read64_writeAll_apart others, last, read64_write64_self]

end Words

lemma testBit_ofLe {k : ℕ} : (ofLe vs).testBit k = (byte vs (k / 8)).toNat.testBit (k % 8) := by
  induction vs generalizing k with
  | nil => rw [ofLe, Nat.zero_testBit, byte, List.getD_nil, UInt8.toNat_zero, Nat.zero_testBit]
  | cons v vs ih =>
    have head : v.toNat < 2 ^ 8 := v.toNat_lt
    rw [ofLe, Nat.add_comm, show 256 = 2 ^ 8 from rfl, Nat.testBit_two_pow_mul_add _ head]
    by_cases low : k < 8
    · rw [if_pos low, Nat.div_eq_of_lt low, Nat.mod_eq_of_lt low]
      rfl
    · have index : k / 8 = (k - 8) / 8 + 1 := by omega
      have bit : (k - 8) % 8 = k % 8 := by omega
      rw [if_neg low, ih, index, bit, byte_cons_succ]

lemma getLsbD_read64 {k : ℕ} (lt : k < 64) :
    (m.read64 a).getLsbD k = (m (a + BitVec.ofNat 64 (k / 8))).toNat.testBit (k % 8) := by
  have inside : k / 8 < (m.load a 8).length := by rw [load_eq, List.length_map, List.length_range]; omega
  rw [read64, BitVec.getLsbD_ofNat, decide_eq_true lt, Bool.true_and, testBit_ofLe, byte_of_lt inside]
  simp only [load_eq, List.getElem_map, List.getElem_range]

lemma length_load {n} : (m.load a n).length = n := by
  rw [load_eq, List.length_map, List.length_range]

lemma byte_load {n i : ℕ} (lt : i < n) : byte (m.load a n) i = m (a + BitVec.ofNat 64 i) := by
  rw [byte_of_lt (by rw [length_load]; exact lt)]
  simp only [load_eq, List.getElem_map, List.getElem_range]

end Mem

end Macify.Lib
