import Macify.Lib.Memory

/-!
# C strings in memory

What a memory holds at an address, and the two forms in which programs pass strings around: a string
that a zero ends, and an array of pointers to strings that a null pointer ends. `StringList m a l` says
that such an array at `a` stands for the strings `l`; an address stands for at most one list
(`StringList.unique`).
-/

namespace Macify.Lib

structure CString where
  bytes : Buf
  nonzero : 0 ∉ bytes
  deriving DecidableEq

def CString.stored (s : CString) : Buf := s.bytes ++ [0]

lemma CString.length_stored (s : CString) : s.stored.length = s.bytes.length + 1 := List.length_append

def textOf (b : Buf) : Buf := b.takeWhile (· != 0)

section Text

variable {s b : Buf}

lemma textOf_append (nonzero : 0 ∉ s) : textOf (s ++ 0 :: b) = s := by
  rw [textOf, List.takeWhile_append_of_pos, List.takeWhile_cons_of_neg, List.append_nil]
  · decide
  · intro v mem
    exact bne_iff_ne.mpr fun zero => nonzero (zero ▸ mem)

/-- A text that begins a stored string begins its text. -/
lemma prefix_of_stored {more : Buf} (nonzero : 0 ∉ s) (begins : s <+: b ++ 0 :: more) : s <+: b := by
  have stored : b ++ [0] <+: b ++ 0 :: more := ⟨more, by rw [List.append_assoc]; rfl⟩
  rcases Nat.lt_or_ge b.length s.length with longer | le
  · have zero := List.prefix_of_prefix_length_le stored begins (by rw [List.length_append]; exact longer)
    exact absurd (zero.subset (List.mem_append_right _ List.mem_cons_self)) nonzero
  · exact List.prefix_of_prefix_length_le begins (List.prefix_append _ _) le

end Text

namespace Mem

variable {m : Mem} {a b : W64} {x y bytes : Buf} {n k : ℕ}

lemma next_add : a + 1 + BitVec.ofNat 64 n = a + BitVec.ofNat 64 (n + 1) := by
  rw [BitVec.ofNat_add, BitVec.add_assoc]
  exact congrArg (a + ·) (BitVec.add_comm _ _)

lemma toNat_offset (fits : a.toNat + n < 2 ^ 64) : (a + BitVec.ofNat 64 n).toNat = a.toNat + n := by
  rw [BitVec.toNat_add, BitVec.toNat_ofNat, Nat.mod_eq_of_lt (by omega), Nat.mod_eq_of_lt (by omega)]

lemma load_add : m.load a (n + k) = m.load a n ++ m.load (a + BitVec.ofNat 64 n) k := by
  induction n generalizing a with
  | zero => rw [Nat.zero_add, load, BitVec.add_zero, List.nil_append]
  | succ n ih => rw [Nat.add_right_comm, load, ih, load, List.cons_append, next_add]

lemma load_slice {p l : ℕ} (inside : p + n ≤ l) :
    ((m.load a l).drop p).take n = m.load (a + BitVec.ofNat 64 p) n := by
  obtain ⟨rest, rfl⟩ := Nat.exists_eq_add_of_le inside
  rw [Nat.add_assoc, load_add, List.drop_left' length_load, load_add, List.take_left' length_load]

lemma store_append : m.store a (x ++ y) = (m.store a x).store (a + BitVec.ofNat 64 x.length) y := by
  induction x generalizing m a with
  | nil => rw [List.nil_append, store, List.length_nil, BitVec.add_zero]
  | cons v x ih => rw [List.cons_append, store, ih, store, List.length_cons, next_add]

def Holds (m : Mem) (a : W64) (bytes : Buf) : Prop := m.load a bytes.length = bytes

instance : Decidable (m.Holds a bytes) := inferInstanceAs (Decidable (_ = _))

lemma holds_append : m.Holds a (x ++ y) ↔ m.Holds a x ∧ m.Holds (a + BitVec.ofNat 64 x.length) y := by
  rw [Holds, List.length_append, load_add]
  constructor
  · intro eq
    exact List.append_inj eq length_load
  · rintro ⟨left, right⟩
    rw [left, right]

lemma holds_store_self (fits : bytes.length ≤ 2 ^ 64) : (m.store a bytes).Holds a bytes :=
  load_store_self fits

lemma Holds.store_below (holds : m.Holds a bytes) (below : b.toNat + x.length ≤ a.toNat)
    (fits : a.toNat + bytes.length ≤ 2 ^ 64) : (m.store b x).Holds a bytes := by
  rw [Holds, load_store_apart (by omega), holds]
  intro i lt
  have room := a.isLt
  have offset : (a + BitVec.ofNat 64 i - b).toNat = a.toNat + i - b.toNat := by bv_omega
  rw [offset]
  omega

lemma store_outside {z : W64} (fits : a.toNat + x.length ≤ 2 ^ 64)
    (outside : z.toNat < a.toNat ∨ a.toNat + x.length ≤ z.toNat) : m.store a x z = m z := by
  rw [store_apply (by omega), if_neg]
  have low := a.isLt
  have high := z.isLt
  bv_omega

def wordBytes (ws : List W64) : Buf := ws.flatMap fun w => leBytes 8 w.toNat

lemma wordBytes_cons {w : W64} {ws : List W64} :
    wordBytes (w :: ws) = leBytes 8 w.toNat ++ wordBytes ws := List.flatMap_cons

lemma wordBytes_append {ws vs : List W64} : wordBytes (ws ++ vs) = wordBytes ws ++ wordBytes vs :=
  List.flatMap_append

lemma length_wordBytes {ws : List W64} : (wordBytes ws).length = 8 * ws.length := by
  induction ws with
  | nil => rfl
  | cons w ws ih => rw [wordBytes_cons, List.length_append, length_leBytes, ih, List.length_cons]; omega

lemma Holds.read64 {w : W64} (holds : m.Holds a (leBytes 8 w.toNat)) : m.read64 a = w := by
  rw [Holds, length_leBytes] at holds
  rw [Mem.read64, holds, ofLe_leBytes]
  bv_omega

lemma holds_wordBytes_cons {w : W64} {ws : List W64} :
    m.Holds a (wordBytes (w :: ws)) ↔ m.Holds a (leBytes 8 w.toNat) ∧ m.Holds (a + 8) (wordBytes ws) := by
  rw [wordBytes_cons, holds_append, length_leBytes]
  rfl

lemma holds_wordBytes_append {ws vs : List W64} :
    m.Holds a (wordBytes (ws ++ vs)) ↔
      m.Holds a (wordBytes ws) ∧ m.Holds (a + BitVec.ofNat 64 (8 * ws.length)) (wordBytes vs) := by
  rw [wordBytes_append, holds_append, length_wordBytes]

def StringAt (m : Mem) (a : W64) (s : CString) : Prop := m.Holds a s.stored

/-- An array of pointers at `a`, ended by a null pointer, to the given strings. -/
def StringList (m : Mem) (a : W64) : List CString → Prop
  | [] => m.read64 a = 0
  | s :: l => m.read64 a ≠ 0 ∧ m.StringAt (m.read64 a) s ∧ StringList m (a + 8) l

lemma StringAt.length_le {s t : CString} (hs : m.StringAt a s) (ht : m.StringAt a t) :
    t.bytes.length ≤ s.bytes.length := by
  by_contra lt
  -- the terminator of the shorter string would be a byte of the longer one
  have long := ht
  rw [StringAt, Holds, CString.length_stored] at hs long
  have split : t.bytes.length + 1 = (s.bytes.length + 1) + (t.bytes.length - s.bytes.length) := by omega
  rw [split, load_add, hs, CString.stored, CString.stored] at long
  have shorter : s.bytes ++ [0] <+: t.bytes :=
    List.prefix_of_prefix_length_le ⟨_, long⟩ (List.prefix_append _ _) (by
      rw [List.length_append, List.length_singleton]
      omega)
  exact t.nonzero (shorter.mem (List.mem_append_right _ List.mem_cons_self))

lemma StringAt.unique {s t : CString} (hs : m.StringAt a s) (ht : m.StringAt a t) : s = t := by
  have len : s.bytes.length = t.bytes.length := le_antisymm (ht.length_le hs) (hs.length_le ht)
  rw [StringAt, Holds, CString.length_stored] at hs ht
  rw [len, ht, CString.stored, CString.stored] at hs
  have same : t.bytes = s.bytes := List.append_cancel_right hs
  cases s
  cases t
  cases same
  rfl

lemma StringList.unique {l r : List CString} (hl : m.StringList a l) (hr : m.StringList a r) : l = r := by
  induction l generalizing a r with
  | nil =>
    cases r with
    | nil => rfl
    | cons t r => exact absurd hl hr.1
  | cons s l ih =>
    cases r with
    | nil => exact absurd hr hl.1
    | cons t r => rw [hl.2.1.unique hr.2.1, ih hl.2.2 hr.2.2]

lemma StringList.iff {l : List CString} (hl : m.StringList a l) (r : List CString) :
    m.StringList a r ↔ r = l := by
  constructor
  · intro hr
    exact hr.unique hl
  · rintro rfl
    exact hl

lemma stringList_of_holds {ptrs : List W64} {l : List CString} (array : m.Holds a (wordBytes (ptrs ++ [0])))
    (strings : List.Forall₂ (fun p s => p ≠ 0 ∧ m.StringAt p s) ptrs l) : m.StringList a l := by
  induction strings generalizing a with
  | nil => exact (holds_wordBytes_cons.mp array).1.read64
  | @cons p s ptrs l first _ ih =>
    rw [List.cons_append, holds_wordBytes_cons] at array
    have read := array.1.read64
    refine ⟨read ▸ first.1, read ▸ first.2, ih array.2⟩

end Mem

end Macify.Lib
