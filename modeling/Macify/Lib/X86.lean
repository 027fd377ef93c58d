import Macify.Lib.Bytes

/-!
# A fragment of x86-64 machine code

Eight instructions with their encodings. `decode` is the inverse of `encodeAll` (`decode_eq_some`). `At xs p x` says
that `x` is the instruction at offset `p` of the encoding of `xs`; `encodeAll_iff` splits a statement about a whole
encoding into one per instruction.
-/

namespace Macify.Lib.X86

structure Imm32 where
  b0 : UInt8
  b1 : UInt8
  b2 : UInt8
  b3 : UInt8
  deriving DecidableEq

inductive Instr where
  | movEax (imm : Imm32)
  | movEcx (imm : Imm32)
  | jmp (rel : Imm32)
  | call (rel : Imm32)
  | nop
  | ret
  | syscall
  | ud2
  deriving DecidableEq

def withImm (op : UInt8) (imm : Imm32) : Buf := [op, imm.b0, imm.b1, imm.b2, imm.b3]

def encode : Instr → Buf
  | .movEax imm => withImm 0xB8 imm
  | .movEcx imm => withImm 0xB9 imm
  | .jmp rel => withImm 0xE9 rel
  | .call rel => withImm 0xE8 rel
  | .nop => [0x90]
  | .ret => [0xC3]
  | .syscall => [0x0F, 0x05]
  | .ud2 => [0x0F, 0x0B]

def size (x : Instr) : ℕ := (encode x).length

def encodeAll (xs : List Instr) : Buf := xs.flatMap encode

def decodeOne : Buf → Option (Instr × Buf)
  | 0xB8 :: a :: b :: c :: d :: r => some (.movEax ⟨a, b, c, d⟩, r)
  | 0xB9 :: a :: b :: c :: d :: r => some (.movEcx ⟨a, b, c, d⟩, r)
  | 0xE9 :: a :: b :: c :: d :: r => some (.jmp ⟨a, b, c, d⟩, r)
  | 0xE8 :: a :: b :: c :: d :: r => some (.call ⟨a, b, c, d⟩, r)
  | 0x90 :: r => some (.nop, r)
  | 0xC3 :: r => some (.ret, r)
  | 0x0F :: 0x05 :: r => some (.syscall, r)
  | 0x0F :: 0x0B :: r => some (.ud2, r)
  | _ => none

def decodeUpTo : ℕ → Buf → Option (List Instr)
  | _, [] => some []
  | 0, _ :: _ => none
  | n + 1, b :: bs => do
    let (x, rest) ← decodeOne (b :: bs)
    let xs ← decodeUpTo n rest
    return x :: xs

def decode (b : Buf) : Option (List Instr) := decodeUpTo b.length b

lemma size_pos (x : Instr) : 0 < size x := by
  cases x <;> simp [size, encode, withImm]

lemma encodeAll_cons {x xs} : encodeAll (x :: xs) = encode x ++ encodeAll xs := rfl

lemma length_encodeAll_cons {x xs} : (encodeAll (x :: xs)).length = size x + (encodeAll xs).length := by
  rw [encodeAll_cons, List.length_append, size]

lemma decodeOne_encode {x r} : decodeOne (encode x ++ r) = some (x, r) := by
  cases x <;> rfl

lemma decodeOne_some {b x r} (h : decodeOne b = some (x, r)) : b = encode x ++ r := by
  unfold decodeOne at h
  split at h <;> cases h <;> rfl

lemma decodeUpTo_encodeAll {n xs} (le : (encodeAll xs).length ≤ n) : decodeUpTo n (encodeAll xs) = some xs := by
  induction xs generalizing n with
  | nil => cases n <;> rfl
  | cons x xs ih =>
    rw [length_encodeAll_cons] at le
    have pos := size_pos x
    cases n with
    | zero => omega
    | succ n =>
      have ne : encode x ++ encodeAll xs ≠ [] := by
        intro e
        have len := congrArg List.length e
        rw [List.length_append, List.length_nil] at len
        unfold size at pos
        omega
      obtain ⟨b, bs, e⟩ := List.exists_cons_of_ne_nil ne
      rw [encodeAll_cons, e, decodeUpTo, ← e, decodeOne_encode]
      have rest := ih (n := n) (by omega)
      simp [rest]

lemma decodeUpTo_some {n b xs} (h : decodeUpTo n b = some xs) : b = encodeAll xs := by
  induction n generalizing b xs with
  | zero =>
    cases b with
    | nil => cases h; rfl
    | cons => cases h
  | succ n ih =>
    cases b with
    | nil => cases h; rfl
    | cons c bs =>
      rw [decodeUpTo] at h
      cases one : decodeOne (c :: bs) with
      | none => rw [one] at h; cases h
      | some p =>
        obtain ⟨x, r⟩ := p
        rw [one] at h
        cases rest : decodeUpTo n r with
        | none => simp [rest] at h
        | some ys =>
          simp only [rest, Option.pure_def, Option.bind_eq_bind, Option.bind_some, Option.some.injEq] at h
          subst h
          rw [decodeOne_some one, ih rest, encodeAll_cons]

lemma decode_eq_some {b xs} : decode b = some xs ↔ b = encodeAll xs := by
  constructor
  · exact decodeUpTo_some
  · rintro rfl
    exact decodeUpTo_encodeAll (Nat.le_refl _)

def At : List Instr → ℕ → Instr → Prop
  | [], _, _ => False
  | x :: xs, p, y => (p = 0 ∧ y = x) ∨ ∃ q, p = size x + q ∧ At xs q y

lemma At.byte {xs p x} (h : At xs p x) {k} (lt : k < size x) :
    byte (encodeAll xs) (p + k) = Lib.byte (encode x) k := by
  induction xs generalizing p with
  | nil => cases h
  | cons y ys ih =>
    rw [encodeAll_cons]
    rcases h with ⟨rfl, rfl⟩ | ⟨q, rfl, h⟩
    · rw [Nat.zero_add, byte_append_left lt]
    · rw [Nat.add_assoc, size, byte_append_right, ih h]

lemma At.opcode {xs p x} (h : At xs p x) :
    Lib.byte (encodeAll xs) p = Lib.byte (encode x) 0 := h.byte (size_pos x)

lemma At.cover {xs i} (lt : i < (encodeAll xs).length) : ∃ p x k, At xs p x ∧ k < size x ∧ i = p + k := by
  induction xs generalizing i with
  | nil => cases lt
  | cons y ys ih =>
    rw [length_encodeAll_cons] at lt
    rcases Nat.lt_or_ge i (size y) with here | after
    · exact ⟨0, y, i, .inl ⟨rfl, rfl⟩, here, (Nat.zero_add i).symm⟩
    · obtain ⟨p, x, k, h, ltk, e⟩ := ih (i := i - size y) (by omega)
      exact ⟨size y + p, x, k, .inr ⟨p, rfl, h⟩, ltk, by omega⟩

lemma At.unique {xs p q x y} (hx : At xs p x) (hy : At xs q y) (le : p ≤ q)
    (lt : q < p + size x) : q = p ∧ y = x := by
  induction xs generalizing p q with
  | nil => cases hx
  | cons z zs ih =>
    rcases hx with ⟨rfl, rfl⟩ | ⟨p', rfl, hx⟩
    · rcases hy with hy | ⟨q', rfl, hy⟩
      · exact hy
      · omega
    · rcases hy with ⟨rfl, _⟩ | ⟨q', rfl, hy⟩
      · have pos := size_pos z
        omega
      · obtain ⟨rfl, e⟩ := ih hx hy (by omega) (by omega)
        exact ⟨rfl, e⟩

lemma At.next {xs p x} (h : At xs p x) (lt : p + size x < (encodeAll xs).length) : ∃ y, At xs (p + size x) y := by
  induction xs generalizing p with
  | nil => cases h
  | cons y ys ih =>
    rw [length_encodeAll_cons] at lt
    rcases h with ⟨rfl, rfl⟩ | ⟨q, rfl, h⟩
    · cases ys with
      | nil =>
        rw [show encodeAll [] = [] from rfl, List.length_nil] at lt
        omega
      | cons z zs => exact ⟨z, .inr ⟨0, by omega, .inl ⟨rfl, rfl⟩⟩⟩
    · obtain ⟨z, hz⟩ := ih h (by omega)
      exact ⟨z, .inr ⟨q + size x, by omega, hz⟩⟩

/-- For a relation that keeps sizes: the length is right, and at every offset of `xs` is a related instruction. -/
lemma encodeAll_iff {R : Instr → Instr → Prop} (sized : ∀ x x', R x x' → size x' = size x) {xs c} :
    (∃ xs', c = encodeAll xs' ∧ List.Forall₂ R xs xs') ↔
      c.length = (encodeAll xs).length ∧ ∀ p x, At xs p x →
        ∃ x', R x x' ∧ ∀ k, k < size x → Lib.byte c (p + k) = Lib.byte (encode x') k := by
  induction xs generalizing c with
  | nil =>
    constructor
    · rintro ⟨xs', rfl, ⟨⟩⟩
      exact ⟨rfl, fun p x h => by cases h⟩
    · rintro ⟨len, _⟩
      exact ⟨[], List.length_eq_zero_iff.mp len, .nil⟩
  | cons y ys ih =>
    constructor
    · rintro ⟨_, rfl, all⟩
      obtain ⟨y', ys', r, rs, rfl⟩ := List.forall₂_cons_left_iff.mp all
      have sz := sized y y' r
      obtain ⟨len, each⟩ := ih.mp ⟨ys', rfl, rs⟩
      refine ⟨by rw [length_encodeAll_cons, length_encodeAll_cons, sz, len], ?_⟩
      rintro p x (⟨rfl, rfl⟩ | ⟨q, rfl, h⟩)
      · refine ⟨y', r, fun k lt => ?_⟩
        rw [encodeAll_cons, Nat.zero_add, byte_append_left (by unfold size at sz lt; omega)]
      · obtain ⟨x', r', eq⟩ := each q x h
        refine ⟨x', r', fun k lt => ?_⟩
        rw [encodeAll_cons, ← sz, Nat.add_assoc, size, byte_append_right, eq k lt]
    · -- the front of the buffer is the first instruction, the rest is left to the induction
      rintro ⟨len, each⟩
      obtain ⟨y', r, eq⟩ := each 0 y (.inl ⟨rfl, rfl⟩)
      have sz := sized y y' r
      rw [length_encodeAll_cons] at len
      have tail : (c.drop (size y)).length = (encodeAll ys).length := by
        rw [List.length_drop]
        omega
      obtain ⟨ys', e, rs⟩ := ih.mpr ⟨tail, fun p x h => by
        obtain ⟨x', r', eq'⟩ := each (size y + p) x (.inr ⟨p, rfl, h⟩)
        refine ⟨x', r', fun k lt => ?_⟩
        rw [byte_drop, ← eq' k lt, Nat.add_assoc]⟩
      refine ⟨y' :: ys', ?_, .cons r rs⟩
      have head : c.take (size y) = encode y' := by
        apply Buf.ext
        · rw [List.length_take, ← size, sz]
          omega
        · intro k
          rcases Nat.lt_or_ge k (size y) with lt | ge
          · rw [byte_take lt, ← eq k lt, Nat.zero_add]
          · rw [byte_of_le (by rw [List.length_take]; omega), byte_of_le (by rw [← size]; omega)]
      rw [encodeAll_cons, ← e, ← head, List.take_append_drop]

end Macify.Lib.X86
