import Macify.Lib.Code

/-!
# Instructions with a ModRM byte

An instruction of x86-64 with an opcode of one byte and a ModRM byte: a REX prefix or none, the opcode, ModRM,
an SIB byte where ModRM asks for it, and a displacement of no, one or four bytes. `fieldsAt` decodes such an
instruction at an offset, and `insnAt` gives four opcodes and the conditional branches their meaning.
-/

namespace Macify.Lib.X86

inductive Width where
  | dword
  | qword
  deriving DecidableEq

inductive Operand where
  | reg (r : ℕ)
  | mem (base : Option ℕ) (index : Option (ℕ × ℕ)) (disp : ℤ)
  | rip (disp : ℤ)
  deriving DecidableEq

def rexAt (m : Code) (p : ℕ) : UInt8 := if m p &&& 0xF0 = 0x40 then m p else 0

def opcodeAt (m : Code) (p : ℕ) : ℕ := if m p &&& 0xF0 = 0x40 then p + 1 else p

/-- The number of a register: three bits, and a fourth one of the prefix. -/
def regNum (low rex bit : UInt8) : ℕ := (low &&& 7).toNat + if rex &&& bit ≠ 0 then 8 else 0

def dispAt (m : Code) (mod : UInt8) (p : ℕ) : ℤ × ℕ :=
  if mod = 1 then (m.rel8 p, 1)
  else if mod = 2 then (m.rel32 p, 4)
  else (0, 0)

/-- The index of an SIB byte. The number 4 stands for none, and the prefix is part of the number. -/
def indexOf (rex sib : UInt8) : Option (ℕ × ℕ) :=
  let i := regNum (sib >>> 3) rex 2
  if i = 4 then none else some (i, 2 ^ (sib >>> 6).toNat)

def sibAt (m : Code) (rex mod : UInt8) (p : ℕ) : Operand × ℕ :=
  if mod = 0 ∧ m p &&& 7 = 5 then (.mem none (indexOf rex (m p)) (m.rel32 (p + 1)), 5)
  else
    let d := dispAt m mod (p + 1)
    (.mem (some (regNum (m p) rex 1)) (indexOf rex (m p)) d.1, 1 + d.2)

def operandAt (m : Code) (rex : UInt8) (p : ℕ) : Operand × ℕ :=
  let mod := m p >>> 6
  if mod = 3 then (.reg (regNum (m p) rex 1), 1)
  else if m p &&& 7 = 4 then
    let s := sibAt m rex mod (p + 1)
    (s.1, 1 + s.2)
  else if mod = 0 ∧ m p &&& 7 = 5 then (.rip (m.rel32 (p + 1)), 5)
  else
    let d := dispAt m mod (p + 1)
    (.mem (some (regNum (m p) rex 1)) none d.1, 1 + d.2)

section Operands

variable {m : Code} {rex : UInt8} {p : ℕ}

lemma operandAt_reg (mode : m p >>> 6 = 3) : operandAt m rex p = (.reg (regNum (m p) rex 1), 1) := by
  simp only [operandAt, if_pos mode]

lemma operandAt_disp8 (mode : m p >>> 6 = 1) (plain : m p &&& 7 ≠ 4) :
    operandAt m rex p = (.mem (some (regNum (m p) rex 1)) none (m.rel8 (p + 1)), 2) := by
  have other : ¬((1 : UInt8) = 0 ∧ m p &&& 7 = 5) := fun zero => absurd zero.1 (by decide)
  simp only [operandAt, mode, if_neg plain, if_neg other]
  rfl

lemma operandAt_sib8 (mode : m p >>> 6 = 1) (sib : m p &&& 7 = 4) :
    operandAt m rex p =
      (.mem (some (regNum (m (p + 1)) rex 1)) (indexOf rex (m (p + 1))) (m.rel8 (p + 2)), 3) := by
  have other : ¬((1 : UInt8) = 0 ∧ m (p + 1) &&& 7 = 5) := fun zero => absurd zero.1 (by decide)
  simp only [operandAt, mode, if_pos sib, sibAt, if_neg other]
  rfl

lemma indexOf_of_four {sib : UInt8} (four : sib >>> 3 &&& 7 = 4) : indexOf rex sib = none ↔ ¬rex &&& 2 ≠ 0 := by
  unfold indexOf regNum
  rw [four]
  by_cases bit : rex &&& 2 = 0 <;> simp [bit]

end Operands

structure Fields where
  opcode : UInt8
  width : Width
  reg : ℕ
  rm : Operand
  next : ℕ
  deriving DecidableEq

def fieldsAt (m : Code) (p : ℕ) : Fields :=
  let rex := rexAt m p
  let q := opcodeAt m p
  let x := operandAt m rex (q + 1)
  ⟨m q, if rex &&& 8 ≠ 0 then .qword else .dword, regNum (m (q + 1) >>> 3) rex 4, x.1, q + 1 + x.2⟩

inductive Insn where
  | mov (w : Width) (dst src : Operand)
  | lea (w : Width) (dst : ℕ) (src : Operand)
  | test (w : Width) (x y : Operand)
  | jcc (cc : UInt8) (target : ℤ)
  deriving DecidableEq

def insnAt (m : Code) (p : ℕ) : Option (Insn × ℕ) :=
  let f := fieldsAt m p
  if f.opcode = 0x8B then some (.mov f.width (.reg f.reg) f.rm, f.next)
  else if f.opcode = 0x89 then some (.mov f.width f.rm (.reg f.reg), f.next)
  else if f.opcode = 0x85 then some (.test f.width f.rm (.reg f.reg), f.next)
  else if f.opcode = 0x8D then
    match f.rm with
    | .reg _ => none
    | rm => some (.lea f.width f.reg rm, f.next)
  else
    match m.branchAt p with
    | some (.cond cc target next) => some (.jcc cc target, next)
    | _ => none

def insnsAt (m : Code) : ℕ → ℕ → Option (List Insn)
  | 0, _ => some []
  | n + 1, p => (insnAt m p).bind fun x => (insnsAt m n x.2).map (x.1 :: ·)

section Instructions

variable {m : Code} {p : ℕ}

lemma insnAt_load (op : (fieldsAt m p).opcode = 0x8B) :
    insnAt m p = some (.mov (fieldsAt m p).width (.reg (fieldsAt m p).reg) (fieldsAt m p).rm, (fieldsAt m p).next) := by
  simp only [insnAt, if_pos op]

lemma insnAt_store (op : (fieldsAt m p).opcode = 0x89) :
    insnAt m p = some (.mov (fieldsAt m p).width (fieldsAt m p).rm (.reg (fieldsAt m p).reg), (fieldsAt m p).next) := by
  simp only [insnAt, op]
  rfl

lemma insnAt_test (op : (fieldsAt m p).opcode = 0x85) :
    insnAt m p =
      some (.test (fieldsAt m p).width (fieldsAt m p).rm (.reg (fieldsAt m p).reg), (fieldsAt m p).next) := by
  simp only [insnAt, op]
  rfl

lemma insnAt_lea {base : Option ℕ} {index : Option (ℕ × ℕ)} {disp : ℤ} (op : (fieldsAt m p).opcode = 0x8D)
    (rm : (fieldsAt m p).rm = .mem base index disp) :
    insnAt m p =
      some (.lea (fieldsAt m p).width (fieldsAt m p).reg (.mem base index disp), (fieldsAt m p).next) := by
  simp only [insnAt, op, rm]
  rfl

lemma insnAt_jcc {cc : UInt8} {target : ℤ} {next : ℕ} (branch : m.branchAt p = some (.cond cc target next)) :
    insnAt m p = some (.jcc cc target, next) := by
  have first : m p &&& 0xF0 = 0x70 ∨ m p = 0x0F := by
    unfold Code.branchAt at branch
    split_ifs at branch with _ _ short near
    · cases branch
    · cases branch
    · exact .inl short
    · exact .inr near.1
  have other : ∀ op : UInt8, op &&& 0xF0 ≠ 0x70 → op ≠ 0x0F → m p ≠ op := by
    rintro op short near rfl
    exact first.elim short near
  have high : m p &&& 0xF0 ≠ 0x40 := by
    rcases first with short | near
    · rw [short]
      decide
    · rw [near]
      decide
  have op : (fieldsAt m p).opcode = m p := by
    show m (opcodeAt m p) = m p
    rw [opcodeAt, if_neg high]
  simp only [insnAt, op, branch, if_neg (other 0x8B (by decide) (by decide)),
    if_neg (other 0x89 (by decide) (by decide)), if_neg (other 0x85 (by decide) (by decide)),
    if_neg (other 0x8D (by decide) (by decide))]

lemma insnsAt_cons {x : Insn} {xs : List Insn} {next n : ℕ} (first : insnAt m p = some (x, next))
    (rest : insnsAt m n next = some xs) : insnsAt m (n + 1) p = some (x :: xs) := by
  rw [insnsAt, first, Option.bind_some, rest, Option.map_some]

end Instructions

section Congruence

variable {m m' : Code} {rex mod : UInt8} {p n : ℕ}

lemma rexAt_congr (same : m' p = m p) : rexAt m' p = rexAt m p := by
  rw [rexAt, rexAt, same]

lemma opcodeAt_congr (same : m' p = m p) : opcodeAt m' p = opcodeAt m p := by
  rw [opcodeAt, opcodeAt, same]

lemma opcodeAt_bounds : p ≤ opcodeAt m p ∧ opcodeAt m p ≤ p + 1 := by
  unfold opcodeAt
  split <;> omega

section

variable (same : ∀ k, p ≤ k → m' k = m k)
include same

lemma dispAt_congr : dispAt m' mod p = dispAt m mod p := by
  rw [dispAt, dispAt, Code.rel8, Code.rel8, same p (by omega), Code.rel32, Code.rel32, Code.word32_congr same]

lemma sibAt_congr : sibAt m' rex mod p = sibAt m rex mod p := by
  have behind : ∀ k, p + 1 ≤ k → m' k = m k := fun k ge => same k (by omega)
  rw [sibAt, sibAt, same p (by omega), Code.rel32, Code.rel32, Code.word32_congr behind, dispAt_congr behind]

lemma operandAt_congr : operandAt m' rex p = operandAt m rex p := by
  have behind : ∀ k, p + 1 ≤ k → m' k = m k := fun k ge => same k (by omega)
  rw [operandAt, operandAt, same p (by omega), sibAt_congr behind, Code.rel32, Code.rel32,
    Code.word32_congr behind, dispAt_congr behind]

lemma fieldsAt_congr : fieldsAt m' p = fieldsAt m p := by
  have bounds := @opcodeAt_bounds m p
  have operand : ∀ rex, operandAt m' rex (opcodeAt m p + 1) = operandAt m rex (opcodeAt m p + 1) :=
    fun rex => operandAt_congr fun k ge => same k (by omega)
  simp only [fieldsAt, rexAt_congr (same p (Nat.le_refl p)), opcodeAt_congr (same p (Nat.le_refl p)), operand,
    same (opcodeAt m p) bounds.1, same (opcodeAt m p + 1) (by omega)]

lemma branchAt_congr : m'.branchAt p = m.branchAt p := by
  have behind : ∀ j, m'.word32 (p + j) = m.word32 (p + j) := fun j =>
    Code.word32_congr fun k ge => same k (by omega)
  rw [Code.branchAt, Code.branchAt, Code.rel8, Code.rel8, Code.rel32, Code.rel32, Code.rel32, Code.rel32,
    same p (by omega), same (p + 1) (by omega), behind 1, behind 2]

lemma insnAt_congr : insnAt m' p = insnAt m p := by
  rw [insnAt, insnAt, fieldsAt_congr same, branchAt_congr same]

end

lemma le_next_fieldsAt : p ≤ (fieldsAt m p).next := by
  have bounds := @opcodeAt_bounds m p
  show p ≤ opcodeAt m p + 1 + _
  omega

lemma le_next_branchAt {cc : UInt8} {target : ℤ} {next : ℕ}
    (found : m.branchAt p = some (.cond cc target next)) : p ≤ next := by
  unfold Code.branchAt at found
  split_ifs at found <;> cases found <;> omega

lemma le_next_insnAt {x : Insn × ℕ} (found : insnAt m p = some x) : p ≤ x.2 := by
  unfold insnAt at found
  dsimp only at found
  split_ifs at found
  iterate 3
    · obtain rfl := Option.some.inj found
      exact le_next_fieldsAt
  · split at found
    next => cases found
    next =>
      obtain rfl := Option.some.inj found
      exact le_next_fieldsAt
  · split at found
    next branch =>
      obtain rfl := Option.some.inj found
      exact le_next_branchAt branch
    next => cases found

lemma insnsAt_congr (same : ∀ k, p ≤ k → m' k = m k) : insnsAt m' n p = insnsAt m n p := by
  induction n generalizing p with
  | zero => rfl
  | succ n ih =>
    rw [insnsAt, insnsAt, insnAt_congr same]
    refine Option.bind_congr fun x found => ?_
    rw [ih fun k ge => same k (Nat.le_trans (le_next_insnAt found) ge)]

end Congruence

end Macify.Lib.X86
