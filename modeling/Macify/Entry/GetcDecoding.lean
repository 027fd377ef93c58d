import Macify.Entry.DecidedBranches
import Macify.Lib.Operands

/-!
# What the rewriter of `getc` takes for the macro

`dec_getc_op` (`src/main.c`) reads of a REX prefix only the bits that extend a register number of ModRM. The places
that the rewriter finds are compared with the instructions that stand there. Each is behind all that was stored
before (`getcSite_behind`), so these are the instructions of the text as it was.
-/

namespace Macify.Entry
open Lib
open Lib.X86

/-- The operand has an SIB byte and the prefix extends the index in it, which is then `r12`. -/
def Indexed (t : Code) (p : ℕ) : Prop := rexAt t p &&& 2 ≠ 0 ∧ t (opcodeAt t p + 1) &&& 7 = 4

instance (t : Code) (p : ℕ) : Decidable (Indexed t p) :=
  inferInstanceAs (Decidable (_ ∧ _))

section Decoding

variable {t : Code} {n p : ℕ} {op : UInt8} {d : DecOp}

structure DecOp.At (t : Code) (p : ℕ) (op : UInt8) (d : DecOp) : Prop where
  opcode : t (opcodeAt t p) = op
  reg : (fieldsAt t p).reg = d.reg
  next : (fieldsAt t p).next = p + d.len
  direct : d.base = none →
    (fieldsAt t p).rm = .reg d.reg ∧ t (opcodeAt t p + 1) >>> 6 = 3 ∧ p + d.len = opcodeAt t p + 2
  memory : ∀ b, d.base = some b →
    ∃ index, (fieldsAt t p).rm = .mem (some b) index d.disp ∧ (index = none ↔ ¬Indexed t p)
  length : 2 ≤ d.len ∧ d.len ≤ 5
  longer : d.base.isSome = true → 3 ≤ d.len
  noNop : op ≠ 0x90 → d.base = none ∨ d.disp ≠ -112 → ∀ k, p ≤ k → k < p + d.len → t k ≠ 0x90

lemma opcodeAt_cases : rexAt t p = 0 ∧ opcodeAt t p = p ∨
    rexAt t p = t p ∧ t p &&& 0xF0 = 0x40 ∧ opcodeAt t p = p + 1 := by
  unfold rexAt opcodeAt
  by_cases rex : t p &&& 0xF0 = 0x40
  · exact .inr ⟨if_pos rex, rex, if_pos rex⟩
  · exact .inl ⟨if_neg rex, if_neg rex⟩

lemma opcodeAt_eq : (if rexAt t p = 0 then p else p + 1) = opcodeAt t p := by
  rcases @opcodeAt_cases t p with ⟨rex, pos⟩ | ⟨rex, high, pos⟩
  · rw [rex, pos, if_pos rfl]
  · rw [pos, rex, if_neg]
    intro zero
    rw [zero] at high
    exact absurd high (by decide)

lemma front_ne_nop (opcode : t (opcodeAt t p) = op) (ne : op ≠ 0x90) {k : ℕ} (ge : p ≤ k)
    (le : k ≤ opcodeAt t p) : t k ≠ 0x90 := by
  intro nop
  rcases @opcodeAt_cases t p with ⟨-, pos⟩ | ⟨-, high, pos⟩
  · obtain rfl : k = opcodeAt t p := by omega
    exact ne (opcode.symm.trans nop)
  · rcases Nat.eq_or_lt_of_le ge with rfl | gt
    · rw [nop] at high
      exact absurd high (by decide)
    · obtain rfl : k = opcodeAt t p := by omega
      exact ne (opcode.symm.trans nop)

lemma rel8_nop {k : ℕ} (nop : t k = 0x90) : t.rel8 k = -112 := by
  rw [Code.rel8, nop]
  decide

lemma ne_nop_of {f : UInt8 → UInt8} {b : UInt8} (other : f b ≠ f 0x90) : b ≠ 0x90 := fun nop => other (by rw [nop])

lemma regNum_eq {low rex bit : UInt8} :
    ((low &&& 7).toNat + if rex &&& bit ≠ 0 then 8 else 0) = regNum low rex bit := rfl

lemma decGetcOp_spec (found : decGetcOp t n p op = some d) : d.At t p op := by
  have lt : p < n := by
    by_contra out
    have none : (if p < n ∧ t p &&& 0xF0 = 0x40 then t p else 0) = 0 := if_neg fun inside => out inside.1
    simp only [decGetcOp, none, if_true, Nat.le_of_not_lt out, true_or] at found
    cases found
  have rex : (if p < n ∧ t p &&& 0xF0 = 0x40 then t p else 0) = rexAt t p := by
    simp only [lt, true_and, rexAt]
  simp only [decGetcOp, rex, opcodeAt_eq, regNum_eq] at found
  have bounds := @opcodeAt_bounds t p
  split_ifs at found with front _ mode same other sib _ four _ _
  all_goals
    obtain rfl := Option.some.inj found
    have opcode : t (opcodeAt t p) = op := not_not.mp fun ne => front (.inr ne)
  · -- `test r, r`
    have operand := @operandAt_reg t (rexAt t p) _ mode
    refine ⟨opcode, rfl, ?_, fun _ => ⟨?_, mode, ?_⟩, fun _ some => absurd some.symm (Option.some_ne_none _), ?_,
      fun some => absurd some Bool.false_ne_true, fun ne _ k ge inside => ?_⟩
    · simp only [fieldsAt, operand]
      omega
    · simp only [fieldsAt, operand, not_not.mp same]
    · dsimp only
      omega
    · dsimp only
      omega
    · rcases Nat.lt_or_ge (opcodeAt t p) k with behind | le
      · obtain rfl : k = opcodeAt t p + 1 := by dsimp only at inside; omega
        exact ne_nop_of (f := (· >>> 6)) (mode ▸ by decide)
      · exact front_ne_nop opcode ne ge le
  · -- an SIB byte
    have mode := not_not.mp other
    have four := not_not.mp four
    have operand := @operandAt_sib8 t (rexAt t p) _ mode sib
    refine ⟨opcode, rfl, ?_, fun none => absurd none (Option.some_ne_none _), fun b some => ?_, ?_, ?_,
      fun ne disp k ge inside => ?_⟩
    · simp only [fieldsAt, operand]
      omega
    · obtain rfl := Option.some.inj some
      refine ⟨_, congrArg Prod.fst operand, ?_⟩
      rw [indexOf_of_four four, Indexed]
      simp only [sib, and_true]
    · dsimp only
      omega
    · intro _
      dsimp only
      omega
    · dsimp only at inside
      rcases Nat.lt_or_ge (opcodeAt t p) k with behind | le
      · obtain rfl | rfl | rfl : k = opcodeAt t p + 1 ∨ k = opcodeAt t p + 2 ∨ k = opcodeAt t p + 3 := by omega
        · exact ne_nop_of (f := (· >>> 6)) (mode ▸ by decide)
        · exact ne_nop_of (f := (· >>> 3 &&& 7)) (four ▸ by decide)
        · exact fun nop => disp.elim (Option.some_ne_none _) fun ne => ne (rel8_nop nop)
      · exact front_ne_nop opcode ne ge le
  · have mode := not_not.mp other
    have operand := @operandAt_disp8 t (rexAt t p) _ mode sib
    refine ⟨opcode, rfl, ?_, fun none => absurd none (Option.some_ne_none _), fun b some => ?_, ?_, ?_,
      fun ne disp k ge inside => ?_⟩
    · simp only [fieldsAt, operand]
      omega
    · obtain rfl := Option.some.inj some
      refine ⟨none, congrArg Prod.fst operand, ?_⟩
      simp only [Indexed, sib, and_false, not_false_eq_true]
    · dsimp only
      omega
    · intro _
      dsimp only
      omega
    · dsimp only at inside
      rcases Nat.lt_or_ge (opcodeAt t p) k with behind | le
      · obtain rfl | rfl : k = opcodeAt t p + 1 ∨ k = opcodeAt t p + 2 := by omega
        · exact ne_nop_of (f := (· >>> 6)) (mode ▸ by decide)
        · exact fun nop => disp.elim (Option.some_ne_none _) fun ne => ne (rel8_nop nop)
      · exact front_ne_nop opcode ne ge le

lemma DecOp.At.first (read : d.At t p op) : t p = op ∨ t p &&& 0xF0 = 0x40 ∧ t (p + 1) = op := by
  have opcode := read.opcode
  rcases @opcodeAt_cases t p with ⟨-, pos⟩ | ⟨-, high, pos⟩ <;> rw [pos] at opcode
  · exact .inl opcode
  · exact .inr ⟨high, opcode⟩

end Decoding

def getcMatch (t : Code) (size i : ℕ) : Option (ℕ × GetcSite) :=
  if t i ≠ 0x8D ∧ t i &&& 0xF0 ≠ 0x40 then none
  else
    ((decGetcOp t size i 0x8D).filter fun lea => lea.base.isSome && lea.disp == -1).bind fun lea =>
      [5, 4, 3].findSome? fun k => (getcCluster t size i lea k).map fun s => (i - k, s)

/-- `mov L, [B+8]`, `lea D, [L-1]`, `mov [B+8], D`, `test L, L`, and `jle` or `jg`. -/
def InlinedGetc (t : Code) (start : ℕ) : Prop :=
  ∃ L B D w cc target, (cc = 0xE ∨ cc = 0xF) ∧
    insnsAt t 5 start = some [.mov .dword (.reg L) (.mem (some B) none 8), .lea w D (.mem (some L) none (-1)),
      .mov .dword (.mem (some B) none 8) (.reg D), .test .dword (.reg L) (.reg L), .jcc cc target]

def Narrow (t : Code) (p : ℕ) : Prop := rexAt t p &&& 8 = 0

instance (t : Code) (p : ℕ) : Decidable (Narrow t p) := inferInstanceAs (Decidable (_ = _))

def GetcSite.Plain (t : Code) (start i : ℕ) (s : GetcSite) : Prop :=
  Narrow t start ∧ ¬Indexed t start ∧ ¬Indexed t i ∧ Narrow t s.leaEnd ∧ ¬Indexed t s.leaEnd ∧
    Narrow t (s.leaEnd + s.stLen)

section Cluster

variable {t : Code} {size i start : ℕ} {s : GetcSite}

lemma getcSite_eq : getcSite t size i = (getcMatch t size i).map Prod.snd := by
  unfold getcSite getcMatch
  split
  next => rfl
  next =>
    rw [Option.map_bind]
    congr 1
    funext lea
    simp only [Function.comp_apply, List.map_findSome?]
    congr 1
    funext k
    simp only [Function.comp_apply, Option.map_map]
    exact Option.map_id'.symm

structure GetcOps (t : Code) (i start : ℕ) (s : GetcSite) where
  ld : DecOp
  lea : DecOp
  st : DecOp
  ts : DecOp
  base : ℕ
  ldAt : ld.At t start 0x8B
  leaAt : lea.At t i 0x8D
  stAt : st.At t s.leaEnd 0x89
  tsAt : ts.At t (s.leaEnd + s.stLen) 0x85
  branch : s.branch.Is 0xE t
  ldEnd : start + ld.len = i
  leaEnd : s.leaEnd = i + lea.len
  stLen : s.stLen = st.len
  pos : s.branch.pos = s.leaEnd + s.stLen + ts.len
  ldOperand : ld.base = some base ∧ ld.disp = 8
  leaOperand : lea.base = some ld.reg ∧ lea.disp = -1
  stOperand : st.base = some base ∧ st.disp = 8 ∧ st.reg = lea.reg
  tsOperand : ts.base = none ∧ ts.reg = ld.reg

lemma getcMatch_spec (found : getcMatch t size i = some (start, s)) : Nonempty (GetcOps t i start s) := by
  unfold getcMatch at found
  split at found
  next => cases found
  next =>
    obtain ⟨lea, leaFound, cluster⟩ := Option.bind_eq_some_iff.mp found
    obtain ⟨leaRead, leaShape⟩ := Option.filter_eq_some_iff.mp leaFound
    obtain ⟨k, -, cluster⟩ := List.exists_of_findSome?_eq_some cluster
    obtain ⟨site, whole, eq⟩ := Option.map_eq_some_iff.mp cluster
    obtain ⟨rfl, rfl⟩ := Prod.mk.inj eq
    obtain ⟨ld, ldFound, cluster⟩ := Option.bind_eq_some_iff.mp whole
    obtain ⟨st, stFound, cluster⟩ := Option.bind_eq_some_iff.mp cluster
    obtain ⟨ts, tsFound, cluster⟩ := Option.bind_eq_some_iff.mp cluster
    obtain ⟨b, branch, site⟩ := Option.bind_eq_some_iff.mp cluster
    obtain rfl := Option.some.inj site
    obtain ⟨ldRead, ldShape⟩ := Option.filter_eq_some_iff.mp ldFound
    obtain ⟨stRead, stShape⟩ := Option.filter_eq_some_iff.mp stFound
    obtain ⟨tsRead, tsShape⟩ := Option.filter_eq_some_iff.mp tsFound
    obtain ⟨pos, -, is⟩ := getcBranch_spec branch
    simp only [Bool.and_eq_true, decide_eq_true_eq, beq_iff_eq] at leaShape ldShape stShape tsShape
    obtain ⟨⟨⟨⟨-, ldEnd⟩, ldDisp⟩, ldBase⟩, loaded⟩ := ldShape
    obtain ⟨base, ldBase⟩ := Option.isSome_iff_exists.mp ldBase
    exact ⟨{
      ld := ld, lea := lea, st := st, ts := ts, base := base
      ldAt := decGetcOp_spec ldRead
      leaAt := decGetcOp_spec leaRead
      stAt := decGetcOp_spec stRead
      tsAt := decGetcOp_spec tsRead
      branch := is
      ldEnd := ldEnd
      leaEnd := rfl
      stLen := rfl
      pos := pos
      ldOperand := ⟨ldBase, ldDisp⟩
      leaOperand := ⟨loaded.symm, leaShape.2⟩
      stOperand := ⟨stShape.1.2.trans ldBase, stShape.1.1, stShape.2⟩
      tsOperand := ⟨tsShape.1, Option.some.inj (tsShape.2.trans loaded.symm)⟩ }⟩

lemma width_eq_iff {p : ℕ} : (fieldsAt t p).width = .dword ↔ Narrow t p := by
  show (if rexAt t p &&& 8 ≠ 0 then Width.qword else .dword) = .dword ↔ _
  unfold Narrow
  by_cases bit : rexAt t p &&& 8 = 0 <;> simp [bit]

lemma GetcOps.inlined_iff (x : GetcOps t i start s) : InlinedGetc t start ↔ s.Plain t start i := by
  obtain ⟨ldIndex, ldRm, ldNone⟩ := x.ldAt.memory _ x.ldOperand.1
  obtain ⟨leaIndex, leaRm, leaNone⟩ := x.leaAt.memory _ x.leaOperand.1
  obtain ⟨stIndex, stRm, stNone⟩ := x.stAt.memory _ x.stOperand.1
  have tsRm := (x.tsAt.direct x.tsOperand.1).1
  rw [x.ldOperand.2] at ldRm
  rw [x.leaOperand.2] at leaRm
  rw [x.stOperand.2.1] at stRm
  have branch := insnAt_jcc (x.branch.branchAt (.inr rfl))
  have load : insnAt t start =
      some (.mov (fieldsAt t start).width (.reg x.ld.reg) (.mem (some x.base) ldIndex 8), i) := by
    rw [insnAt_load x.ldAt.opcode, x.ldAt.reg, x.ldAt.next, ldRm, x.ldEnd]
  have lea : insnAt t i =
      some (.lea (fieldsAt t i).width x.lea.reg (.mem (some x.ld.reg) leaIndex (-1)), s.leaEnd) := by
    rw [insnAt_lea x.leaAt.opcode leaRm, x.leaAt.reg, x.leaAt.next, x.leaEnd]
  have store : insnAt t s.leaEnd =
      some (.mov (fieldsAt t s.leaEnd).width (.mem (some x.base) stIndex 8) (.reg x.lea.reg),
        s.leaEnd + s.stLen) := by
    rw [insnAt_store x.stAt.opcode, x.stAt.reg, x.stAt.next, stRm, x.stOperand.2.2, ← x.stLen]
  have test : insnAt t (s.leaEnd + s.stLen) =
      some (.test (fieldsAt t (s.leaEnd + s.stLen)).width (.reg x.ld.reg) (.reg x.ld.reg), s.branch.pos) := by
    rw [insnAt_test x.tsAt.opcode, x.tsAt.reg, x.tsAt.next, tsRm, x.tsOperand.2, x.pos]
  have last : insnsAt t 0 (s.branch.pos + s.branch.length) = some [] := rfl
  have five := insnsAt_cons load (insnsAt_cons lea (insnsAt_cons store (insnsAt_cons test (insnsAt_cons branch last))))
  constructor
  · rintro ⟨L, B, D, w, cc, target, -, decoded⟩
    rw [five] at decoded
    simp only [Option.some.injEq, List.cons.injEq, Insn.mov.injEq, Insn.lea.injEq, Insn.test.injEq,
      Operand.mem.injEq] at decoded
    obtain ⟨⟨ldWidth, -, -, ldPlain, -⟩, ⟨-, -, -, leaPlain, -⟩, ⟨stWidth, ⟨-, stPlain, -⟩, -⟩, ⟨tsWidth, -⟩, -⟩ :=
      decoded
    exact ⟨width_eq_iff.mp ldWidth, ldNone.mp ldPlain, leaNone.mp leaPlain, width_eq_iff.mp stWidth,
      stNone.mp stPlain, width_eq_iff.mp tsWidth⟩
  · rintro ⟨ldWidth, ldPlain, leaPlain, stWidth, stPlain, tsWidth⟩
    rw [width_eq_iff.mpr ldWidth, ldNone.mpr ldPlain, leaNone.mpr leaPlain, width_eq_iff.mpr stWidth,
      stNone.mpr stPlain, width_eq_iff.mpr tsWidth] at five
    refine ⟨_, _, _, _, _, _, ?_, five⟩
    cases s.branch.jumps
    · exact .inr rfl
    · exact .inl rfl

lemma GetcOps.noNop (x : GetcOps t i start s) {k : ℕ} (ge : start ≤ k) (lt : k < s.branch.pos) : t k ≠ 0x90 := by
  have ldDisp : x.ld.disp ≠ -112 := by rw [x.ldOperand.2]; decide
  have leaDisp : x.lea.disp ≠ -112 := by rw [x.leaOperand.2]; decide
  have stDisp : x.st.disp ≠ -112 := by rw [x.stOperand.2.1]; decide
  have ldEnd := x.ldEnd
  have leaEnd := x.leaEnd
  have stLen := x.stLen
  have pos := x.pos
  rcases Nat.lt_or_ge k i with inLoad | ge
  · exact x.ldAt.noNop (by decide) (.inr ldDisp) k ge (by omega)
  rcases Nat.lt_or_ge k s.leaEnd with inLea | ge
  · exact x.leaAt.noNop (by decide) (.inr leaDisp) k ge (by omega)
  rcases Nat.lt_or_ge k (s.leaEnd + s.stLen) with inStore | ge
  · exact x.stAt.noNop (by decide) (.inr stDisp) k ge (by omega)
  · exact x.tsAt.noNop (by decide) (.inl x.tsOperand.1) k ge (by omega)

lemma GetcOps.bounds (x : GetcOps t i start s) :
    start + 3 ≤ i ∧ i ≤ start + 5 ∧ i + 3 ≤ s.leaEnd ∧ s.leaEnd ≤ i + 5 ∧ 3 ≤ s.stLen ∧ s.stLen ≤ 5 ∧
      s.leaEnd + s.stLen + 2 ≤ s.branch.pos := by
  have ld := x.ldAt.longer (by rw [x.ldOperand.1]; rfl)
  have lea := x.leaAt.longer (by rw [x.leaOperand.1]; rfl)
  have st := x.stAt.longer (by rw [x.stOperand.1]; rfl)
  have ldLen := x.ldAt.length
  have leaLen := x.leaAt.length
  have stLen := x.stAt.length
  have tsLen := x.tsAt.length
  have ends := And.intro x.ldEnd (And.intro x.leaEnd (And.intro x.stLen x.pos))
  omega

lemma BranchSite.code_first {b : BranchSite} :
    byte (b.code t) 0 = 0x90 ∨ byte (b.code t) 0 = 0xEB ∨ byte (b.code t) 0 = 0xE9 := by
  obtain ⟨pos, near, jumps⟩ := b
  cases near <;> cases jumps
  · exact .inl rfl
  · exact .inr (.inl rfl)
  · exact .inl rfl
  · exact .inr (.inr rfl)

lemma BranchSite.code_last {b : BranchSite} (more : 1 < b.stored) : byte (b.code t) (b.stored - 1) = 0x90 := by
  obtain ⟨pos, near, jumps⟩ := b
  cases near <;> cases jumps
  · rfl
  · exact absurd more (Nat.lt_irrefl 1)
  · rfl
  · rfl

lemma high_of_direct {b : UInt8} (mode : b >>> 6 = 3) : b &&& 0xF0 ≠ 0x40 := by
  intro high
  have bits : (b &&& 0xF0) >>> 6 = 1 := by rw [high]; rfl
  rw [UInt8.shiftRight_and, mode] at bits
  exact absurd bits (by decide)

lemma GetcOps.start_ne (x : GetcOps t i start s) {b : UInt8} (op : b ≠ 0x8B) (high : b &&& 0xF0 ≠ 0x40) :
    t start ≠ b := by
  rintro rfl
  exact x.ldAt.first.elim op fun rex => high rex.1

lemma GetcOps.start_not_in_test {t' : Code} {j start' : ℕ} {s' : GetcSite} (x : GetcOps t i start s)
    (y : GetcOps t' j start' s') (kept : ∀ k, s.leaEnd + s.stLen ≤ k → k < s.branch.pos → t' k = t k)
    (ge : s.leaEnd + s.stLen ≤ start') : s.branch.pos ≤ start' := by
  by_contra lt
  have same := kept start' ge (by omega)
  have opcode := x.tsAt.opcode
  obtain ⟨-, mode, length⟩ := x.tsAt.direct x.tsOperand.1
  have pos := x.pos
  rcases Nat.lt_trichotomy start' (opcodeAt t (s.leaEnd + s.stLen)) with front | rfl | behind
  · rcases @opcodeAt_cases t (s.leaEnd + s.stLen) with ⟨-, eq⟩ | ⟨-, high, eq⟩
    · omega
    · obtain rfl : start' = s.leaEnd + s.stLen := by omega
      rcases y.ldAt.first with load | ⟨-, load⟩
      · rw [← same, load] at high
        exact absurd high (by decide)
      · rw [kept _ (by omega) (by omega), ← eq, opcode] at load
        exact absurd load (by decide)
  · exact y.start_ne (b := 0x85) (by decide) (by decide) (same.trans opcode)
  · obtain rfl : start' = opcodeAt t (s.leaEnd + s.stLen) + 1 := by omega
    refine y.start_ne (fun load => ?_) (high_of_direct mode) same
    rw [load] at mode
    exact absurd mode (by decide)

lemma getcSite_behind {j start' : ℕ} {s' : GetcSite} (x : GetcOps t i start s) (later : i < j)
    (y : GetcOps (t.storeAll (s.stores t)) j start' s') : ∀ k ∈ Code.written (s.stores t), k < start' := by
  have found := x.bounds
  have next := y.bounds
  have nops : ∀ k, s.leaEnd ≤ k → k < s.leaEnd + s.stLen → t.storeAll (s.stores t) k = 0x90 := by
    intro k ge lt
    have stored : (t.store s.leaEnd (List.replicate s.stLen 0x90)).Holds s.leaEnd (List.replicate s.stLen 0x90) :=
      Code.holds_store
    have bound : k - s.leaEnd < (List.replicate s.stLen (0x90 : UInt8)).length := by
      rw [List.length_replicate]
      omega
    have here := stored (k - s.leaEnd) bound
    rw [Nat.add_sub_cancel' ge, byte_of_lt bound, List.getElem_replicate] at here
    exact (Code.store_outside (.inl (by omega))).trans here
  have kept : ∀ k, s.leaEnd + s.stLen ≤ k → k < s.branch.pos → t.storeAll (s.stores t) k = t k := by
    intro k ge lt
    refine Code.storeAll_outside fun mem => ?_
    rw [GetcSite.mem_written_iff] at mem
    omega
  have branch : (t.storeAll (s.stores t)).Holds s.branch.pos
      (s.branch.code (t.store s.leaEnd (List.replicate s.stLen 0x90))) := Code.holds_store
  -- the `nop`s of the store come first
  have behindLea : s.leaEnd < start' := by
    by_contra le
    exact y.noNop (by omega) (by omega) (nops s.leaEnd (by omega) (by omega))
  have behindStore : s.leaEnd + s.stLen ≤ start' := by
    by_contra lt
    exact y.noNop (Nat.le_refl start') (by omega) (nops start' (by omega) (by omega))
  have behindTest := x.start_not_in_test y kept behindStore
  have positive : 0 < s.branch.stored := by
    unfold BranchSite.stored
    split
    · decide
    · split <;> decide
  have first := branch 0 (by rw [BranchSite.length_code]; exact positive)
  have behindBranch : s.branch.pos < start' := by
    refine Nat.lt_of_le_of_ne behindTest fun eq => ?_
    rw [Nat.add_zero, eq] at first
    rcases @BranchSite.code_first (t.store s.leaEnd (List.replicate s.stLen 0x90)) s.branch with nop | jump | jump
    · exact y.start_ne (b := 0x90) (by decide) (by decide) (first.trans nop)
    · exact y.start_ne (b := 0xEB) (by decide) (by decide) (first.trans jump)
    · exact y.start_ne (b := 0xE9) (by decide) (by decide) (first.trans jump)
  have behindAll : s.branch.pos + s.branch.stored ≤ start' := by
    by_contra lt
    have last := branch (s.branch.stored - 1) (by rw [BranchSite.length_code]; omega)
    rw [BranchSite.code_last (by omega)] at last
    have small : s.branch.stored ≤ 6 := by
      unfold BranchSite.stored
      split
      · decide
      · split <;> decide
    exact y.noNop (by omega) (by omega) last
  intro k mem
  rw [GetcSite.mem_written_iff] at mem
  omega

end Cluster

section Runs

variable (grants : ℕ → Bool) (addr size : ℕ) (t : Code)

def FiresOnGetc : Prop :=
  (getcLoop grants addr size).Always
    (fun now i => ∀ s, getcSite now size i = some s →
      ∃ start, getcMatch now size i = some (start, s) ∧ InlinedGetc t start) t

def Untouched (i : ℕ) (now : Code) : Prop :=
  ∀ j, i ≤ j → ∀ start s, getcMatch now size j = some (start, s) → ∀ k, start ≤ k → now k = t k

variable {grants addr size t}

lemma untouched_step {i n : ℕ} {now : Code} (inv : Untouched size t i now) :
    Untouched size t (i + 1) ((getcLoop grants addr size).step (now, n) i).1 := by
  unfold Rewriter.step
  cases found : getcMatch now size i with
  | none =>
    have skipped : (getcLoop grants addr size).rewrite now i = none := by
      show (getcSite now size i).map _ = none
      rw [getcSite_eq, found]
      rfl
    rw [skipped]
    exact fun j ge => inv j (by omega)
  | some m =>
    obtain ⟨start, s⟩ := m
    have rewritten : (getcLoop grants addr size).rewrite now i =
        some ⟨(s.pages addr).filter grants, s.stores now⟩ := by
      show (getcSite now size i).map _ = _
      rw [getcSite_eq, found]
      rfl
    rw [rewritten]
    intro j ge start' s' later k behind
    obtain ⟨x⟩ := getcMatch_spec found
    obtain ⟨y⟩ := getcMatch_spec later
    have apart := getcSite_behind x ge y
    have stored : k ∉ Code.written (s.stores now) := fun mem => absurd (apart k mem) (by omega)
    have order : start ≤ k := by
      have first := apart s.leaEnd (GetcSite.mem_written_iff.mpr (.inl ⟨Nat.le_refl _, by have := x.bounds; omega⟩))
      have bounds := x.bounds
      omega
    exact (Code.storeAll_outside stored).trans (inv i (Nat.le_refl i) start s found k order)

lemma untouched_run {a n : ℕ} {st : Code × ℕ} (inv : Untouched size t a st.1) :
    Along (getcLoop grants addr size).step (fun st i => Untouched size t i st.1) st (List.range' a n) := by
  induction n generalizing a st with
  | zero => trivial
  | succ n ih =>
    rw [List.range'_succ]
    exact ⟨inv, ih (untouched_step inv)⟩

lemma narrow_congr {t' : Code} {p : ℕ} (same : ∀ k, p ≤ k → t' k = t k) : Narrow t' p ↔ Narrow t p := by
  rw [Narrow, Narrow, rexAt_congr (same p (Nat.le_refl p))]

lemma indexed_congr {t' : Code} {p : ℕ} (same : ∀ k, p ≤ k → t' k = t k) : Indexed t' p ↔ Indexed t p := by
  have bounds := @opcodeAt_bounds t p
  rw [Indexed, Indexed, rexAt_congr (same p (Nat.le_refl p)), opcodeAt_congr (same p (Nat.le_refl p)),
    same _ (by omega)]

lemma GetcOps.inlined_iff_before {now : Code} {i start : ℕ} {s : GetcSite} (x : GetcOps now i start s)
    (same : ∀ k, start ≤ k → now k = t k) : InlinedGetc t start ↔ s.Plain t start i := by
  have bounds := x.bounds
  have behind : ∀ p, start ≤ p → ∀ k, p ≤ k → now k = t k := fun p ge k le => same k (by omega)
  have decoded : InlinedGetc now start ↔ InlinedGetc t start := by
    simp only [InlinedGetc, insnsAt_congr same]
  have plain : s.Plain now start i ↔ s.Plain t start i := by
    simp only [GetcSite.Plain, narrow_congr same, indexed_congr same, indexed_congr (behind i (by omega)),
      narrow_congr (behind s.leaEnd (by omega)), indexed_congr (behind s.leaEnd (by omega)),
      narrow_congr (behind (s.leaEnd + s.stLen) (by omega))]
  exact decoded.symm.trans (x.inlined_iff.trans plain)

/-- The rewriter is right exactly where no instruction that it finds has a prefix for 64-bit operands of the
    load, the store or the `test`, or for an index in the fourth register. -/
theorem getc_rewriter_sound_iff :
    FiresOnGetc grants addr size t ↔
      (getcLoop grants addr size).Always
        (fun now i => ∀ start s, getcMatch now size i = some (start, s) → s.Plain t start i) t := by
  have all := @untouched_run grants addr size t 5 (size - 17) (t, 0) fun _ _ _ _ _ _ _ => rfl
  refine all.congr fun st i inv => ?_
  constructor
  · intro fires start s found
    obtain ⟨x⟩ := getcMatch_spec found
    obtain ⟨start', again, getc⟩ := fires s (by rw [getcSite_eq, found]; rfl)
    obtain rfl : start' = start := congrArg Prod.fst (Option.some.inj (again.symm.trans found))
    exact (x.inlined_iff_before (inv i (Nat.le_refl i) start' s found)).mp getc
  · intro plain s site
    rw [getcSite_eq] at site
    obtain ⟨⟨start, s'⟩, found, rfl⟩ := Option.map_eq_some_iff.mp site
    obtain ⟨x⟩ := getcMatch_spec found
    exact ⟨start, found, (x.inlined_iff_before (inv i (Nat.le_refl i) start s' found)).mpr (plain start s' found)⟩

lemma plain_of_fires {start : ℕ} {s : GetcSite} (fires : FiresOnGetc grants addr (size + 18) t)
    (found : getcMatch t (size + 18) 5 = some (start, s)) : s.Plain t start 5 := by
  have first : List.range' 5 (size + 18 - 17) = 5 :: List.range' 6 size := rfl
  unfold FiresOnGetc Rewriter.Always at fires
  rw [getcLoop, first] at fires
  obtain ⟨start', again, getc⟩ := fires.1 s (by rw [getcSite_eq, found]; rfl)
  obtain rfl : start' = start := congrArg Prod.fst (Option.some.inj (again.symm.trans found))
  obtain ⟨x⟩ := getcMatch_spec found
  exact x.inlined_iff.mp getc

end Runs

/-- A counter of 64 bits: `mov rax, [rbx+8]`, `lea rcx, [rax-1]`, `mov [rbx+8], rcx`, `test rax, rax`, `jle`. -/
def wideCounter : Code :=
  byte [0x90, 0x48, 0x8B, 0x43, 0x08, 0x48, 0x8D, 0x48, 0xFF, 0x48, 0x89, 0x4B, 0x08, 0x48, 0x85, 0xC0, 0x7E, 0x10]

/-- `mov eax, [rbx+r12+8]`, `lea ecx, [rax-1]`, `mov [rbx+8], ecx`, `test eax, eax`, `jle`. -/
def indexedLoad : Code :=
  byte [0x42, 0x8B, 0x44, 0x23, 0x08, 0x8D, 0x48, 0xFF, 0x89, 0x4B, 0x08, 0x85, 0xC0, 0x7E, 0x10]

/-- The store of the counter is removed, and so is one to another place than the one that was read. -/
theorem getc_rewriter_fires_elsewhere :
    (getcRewrite (fun _ => true) 0 24 wideCounter 5 =
        some ⟨[0], [(9, [0x90, 0x90, 0x90, 0x90]), (16, [0xEB])]⟩ ∧
      insnsAt wideCounter 5 1 = some [.mov .qword (.reg 0) (.mem (some 3) none 8),
        .lea .qword 1 (.mem (some 0) none (-1)), .mov .qword (.mem (some 3) none 8) (.reg 1),
        .test .qword (.reg 0) (.reg 0), .jcc 0xE 34] ∧
      ¬FiresOnGetc (fun _ => true) 0 24 wideCounter) ∧
    getcRewrite (fun _ => true) 0 24 indexedLoad 5 = some ⟨[0], [(8, [0x90, 0x90, 0x90]), (13, [0xEB])]⟩ ∧
      insnsAt indexedLoad 1 0 = some [.mov .dword (.reg 0) (.mem (some 3) (some (12, 1)) 8)] ∧
      ¬FiresOnGetc (fun _ => true) 0 24 indexedLoad := by
  have wide : getcMatch wideCounter 24 5 = some (1, ⟨9, 4, ⟨16, false, true⟩⟩) := by decide +kernel
  have indexed : getcMatch indexedLoad 24 5 = some (0, ⟨8, 3, ⟨13, false, true⟩⟩) := by decide +kernel
  refine ⟨⟨by decide +kernel, by decide +kernel, fun fires => ?_⟩, by decide +kernel, by decide +kernel,
    fun fires => ?_⟩
  · exact absurd (plain_of_fires fires wide).1 (by decide)
  · exact absurd (plain_of_fires fires indexed).2.1 (by decide)

end Macify.Entry
