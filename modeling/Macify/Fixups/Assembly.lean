import Macify.Fixups.Binds
import Macify.Fixups.Numbers
import Macify.Fixups.Rebases

/-!
# Assembled streams

A linker has a list of slots and writes bind and rebase opcodes for them, one slot after the other. The encoders are
those of the format; the interpreters do with the bytes what the list says, in its order, and nothing else.
-/

namespace Macify.Fixups
open Lib Image

/-- A slot to be bound, as far as the format can say it in one entry and the buffer for a name holds it. -/
structure SlotBinding where
  ordinal : Fin (2 ^ 31)
  symbol : Buf
  addend : W64
  segIndex : Fin 16
  segOffset : W64
  noZero : 0 ∉ symbol
  fits : symbol.length ≤ 255

namespace SlotBinding

/-- An opcode with an immediate operand. -/
def opcode (op : UInt8) (imm : Fin 16) : UInt8 := op ||| UInt8.ofNat imm

def encodeOrdinal (n : ℕ) : Buf :=
  if small : n < 16 then [opcode 0x10 ⟨n, small⟩] else 0x20 :: encodeUleb128 n

def encode (b : SlotBinding) : Buf :=
  encodeOrdinal b.ordinal ++ 0x40 :: (b.symbol ++ 0 :: 0x51 :: 0x60 :: (encodeSleb128 b.addend.toInt ++
    opcode 0x70 b.segIndex :: (encodeUleb128 b.segOffset.toNat ++ [0x90])))

/-- The stream ends with any number of zeros. -/
def assemble (bs : List SlotBinding) (padding : ℕ) : Buf := bs.flatMap encode ++ List.replicate padding 0

def name (b : SlotBinding) : Buf := stripUnderscore b.symbol

/-- The ordinal is that of a dylib, and the segment exists. -/
structure In (env : BindEnv) (b : SlotBinding) : Prop where
  ordinal_pos : 1 ≤ b.ordinal.val
  ordinal_le : b.ordinal.val ≤ env.ndylibs
  segment : b.segIndex.val < env.segs.length

def found (env : BindEnv) (b : SlotBinding) : W64 := env.resolve (b.ordinal.val - 1) b.name

def write (env : BindEnv) (b : SlotBinding) : W64 × W64 :=
  ((slotAddr env.segs b.segIndex b.segOffset).getD b.segOffset,
    (if b.found env = 0 then env.stub else b.found env) + b.addend)

/-- The registers when the entry comes to its last opcode. -/
def loaded (st : BindState) (b : SlotBinding) : BindState :=
  { st with
    ordinal := b.ordinal.val, symbolName := b.symbol, type := BIND_TYPE_POINTER, addend := b.addend,
    segOffset := b.segOffset, segIndex := b.segIndex }

def bound (env : BindEnv) (st : BindState) (b : SlotBinding) : BindState :=
  { b.loaded st with
    segOffset := b.segOffset + 8, writes := st.writes ++ [b.write env],
    noted := st.noted ++ if b.found env = 0 then [b.name] else [] }

section Bytes

variable {rest : Buf} {b : SlotBinding} {env : BindEnv} {st : BindState}

lemma ofByte_opcode (imm : Fin 16) :
    BindOpcode.ofByte (opcode 0x10 imm) = some .setDylibOrdinalImm ∧
      BindOpcode.ofByte (opcode 0x70 imm) = some .setSegmentRelativeOffsetUleb ∧
      immOf (opcode 0x10 imm) = imm ∧ immOf (opcode 0x70 imm) = imm := by
  revert imm
  decide +kernel

lemma cString_symbol (b : SlotBinding) : cString (b.symbol ++ 0 :: rest) = b.symbol := by
  have nonzero : ∀ x ∈ b.symbol, (x != 0) = true := fun x mem =>
    bne_iff_ne.mpr fun zero => b.noZero (zero ▸ mem)
  rw [cString, List.takeWhile_append_of_pos nonzero, List.takeWhile_cons_of_neg (by decide), List.append_nil]

lemma readUleb128_ordinal (n : Fin (2 ^ 31)) :
    ∃ v, readUleb128 (encodeUleb128 n ++ rest) = (v, rest) ∧ (v.setWidth 32).toInt = n := by
  have lt := n.isLt
  refine ⟨BitVec.ofNat 64 n, ?_, ?_⟩
  · have read := @readUleb128_encode rest (BitVec.ofNat 64 n)
    rwa [BitVec.toNat_ofNat, Nat.mod_eq_of_lt (by omega)] at read
  · rw [BitVec.toInt_eq_toNat_of_lt]
    all_goals
      simp only [BitVec.toNat_setWidth, BitVec.toNat_ofNat]
      omega

lemma interpret_ordinal : interpret (bindStep env) (encodeOrdinal b.ordinal ++ rest) st =
    interpret (bindStep env) rest { st with ordinal := b.ordinal.val } := by
  unfold encodeOrdinal
  split
  · next small =>
    obtain ⟨op, -, imm, -⟩ := ofByte_opcode ⟨b.ordinal, small⟩
    rw [List.singleton_append]
    apply interpret_more (bindStep_shrinks env)
    simp only [bindStep, op, imm]
  · obtain ⟨v, read, value⟩ := @readUleb128_ordinal rest b.ordinal
    rw [List.cons_append]
    apply interpret_more (bindStep_shrinks env)
    simp only [bindStep, show BindOpcode.ofByte 0x20 = some .setDylibOrdinalUleb from rfl, read, value]

lemma bindStep_symbol : bindStep env st 0x40 (b.symbol ++ 0 :: rest) =
    .more rest { st with symbolName := b.symbol } := by
  have more : ¬(b.symbol ++ 0 :: rest).length ≤ b.symbol.length := by simp
  simp only [bindStep, show BindOpcode.ofByte 0x40 = some .setSymbolTrailingFlagsImm from rfl,
    cString_symbol, if_neg more, List.take_of_length_le b.fits, List.drop_length_add_append]
  rfl

lemma bindStep_addend : bindStep env st 0x60 (encodeSleb128 b.addend.toInt ++ rest) =
    .more rest { st with addend := b.addend } := by
  simp only [bindStep, show BindOpcode.ofByte 0x60 = some .setAddendSleb from rfl, readSleb128_encode]

lemma bindStep_place : bindStep env st (opcode 0x70 b.segIndex) (encodeUleb128 b.segOffset.toNat ++ rest) =
    .more rest { st with segIndex := b.segIndex, segOffset := b.segOffset } := by
  obtain ⟨-, op, -, imm⟩ := ofByte_opcode b.segIndex
  simp only [bindStep, op, imm, readUleb128_encode]

lemma noteUnresolved_loaded : noteUnresolved env (b.loaded st) =
    { b.loaded st with noted := st.noted ++ if b.found env = 0 then [b.name] else [] } := by
  unfold noteUnresolved
  rw [show lookup env (b.loaded st) = b.found env from rfl]
  split
  · rfl
  · rw [List.append_nil]
    rfl

lemma bindStep_slot (ok : b.In env) : bindStep env (b.loaded st) 0x90 rest = .more rest (b.bound env st) := by
  have valid : ordinalOk env (b.loaded st) = true := by
    have pos := ok.ordinal_pos
    have le := ok.ordinal_le
    show (decide (1 ≤ (b.ordinal.val : ℤ)) && decide ((b.ordinal.val : ℤ) ≤ env.ndylibs)) = true
    simp only [Bool.and_eq_true, decide_eq_true_eq]
    omega
  have segment : ¬env.segs.length ≤ (b.loaded st).segIndex := Nat.not_le.mpr ok.segment
  rw [bindStep, show BindOpcode.ofByte 0x90 = some .doBind from rfl]
  simp only [bindOne, valid, noteUnresolved_loaded, Bool.not_true, Bool.false_eq_true, if_false]
  rw [if_neg segment, if_pos (show (b.loaded st).type = BIND_TYPE_POINTER from rfl)]
  rfl

lemma interpret_encode (ok : b.In env) : interpret (bindStep env) (b.encode ++ rest) st =
    interpret (bindStep env) rest (b.bound env st) := by
  have shrinks := bindStep_shrinks env
  have type {rest : Buf} {st : BindState} :
      bindStep env st 0x51 rest = .more rest { st with type := BIND_TYPE_POINTER } := rfl
  simp only [encode, List.append_assoc, List.cons_append, List.nil_append]
  rw [interpret_ordinal, interpret_more shrinks bindStep_symbol, interpret_more shrinks type,
    interpret_more shrinks bindStep_addend, interpret_more shrinks bindStep_place]
  exact interpret_more shrinks (bindStep_slot ok)

end Bytes

section Main

variable {env : BindEnv} {bs : List SlotBinding} {st : BindState} {padding : ℕ}

lemma interpret_padding : ∃ st', interpret (bindStep env) (List.replicate padding 0) st = (true, st') ∧
    st'.writes = st.writes ∧ st'.noted = st.noted := by
  induction padding generalizing st with
  | zero => exact ⟨st, rfl, rfl, rfl⟩
  | succ n ih =>
    cases n with
    | zero => exact ⟨st, rfl, rfl, rfl⟩
    | succ n =>
      have done : bindStep env st 0 (0 :: List.replicate n 0) =
          .more (0 :: List.replicate n 0) { st with symbolName := [], segOffset := 0, segIndex := 0 } := rfl
      rw [List.replicate_succ, List.replicate_succ, interpret_more (bindStep_shrinks env) done]
      exact ih

lemma interpret_assemble (ok : ∀ b ∈ bs, b.In env) : interpret (bindStep env) (assemble bs padding) st =
    interpret (bindStep env) (List.replicate padding 0) (bs.foldl (bound env) st) := by
  induction bs generalizing st with
  | nil => rfl
  | cons b bs ih =>
    rw [assemble, List.flatMap_cons, List.append_assoc, interpret_encode (ok b List.mem_cons_self)]
    exact ih fun x mem => ok x (List.mem_cons_of_mem b mem)

lemma foldl_bound : (bs.foldl (bound env) st).writes = st.writes ++ bs.map (write env) ∧
    (bs.foldl (bound env) st).noted = st.noted ++ (bs.filter (found env · = 0)).map name := by
  induction bs generalizing st with
  | nil => exact ⟨(List.append_nil _).symm, (List.append_nil _).symm⟩
  | cons b bs ih =>
    obtain ⟨writes, noted⟩ := @ih (b.bound env st)
    rw [List.foldl_cons, writes, noted, bound, List.append_assoc, List.append_assoc, List.filter_cons]
    refine ⟨rfl, ?_⟩
    by_cases missing : b.found env = 0
    · rw [if_pos missing, if_pos (decide_eq_true missing)]
      rfl
    · rw [if_neg missing, if_neg (mt of_decide_eq_true missing)]
      rfl

/-- `execute_binds` on the bytes of a list of bindings: it succeeds, stores the value of each binding in its
    slot and notes the names that it does not find, all in the order of the list. -/
theorem execute_binds_assembled (env : BindEnv) (bs : List SlotBinding) (padding : ℕ) (ok : ∀ b ∈ bs, b.In env) :
    ∃ st, executeBinds env (assemble bs padding) = (true, st) ∧ st.writes = bs.map (write env) ∧
      st.noted = (bs.filter (found env · = 0)).map name := by
  obtain ⟨st, ends, writes, noted⟩ := @interpret_padding env (bs.foldl (bound env) .start) padding
  refine ⟨st, (interpret_assemble ok).trans ends, ?_, ?_⟩
  · rw [writes, foldl_bound.1]
    rfl
  · rw [noted, foldl_bound.2]
    rfl

def oneImage : BindEnv := ⟨[⟨0x10000, 0x1000, 3, 3, ascii "__DATA", false⟩], 1, fun _ _ => 0x5000, 0x2000⟩

def oneBinding : SlotBinding := ⟨1, ascii "_f", 1, 0, 8, by decide, by decide⟩

theorem execute_binds_assembled_one :
    ∃ st, executeBinds oneImage (assemble [oneBinding] 2) = (true, st) ∧ st.writes = [(0x10008, 0x5001)] ∧
      st.noted = [] :=
  execute_binds_assembled oneImage [oneBinding] 2 fun b mem => by
    rw [List.mem_singleton.mp mem]
    exact ⟨by decide, by decide, by decide⟩

end Main

section Dylib

variable {env : DylibBindEnv} {bs : List SlotBinding} {b : SlotBinding} {d : DylibBindState} {rest : Buf} {padding : ℕ}

def dylibFound (env : DylibBindEnv) (b : SlotBinding) : W64 := env.resolve (-1) b.name

/-- The stub is stored without the addend. -/
def dylibWrite (env : DylibBindEnv) (b : SlotBinding) : W64 × W64 :=
  ((dylibSlotAddr env.segs env.slide b.segIndex b.segOffset).getD 0,
    if b.dylibFound env = 0 then env.stub else b.dylibFound env + b.addend)

def dylibLoaded (d : DylibBindState) (b : SlotBinding) : DylibBindState :=
  ⟨some b.segIndex, b.segOffset, b.symbol, b.addend, d.writes⟩

def dylibBound (env : DylibBindEnv) (d : DylibBindState) (b : SlotBinding) : DylibBindState :=
  { b.dylibLoaded d with segOffset := b.segOffset + 8, writes := d.writes ++ [b.dylibWrite env] }

lemma interpret_dylib_ordinal : interpret (dylibBindStep env) (encodeOrdinal b.ordinal ++ rest) d =
    interpret (dylibBindStep env) rest d := by
  unfold encodeOrdinal
  split
  · next small =>
    obtain ⟨op, -⟩ := ofByte_opcode ⟨b.ordinal, small⟩
    rw [List.singleton_append]
    apply interpret_more (dylibBindStep_shrinks env)
    simp only [dylibBindStep, op]
  · obtain ⟨v, read, -⟩ := @readUleb128_ordinal rest b.ordinal
    rw [List.cons_append]
    apply interpret_more (dylibBindStep_shrinks env)
    simp only [dylibBindStep, show BindOpcode.ofByte 0x20 = some .setDylibOrdinalUleb from rfl, read]

lemma dylibBindStep_symbol : dylibBindStep env d 0x40 (b.symbol ++ 0 :: rest) =
    .more rest { d with symName := b.symbol } := by
  simp only [dylibBindStep, show BindOpcode.ofByte 0x40 = some .setSymbolTrailingFlagsImm from rfl,
    cString_symbol, List.take_of_length_le b.fits, List.drop_length_add_append]
  rfl

lemma dylibBindStep_addend : dylibBindStep env d 0x60 (encodeSleb128 b.addend.toInt ++ rest) =
    .more rest { d with addend := b.addend } := by
  simp only [dylibBindStep, show BindOpcode.ofByte 0x60 = some .setAddendSleb from rfl, readSleb128_encode]

lemma dylibBindStep_place :
    dylibBindStep env d (opcode 0x70 b.segIndex) (encodeUleb128 b.segOffset.toNat ++ rest) =
      .more rest { d with segIndex := some b.segIndex.val, segOffset := b.segOffset } := by
  obtain ⟨-, op, -, imm⟩ := ofByte_opcode b.segIndex
  simp only [dylibBindStep, op, imm, readUleb128_encode]

lemma dylibBindStep_slot (segment : b.segIndex.val < env.segs.length) :
    dylibBindStep env (b.dylibLoaded d) 0x90 rest = .more rest (b.dylibBound env d) := by
  have target : dylibTarget env (b.dylibLoaded d) = some (b.dylibWrite env).1 := by
    unfold dylibTarget dylibLoaded dylibWrite
    rw [Option.bind_some, dylibSlotAddr, List.getElem?_eq_getElem segment]
    rfl
  rw [dylibBindStep, show BindOpcode.ofByte 0x90 = some .doBind from rfl]
  simp only [target, storeOrStub, show dylibLookup env (b.dylibLoaded d) = b.dylibFound env from rfl]
  unfold dylibBound dylibWrite
  split
  · rfl
  · rfl

lemma interpret_dylib_encode (segment : b.segIndex.val < env.segs.length) :
    interpret (dylibBindStep env) (b.encode ++ rest) d =
      interpret (dylibBindStep env) rest (b.dylibBound env d) := by
  have shrinks := dylibBindStep_shrinks env
  have type {rest : Buf} {d : DylibBindState} : dylibBindStep env d 0x51 rest = .more rest d := rfl
  simp only [encode, List.append_assoc, List.cons_append, List.nil_append]
  rw [interpret_dylib_ordinal, interpret_more shrinks dylibBindStep_symbol, interpret_more shrinks type,
    interpret_more shrinks dylibBindStep_addend, interpret_more shrinks dylibBindStep_place]
  exact interpret_more shrinks (dylibBindStep_slot segment)

/-- `process_dylib_binds` on the same bytes: the name is looked up in all libraries. -/
theorem process_dylib_binds_assembled (env : DylibBindEnv) (bs : List SlotBinding) (padding : ℕ)
    (ok : ∀ b ∈ bs, b.segIndex.val < env.segs.length) :
    (processDylibBinds env (assemble bs padding)).writes = bs.map (dylibWrite env) := by
  suffices run : ∀ d, (interpret (dylibBindStep env) (assemble bs padding) d).2.writes =
      d.writes ++ bs.map (dylibWrite env) from run .start
  induction bs with
  | nil =>
    intro d
    rw [List.map_nil, List.append_nil]
    cases padding with
    | zero | succ n => rfl
  | cons b bs ih =>
    intro d
    rw [assemble, List.flatMap_cons, List.append_assoc, interpret_dylib_encode (ok b List.mem_cons_self)]
    refine (ih (fun x mem => ok x (List.mem_cons_of_mem b mem)) _).trans ?_
    rw [dylibBound, List.append_assoc, List.map_cons, List.singleton_append]

theorem process_dylib_binds_assembled_one :
    (processDylibBinds ⟨[⟨0x1000, 0x1000, 0, 0⟩], 0x10000, fun _ _ => 0, 0x2000⟩ (assemble [oneBinding] 2)).writes =
      [(0x11008, 0x2000)] :=
  process_dylib_binds_assembled _ [oneBinding] 2 fun b mem => by
    rw [List.mem_singleton.mp mem]
    decide

end Dylib

end SlotBinding

/-- `count` words, one after the other. -/
structure RebaseRun where
  segIndex : Fin 16
  segOffset : W64
  count : W64

namespace RebaseRun

def encode (r : RebaseRun) : Buf :=
  SlotBinding.opcode 0x20 r.segIndex :: (encodeUleb128 r.segOffset.toNat ++ 0x60 :: encodeUleb128 r.count.toNat)

def assemble (rs : List RebaseRun) (padding : ℕ) : Buf :=
  0x11 :: (rs.flatMap encode ++ List.replicate padding 0)

def words (env : RebaseEnv) (r : RebaseRun) : List W64 :=
  (List.range r.count.toNat).map fun i =>
    (slotAddr env.segs r.segIndex (r.segOffset + BitVec.ofNat 64 (8 * i))).getD 0

def slideAll (env : RebaseEnv) (mem : Mem) (words : List W64) : Mem :=
  words.foldl (slideWord · · env.slide) mem

variable {env : RebaseEnv} {rs : List RebaseRun} {r : RebaseRun} {st : RebaseState} {rest : Buf} {padding : ℕ}

lemma doRebases_run {seg : LoadedSegment} {n : ℕ} (found : env.segs[st.segIndex]? = some seg)
    (pointer : st.type = REBASE_TYPE_POINTER) :
    ∃ st', doRebases env 0 n st = (true, st') ∧ st'.type = REBASE_TYPE_POINTER ∧ st'.mem = slideAll env st.mem
      ((List.range n).map fun i => seg.vmaddr + (st.segOffset + BitVec.ofNat 64 (8 * i))) := by
  induction n generalizing st with
  | zero => exact ⟨st, rfl, pointer, rfl⟩
  | succ n ih =>
    obtain ⟨st', run, type, mem⟩ := @ih ((doOneRebase env.slide seg.vmaddr st).advance 0) found pointer
    refine ⟨st', ?_, type, ?_⟩
    · rw [doRebases, found]
      exact run
    · have next (i : ℕ) : st.segOffset + 8 + 0#64 + BitVec.ofNat 64 (8 * i) =
          st.segOffset + BitVec.ofNat 64 (8 * i.succ) := by
        rw [BitVec.add_zero, BitVec.add_assoc, Nat.mul_succ, Nat.add_comm, BitVec.ofNat_add]
        rfl
      rw [mem, List.range_succ_eq_map, List.map_cons, List.map_map, slideAll, slideAll, List.foldl_cons,
        Nat.mul_zero, BitVec.ofNat_eq_ofNat, BitVec.add_zero]
      simp only [doOneRebase, RebaseState.advance, if_pos pointer, next, Function.comp_def]

lemma interpret_run (segment : r.segIndex.val < env.segs.length) (pointer : st.type = REBASE_TYPE_POINTER) :
    ∃ st', interpret (rebaseStep env) (r.encode ++ rest) st = interpret (rebaseStep env) rest st' ∧
      st'.type = REBASE_TYPE_POINTER ∧ st'.mem = slideAll env st.mem (r.words env) := by
  have bytes : ∀ imm : Fin 16, RebaseOpcode.ofByte (SlotBinding.opcode 0x20 imm) =
      some .setSegmentRelativeOffsetUleb ∧ immOf (SlotBinding.opcode 0x20 imm) = imm := by
    decide +kernel
  obtain ⟨op, imm⟩ := bytes r.segIndex
  have place : rebaseStep env st (SlotBinding.opcode 0x20 r.segIndex)
      (encodeUleb128 r.segOffset.toNat ++ 0x60 :: (encodeUleb128 r.count.toNat ++ rest)) =
      .more (0x60 :: (encodeUleb128 r.count.toNat ++ rest))
        { st with segIndex := r.segIndex, segOffset := r.segOffset, segmentSet := true } := by
    simp only [rebaseStep, op, imm, readUleb128_encode]
  obtain ⟨st', run, type, mem⟩ := @doRebases_run env
    { st with segIndex := r.segIndex, segOffset := r.segOffset, segmentSet := true } env.segs[r.segIndex.val]
    r.count.toNat (List.getElem?_eq_getElem segment) pointer
  have rebases : rebaseStep env { st with segIndex := r.segIndex, segOffset := r.segOffset, segmentSet := true } 0x60
      (encodeUleb128 r.count.toNat ++ rest) = .more rest st' := by
    simp only [rebaseStep, show RebaseOpcode.ofByte 0x60 = some .doRebaseUlebTimes from rfl, readUleb128_encode,
      rebaseRun, run]
  refine ⟨st', ?_, type, mem.trans ?_⟩
  · have shrinks := rebaseStep_shrinks env
    simp only [encode, List.append_assoc, List.cons_append]
    rw [interpret_more shrinks place, interpret_more shrinks rebases]
  · simp only [words, slotAddr, List.getElem?_eq_getElem segment, Option.map_some, Option.getD_some]

/-- `execute_rebases` on a file with the bytes of a list of runs: each word of each run is slid once. -/
theorem execute_rebases_assembled (env : RebaseEnv) (rs : List RebaseRun) (padding : ℕ) (mem : Mem) {file : Buf}
    {off size : W32} {a n : ℕ} (ok : ∀ r ∈ rs, r.segIndex.val < env.segs.length)
    (passes : checkRange .rebase file.length off size = .pass a n) (bytes : sliceOf file a n = assemble rs padding) :
    ∃ st, executeRebases env file off size mem = (true, st) ∧ st.mem = slideAll env mem (rs.flatMap (words env)) := by
  have type : rebaseStep env (.start mem) 0x11 (rs.flatMap encode ++ List.replicate padding 0) =
      .more (rs.flatMap encode ++ List.replicate padding 0)
        { RebaseState.start mem with type := REBASE_TYPE_POINTER } := rfl
  suffices run : ∀ st : RebaseState, st.type = REBASE_TYPE_POINTER → ∃ st',
      interpret (rebaseStep env) (rs.flatMap encode ++ List.replicate padding 0) st = (true, st') ∧
        st'.mem = slideAll env st.mem (rs.flatMap (words env)) by
    rw [executeRebases, passes]
    dsimp only
    rw [bytes, assemble, interpret_more (rebaseStep_shrinks env) type]
    exact run _ rfl
  clear type bytes
  induction rs with
  | nil =>
    intro st _
    cases padding with
    | zero | succ n => exact ⟨st, rfl, rfl⟩
  | cons r rs ih =>
    intro st pointer
    obtain ⟨st', here, type, mem⟩ := @interpret_run env r st (rs.flatMap encode ++ List.replicate padding 0)
      (ok r List.mem_cons_self) pointer
    obtain ⟨last, there, all⟩ := ih (fun x m => ok x (List.mem_cons_of_mem r m)) st' type
    refine ⟨last, ?_, ?_⟩
    · rw [List.flatMap_cons, List.append_assoc, here, there]
    · rw [all, mem, List.flatMap_cons, slideAll, slideAll, slideAll, List.foldl_append]

theorem execute_rebases_assembled_two :
    ∃ st, executeRebases ⟨SlotBinding.oneImage.segs, 0x100⟩ (7 :: assemble [⟨0, 8, 2⟩] 1) 1 6 (fun _ => 0) =
      (true, st) ∧
      st.mem.read64 0x10008 = 0x100 ∧ st.mem.read64 0x10010 = 0x100 ∧ st.mem.read64 0x10018 = 0 := by
  obtain ⟨st, run, mem⟩ := @execute_rebases_assembled ⟨SlotBinding.oneImage.segs, 0x100⟩ [⟨0, 8, 2⟩] 1
    (fun _ => 0) (7 :: assemble [⟨0, 8, 2⟩] 1) 1 6 1 6 (by decide) (by decide +kernel) (by decide +kernel)
  refine ⟨st, run, ?_⟩
  rw [mem]
  decide +kernel

end RebaseRun

end Macify.Fixups
