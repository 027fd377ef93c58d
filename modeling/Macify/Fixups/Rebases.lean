import Macify.Fixups.Binds

/-!
# Rebase opcodes

Models of `execute_rebases` for the main image (`src/fixups.c`) and `process_dylib_rebases` for a dylib
(`src/macho_dylib.c`). Both add the slide to words in memory. The main image looks at the type and fails for a
segment that it does not have; a dylib does neither. Where this does not show, both end with the same memory.
-/

namespace Macify.Fixups
open Lib Image

inductive RebaseOpcode where
  | done
  | setTypeImm
  | setSegmentRelativeOffsetUleb
  | addAddrUleb
  | addAddrImmScaled
  | doRebaseImmTimes
  | doRebaseUlebTimes
  | doRebaseAddAddrUleb
  | doRebaseUlebTimesSkippingUleb
  deriving DecidableEq

def RebaseOpcode.ofByte (b : UInt8) : Option RebaseOpcode :=
  match (b &&& 0xF0).toNat with
  | 0x00 => some .done
  | 0x10 => some .setTypeImm
  | 0x20 => some .setSegmentRelativeOffsetUleb
  | 0x30 => some .addAddrUleb
  | 0x40 => some .addAddrImmScaled
  | 0x50 => some .doRebaseImmTimes
  | 0x60 => some .doRebaseUlebTimes
  | 0x70 => some .doRebaseAddAddrUleb
  | 0x80 => some .doRebaseUlebTimesSkippingUleb
  | _ => none

def REBASE_TYPE_POINTER : ℕ := 1

def slideWord (mem : Mem) (target slide : W64) : Mem :=
  mem.write64 target (mem.read64 target + slide)

structure RebaseEnv where
  segs : List LoadedSegment
  slide : W64

structure Rebase where
  type : ℕ
  segmentSet : Bool
  deriving DecidableEq

structure RebaseState where
  type : ℕ
  segOffset : W64
  segIndex : ℕ
  mem : Mem
  segmentSet : Bool
  rebases : List Rebase

def RebaseState.start (mem : Mem) : RebaseState := ⟨0, 0, 0, mem, false, []⟩

def RebaseState.advance (st : RebaseState) (n : W64) : RebaseState :=
  { st with segOffset := st.segOffset + n }

def doOneRebase (slide vmaddr : W64) (st : RebaseState) : RebaseState :=
  { st with
    mem :=
      if st.type = REBASE_TYPE_POINTER then slideWord st.mem (vmaddr + st.segOffset) slide else st.mem
    segOffset := st.segOffset + 8
    rebases := st.rebases ++ [⟨st.type, st.segmentSet⟩] }

def doRebases (env : RebaseEnv) (skip : W64) : ℕ → RebaseState → Bool × RebaseState
  | 0, st => (true, st)
  | n + 1, st =>
    match env.segs[st.segIndex]? with
    | none => (false, st)
    | some seg => doRebases env skip n ((doOneRebase env.slide seg.vmaddr st).advance skip)

def rebaseRun (env : RebaseEnv) (skip : W64) (count : ℕ) (rest : Buf) (st : RebaseState) : Step RebaseState :=
  match doRebases env skip count st with
  | (true, st) => .more rest st
  | (false, st) => .stop false st

def rebaseStep (env : RebaseEnv) (st : RebaseState) (b : UInt8) (rest : Buf) : Step RebaseState :=
  let imm := immOf b
  match RebaseOpcode.ofByte b with
  | none => .stop false st
  | some .done => .stop true st
  | some .setTypeImm => .more rest { st with type := imm }
  | some .setSegmentRelativeOffsetUleb =>
    let (v, rest) := readUleb128 rest
    .more rest { st with segIndex := imm, segOffset := v, segmentSet := true }
  | some .addAddrUleb =>
    let (v, rest) := readUleb128 rest
    .more rest (st.advance v)
  | some .addAddrImmScaled => .more rest (st.advance (BitVec.ofNat 64 (imm * 8)))
  | some .doRebaseImmTimes => rebaseRun env 0 imm rest st
  | some .doRebaseUlebTimes =>
    let (count, rest) := readUleb128 rest
    rebaseRun env 0 count.toNat rest st
  | some .doRebaseAddAddrUleb =>
    let (v, rest) := readUleb128 rest
    rebaseRun env v 1 rest st
  | some .doRebaseUlebTimesSkippingUleb =>
    let (count, rest) := readUleb128 rest
    let (skip, rest) := readUleb128 rest
    rebaseRun env skip count.toNat rest st

def executeRebases (env : RebaseEnv) (file : Buf) (off size : W32) (mem : Mem) : Bool × RebaseState :=
  match checkRange .rebase file.length off size with
  | .skip => (true, .start mem)
  | .reject => (false, .start mem)
  | .pass off size => interpret (rebaseStep env) (sliceOf file off size) (.start mem)

structure DylibRebaseEnv where
  segs : List DylibSegment
  slide : W64

/-- The state. A segment index of `-1` is `none`. The type is read but not used. -/
structure DylibRebaseState where
  segIndex : Option ℕ
  segOffset : W64
  mem : Mem

def DylibRebaseState.start (mem : Mem) : DylibRebaseState := ⟨none, 0, mem⟩

def DylibRebaseState.advance (d : DylibRebaseState) (n : W64) : DylibRebaseState :=
  { d with segOffset := d.segOffset + n }

def dylibRebaseOne (env : DylibRebaseEnv) (d : DylibRebaseState) : DylibRebaseState :=
  match d.segIndex.bind fun k => dylibSlotAddr env.segs env.slide k d.segOffset with
  | none => d
  | some target => { d with mem := slideWord d.mem target env.slide }

def dylibRebases (env : DylibRebaseEnv) (skip : W64) : ℕ → DylibRebaseState → DylibRebaseState
  | 0, d => d
  | n + 1, d => dylibRebases env skip n ((dylibRebaseOne env d).advance (8 + skip))

def dylibRebaseStep (env : DylibRebaseEnv) (d : DylibRebaseState) (b : UInt8) (rest : Buf) : Step DylibRebaseState :=
  let imm := immOf b
  match RebaseOpcode.ofByte b with
  | none => .stop false d
  | some .done => .stop true d
  | some .setTypeImm => .more rest d
  | some .setSegmentRelativeOffsetUleb =>
    let (v, rest) := readUleb128 rest
    .more rest { d with segIndex := some imm, segOffset := v }
  | some .addAddrUleb =>
    let (v, rest) := readUleb128 rest
    .more rest (d.advance v)
  | some .addAddrImmScaled => .more rest (d.advance (BitVec.ofNat 64 (imm * 8)))
  | some .doRebaseImmTimes => .more rest (dylibRebases env 0 imm d)
  | some .doRebaseUlebTimes =>
    let (count, rest) := readUleb128 rest
    .more rest (dylibRebases env 0 count.toNat d)
  | some .doRebaseAddAddrUleb =>
    let (v, rest) := readUleb128 rest
    .more rest (dylibRebases env v 1 d)
  | some .doRebaseUlebTimesSkippingUleb =>
    let (count, rest) := readUleb128 rest
    let (skip, rest) := readUleb128 rest
    .more rest (dylibRebases env skip count.toNat d)

/-- `process_dylib_rebases` on the opcodes at `rebase_off`. There is no check against the file size. -/
def processDylibRebases (env : DylibRebaseEnv) (file : Buf) (off size : W32) (mem : Mem) : DylibRebaseState :=
  if off = 0 ∨ size = 0 then .start mem
  else (interpret (dylibRebaseStep env) (sliceOf file off.toNat size.toNat) (.start mem)).2

lemma rebaseStep_shrinks (env : RebaseEnv) : Shrinks (rebaseStep env) := by
  intro st b rest rest' st' taken
  have run : ∀ {skip count r}, rebaseRun env skip count r st = .more rest' st' → rest' = r := by
    intro skip count r ran
    unfold rebaseRun at ran
    split at ran
    · cases ran
      rfl
    · cases ran
  have two := (readUleb128_length (readUleb128 rest).2).trans (readUleb128_length rest)
  unfold rebaseStep at taken
  cases opcode : RebaseOpcode.ofByte b with
  | none =>
    rw [opcode] at taken
    cases taken
  | some op =>
    rw [opcode] at taken
    cases op with
    | done => cases taken
    | setTypeImm | addAddrImmScaled => cases taken; exact le_rfl
    | setSegmentRelativeOffsetUleb | addAddrUleb => cases taken; exact readUleb128_length rest
    | doRebaseImmTimes => exact (run taken) ▸ le_rfl
    | doRebaseUlebTimes | doRebaseAddAddrUleb => exact (run taken) ▸ readUleb128_length rest
    | doRebaseUlebTimesSkippingUleb => exact (run taken) ▸ two

structure SameRebaseImage (env : RebaseEnv) (denv : DylibRebaseEnv) : Prop where
  length : env.segs.length = denv.segs.length
  vmaddr : ∀ (k : ℕ) (e : LoadedSegment) (d : DylibSegment), env.segs[k]? = some e →
    denv.segs[k]? = some d → e.vmaddr = d.vmaddr + denv.slide
  slide : env.slide = denv.slide

def RebaseState.Plain (st : RebaseState) : Prop :=
  ∀ x ∈ st.rebases, x.type = REBASE_TYPE_POINTER ∧ x.segmentSet = true

structure RebasesAlike (st : RebaseState) (d : DylibRebaseState) : Prop where
  segOffset : st.segOffset = d.segOffset
  segIndex : st.segmentSet = true → d.segIndex = some st.segIndex
  mem : st.mem = d.mem

section Agreement

variable {env : RebaseEnv} {denv : DylibRebaseEnv} {st st' : RebaseState} {d : DylibRebaseState}

lemma doRebases_plain {skip count} (plain : (doRebases env skip count st).2.Plain) : st.Plain := by
  induction count generalizing st with
  | zero => exact plain
  | succ count ih =>
    rw [doRebases] at plain
    cases found : env.segs[st.segIndex]? with
    | none =>
      rw [found] at plain
      exact plain
    | some seg =>
      rw [found] at plain
      exact fun x mem => ih plain x (List.mem_append_left _ mem)

lemma rebaseStep_plain (st : RebaseState) (b : UInt8) (rest : Buf)
    (plain : (rebaseStep env st b rest).state.Plain) : st.Plain := by
  have run : ∀ {skip count rest}, (rebaseRun env skip count rest st).state.Plain → st.Plain := by
    intro skip count rest plain
    refine @doRebases_plain env st skip count ?_
    unfold rebaseRun at plain
    generalize doRebases env skip count st = r at plain ⊢
    obtain ⟨ok, st'⟩ := r
    cases ok with
    | true | false => exact plain
  unfold rebaseStep at plain
  cases opcode : RebaseOpcode.ofByte b with
  | none =>
    rw [opcode] at plain
    exact plain
  | some op =>
    rw [opcode] at plain
    cases op with
    | doRebaseImmTimes | doRebaseUlebTimes | doRebaseAddAddrUleb | doRebaseUlebTimesSkippingUleb =>
      exact run plain
    | _ => exact plain

lemma RebasesAlike.one (alike : RebasesAlike st d) (same : SameRebaseImage env denv) {seg skip}
    (pointer : st.type = REBASE_TYPE_POINTER) (set : st.segmentSet = true)
    (found : env.segs[st.segIndex]? = some seg) :
    RebasesAlike ((doOneRebase env.slide seg.vmaddr st).advance skip)
      ((dylibRebaseOne denv d).advance (8 + skip)) := by
  obtain ⟨lt, -⟩ := List.getElem?_eq_some_iff.mp found
  have found' := List.getElem?_eq_getElem (same.length ▸ lt)
  have target : (d.segIndex.bind fun k => dylibSlotAddr denv.segs denv.slide k d.segOffset) =
      some (seg.vmaddr + st.segOffset) := by
    rw [alike.segIndex set, Option.bind_some, dylibSlotAddr, found', same.vmaddr _ _ _ found found',
      ← alike.segOffset, Option.map_some, BitVec.add_assoc, BitVec.add_comm st.segOffset,
      ← BitVec.add_assoc]
  unfold doOneRebase dylibRebaseOne
  rw [target, if_pos pointer, same.slide, alike.mem]
  refine ⟨?_, alike.segIndex, rfl⟩
  show st.segOffset + 8 + skip = d.segOffset + (8 + skip)
  rw [alike.segOffset, BitVec.add_assoc]

lemma RebasesAlike.times (alike : RebasesAlike st d) (same : SameRebaseImage env denv) {skip count}
    (run : doRebases env skip count st = (true, st')) (plain : st'.Plain) :
    RebasesAlike st' (dylibRebases denv skip count d) := by
  induction count generalizing st d with
  | zero =>
    cases run
    exact alike
  | succ count ih =>
    rw [doRebases] at run
    cases found : env.segs[st.segIndex]? with
    | none =>
      rw [found] at run
      cases run
    | some seg =>
      rw [found] at run
      dsimp only at run
      -- the rebase that is executed here stays in the list to the end
      have here : ((doOneRebase env.slide seg.vmaddr st).advance skip).Plain := by
        refine @doRebases_plain env _ skip count ?_
        rw [run]
        exact plain
      obtain ⟨pointer, set⟩ := here ⟨st.type, st.segmentSet⟩
        (List.mem_append_right _ (List.mem_singleton_self _))
      exact ih (alike.one same pointer set found) run

lemma RebasesAlike.run (alike : RebasesAlike st d) (same : SameRebaseImage env denv) {skip count rest} :
    Matches RebaseState.Plain RebasesAlike (fun _ _ => False) (fun st r => st.mem = r.2.mem)
      (rebaseRun env skip count rest st) (.more rest (dylibRebases denv skip count d)) := by
  unfold rebaseRun
  cases ran : doRebases env skip count st with
  | mk ok st' =>
    cases ok with
    | false => exact .failed
    | true =>
      by_cases plain : st'.Plain
      · exact .both (alike.times same ran plain)
      · exact .lost plain

lemma RebasesAlike.step (alike : RebasesAlike st d) (same : SameRebaseImage env denv) (b : UInt8) (rest : Buf) :
    Matches RebaseState.Plain RebasesAlike (fun _ _ => False) (fun st r => st.mem = r.2.mem)
      (rebaseStep env st b rest) (dylibRebaseStep denv d b rest) := by
  unfold rebaseStep dylibRebaseStep
  cases RebaseOpcode.ofByte b with
  | none => exact .failed
  | some op =>
    cases op with
    | done => exact .done alike.mem
    | setTypeImm => exact .both { alike with }
    | setSegmentRelativeOffsetUleb => exact .both ⟨rfl, fun _ => rfl, alike.mem⟩
    | addAddrUleb | addAddrImmScaled =>
      exact .both { alike with segOffset := congrArg (· + _) alike.segOffset }
    | doRebaseImmTimes | doRebaseUlebTimes | doRebaseAddAddrUleb | doRebaseUlebTimesSkippingUleb =>
      exact alike.run same

lemma present {off size : W32} (nonempty : size ≠ 0) : FileObject.rebase.absent off size = false := by
  show (true && (size == 0 || false)) = false
  rw [beq_false_of_ne nonempty]
  rfl

/-- If the main image's interpreter accepts the opcodes, and all rebases are for pointers in a set segment. -/
theorem rebase_interpreters_agree (same : SameRebaseImage env denv) {file : Buf} {off size : W32}
    {mem : Mem} (offset : off ≠ 0) (nonempty : size ≠ 0)
    (ok : (executeRebases env file off size mem).1 = true)
    (plain : (executeRebases env file off size mem).2.Plain) :
    (processDylibRebases denv file off size mem).mem = (executeRebases env file off size mem).2.mem := by
  rw [processDylibRebases, if_neg (not_or.mpr ⟨offset, nonempty⟩)]
  unfold executeRebases at ok plain ⊢
  cases checked : checkRange .rebase file.length off size with
  | skip => exact absurd checked (checkRange_ne_skip (present nonempty))
  | reject =>
    rw [checked] at ok
    cases ok
  | pass a n =>
  obtain ⟨-, -, rfl, rfl⟩ := checkRange_pass_iff.mp checked
  rw [checked] at ok plain
  dsimp only at ok plain ⊢
  cases ran : interpret (rebaseStep env) (sliceOf file off.toNat size.toNat) (.start mem) with
  | mk ok' st =>
    rw [ran] at ok plain
    cases ok
    have init : RebasesAlike (.start mem) (.start mem) := ⟨rfl, nofun, rfl⟩
    have final := interpret_simulation RebaseState.Plain RebasesAlike (fun _ _ => False)
      (fun st r => st.mem = r.2.mem) (fun _ _ b rest alike => alike.step same b rest)
      (fun st b rest => rebaseStep_plain st b rest) (fun _ _ _ _ => id) (fun _ _ alike => alike.mem)
      (fun _ _ _ => False.elim) init ran plain
    exact final.symm

end Agreement

def rebaseFile : Buf := [0xFF, 0x11, 0x20, 0x08, 0x52, 0x00]

def rebaseImage : RebaseEnv := ⟨[⟨0x10000, 0x1000, 3, 3, ascii "__DATA", false⟩], 0x4000⟩

def rebaseDylib : DylibRebaseEnv := ⟨[⟨0xC000, 0x1000, 0, 0⟩], 0x4000⟩

theorem rebase_interpreters_agree_two :
    (executeRebases rebaseImage rebaseFile 1 5 (fun _ => 0)).2.mem.read64 0x10010 = 0x4000 ∧
      (processDylibRebases rebaseDylib rebaseFile 1 5 (fun _ => 0)).mem =
        (executeRebases rebaseImage rebaseFile 1 5 (fun _ => 0)).2.mem := by
  have same : SameRebaseImage rebaseImage rebaseDylib := by
    refine ⟨rfl, fun k e d at_e at_d => ?_, rfl⟩
    cases k with
    | zero =>
      cases at_e
      cases at_d
      rfl
    | succ k => cases at_e
  exact ⟨by decide +kernel, rebase_interpreters_agree same (by decide) (by decide) (by decide +kernel)
    (by unfold RebaseState.Plain; decide +kernel)⟩

end Macify.Fixups
