import Macify.Fixups.ChainedFixups

/-!
# Chained fixups against Apple's format

Every entry that `execute_chained_fixups` reaches is replaced by a word that depends on the entry, the symbol
found and the load base only. The word of a bind entry is that of Apple's `fixup-chains.h`. The word of a rebase
entry has `high8` at bit 43 instead of 56, and is moved by the load base where the header may ask for the slide.
-/

namespace Macify.Fixups
open Lib Image

section Visits

variable {format : BitVec 16} {entry : W64 → Replacement} {P : Visit → Prop}
  {st : ChainState} {blob : Buf} {s : ℕ} {base vmsize : W64}

lemma fix_visits (new : ∀ ptr mem, P ⟨format, ptr, mem, replace mem ptr (entry (mem.read64 ptr)).word⟩)
    (old : ∀ v ∈ st.visits, P v) (ptr : W64) : ∀ v ∈ (st.fix format entry ptr).visits, P v := by
  intro v mem
  cases List.mem_append.mp mem with
  | inl mem => exact old v mem
  | inr mem =>
    cases List.mem_singleton.mp mem
    exact new ptr st.mem

lemma walkChain_visits (new : ∀ ptr mem, P ⟨format, ptr, mem, replace mem ptr (entry (mem.read64 ptr)).word⟩)
    (old : ∀ v ∈ st.visits, P v) {last n ptr} :
    ∀ v ∈ (walkChain format entry last n ptr st).visits, P v := by
  induction n generalizing ptr st with
  | zero => exact old
  | succ n ih =>
    have next := fix_visits new old ptr
    rw [walkChain, chainStep]
    cases nextEntry last ptr (st.mem.read64 ptr) with
    | none => exact next
    | some ptr => exact ih next

lemma walkPages_visits (new : ∀ ptr mem,
      P ⟨ptrFormat blob s, ptr, mem, replace mem ptr (entry (mem.read64 ptr)).word⟩)
    (old : ∀ v ∈ st.visits, P v) : ∀ v ∈ (walkPages entry blob s base vmsize st).visits, P v := by
  unfold walkPages
  generalize List.range (pageCount blob s) = pages
  induction pages generalizing st with
  | nil => exact old
  | cons p pages ih =>
    refine ih ?_
    unfold walkPage
    split
    · exact old
    dsimp only
    split
    · exact old
    · exact walkChain_visits new old

structure Reached (env : BindEnv) (blob : Buf) (v : Visit) : Prop where
  format : v.format = DYLD_CHAINED_PTR_64 ∨ v.format = DYLD_CHAINED_PTR_64_OFFSET
  after : v.after = replace v.before v.ptr (chainEntry env blob (v.before.read64 v.ptr)).word

lemma chainSegments_reached {env segs} (old : ∀ v ∈ st.visits, Reached env blob v) :
    ∀ v ∈ (chainSegments env blob segs st).2.visits, Reached env blob v := by
  induction segs generalizing st with
  | nil => exact old
  | cons seg segs ih =>
    obtain ⟨seg, k⟩ := seg
    rw [chainSegments]
    split
    · exact ih old
    dsimp only
    split
    · exact old
    · next supported =>
      refine ih (walkPages_visits (fun ptr mem => ⟨?_, rfl⟩) old)
      exact or_iff_not_imp_left.mpr fun ne => not_not.mp (not_and.mp supported ne)

lemma executeChainedFixups_reached {env mem v}
    (mem_visits : v ∈ (executeChainedFixups env blob mem).2.visits) : Reached env blob v := by
  have none : ∀ v ∈ (ChainState.start mem).visits, Reached env blob v :=
    fun v mem => absurd mem List.not_mem_nil
  unfold executeChainedFixups at mem_visits
  split at mem_visits
  · exact none v mem_visits
  · exact chainSegments_reached none v mem_visits

end Visits

/-- `high8` is put in the top byte before the load base is added, or else after the slide was. -/
def appleRebase (format : BitVec 16) (base slide value : W64) : W64 :=
  let target := value.extractLsb' 0 36
  let high8 := value.extractLsb' 36 8
  if format = DYLD_CHAINED_PTR_64_OFFSET then (high8 ++ target.setWidth 56 : W64) + base
  else (high8 ++ (target.setWidth 64 + slide).setWidth 56 : W64)

/-- A rebase entry becomes `appleRebase`, a bind entry, if its symbol resolves, the address plus the addend
    in bits 24 to 31. -/
def FollowsApple (env : BindEnv) (blob : Buf) (slide : W64) (v : Visit) : Prop :=
  let value := v.before.read64 v.ptr
  let i := (value.extractLsb' 0 24).toNat
  if value.msb then
    i < importsCount blob → resolveImport env blob i ≠ 0 →
      v.after.read64 v.ptr = resolveImport env blob i + (value.extractLsb' 24 8).setWidth 64
  else v.after.read64 v.ptr = appleRebase v.format (loadBase env.segs) slide value

def RebaseFollows (format : BitVec 16) (base slide value : W64) : Prop :=
  let target := value.extractLsb' 0 36
  let high8 := value.extractLsb' 36 8
  if format = DYLD_CHAINED_PTR_64_OFFSET then high8 = 0
  else
    let top := (target.setWidth 64 + slide).extractLsb' 56 8
    base - slide = (high8 - top).setWidth 64 <<< 56 - high8.setWidth 64 <<< 43

lemma rebaseHigh8_eq (value : W64) :
    rebaseHigh8 value = (value.extractLsb' 36 8).setWidth 64 := field_eq 36 8 (by decide)

lemma rebaseTarget_eq (value : W64) :
    rebaseTarget value = (value.extractLsb' 0 36).setWidth 64 := mask_eq 36 (by decide)

lemma bindOrdinal_eq (value : W64) : bindOrdinal value = (value.extractLsb' 0 24).toNat :=
  (congrArg BitVec.toNat (mask_eq 24 (by decide))).trans (BitVec.toNat_setWidth_of_le (by decide))

lemma bindAddend_eq (value : W64) :
    bindAddend value = (value.extractLsb' 24 8).setWidth 64 := field_eq 24 8 (by decide)

lemma toNat_rebase (value : W64) :
    (rebaseHigh8 value <<< 43 ||| rebaseTarget value).toNat =
      (value.extractLsb' 36 8).toNat * 2 ^ 43 + (value.extractLsb' 0 36).toNat := by
  have high : (rebaseHigh8 value).toNat = (value.extractLsb' 36 8).toNat := by
    rw [rebaseHigh8_eq, BitVec.toNat_setWidth_of_le (by decide)]
  have target : (rebaseTarget value).toNat = (value.extractLsb' 0 36).toNat := by
    rw [rebaseTarget_eq, BitVec.toNat_setWidth_of_le (by decide)]
  have high_lt := (value.extractLsb' 36 8).isLt
  have target_lt := (value.extractLsb' 0 36).isLt
  rw [toNat_shl_or (by omega) (by omega), high, target]

lemma rebase_or (value : W64) :
    rebaseHigh8 value <<< 43 ||| rebaseTarget value =
      (value.extractLsb' 36 8).setWidth 64 <<< 43 + (value.extractLsb' 0 36).setWidth 64 := by
  have high_lt := (value.extractLsb' 36 8).isLt
  have target_lt := (value.extractLsb' 0 36).isLt
  apply BitVec.eq_of_toNat_eq
  rw [toNat_rebase, BitVec.toNat_add, BitVec.toNat_shiftLeft, Nat.shiftLeft_eq,
    BitVec.toNat_setWidth_of_le (by decide), BitVec.toNat_setWidth_of_le (by decide)]
  omega

lemma append_setWidth (h : BitVec 8) (x : W64) :
    (h ++ x.setWidth 56 : W64) = x + (h - x.extractLsb' 56 8).setWidth 64 <<< 56 := by
  apply BitVec.eq_of_toNat_eq
  rw [BitVec.toNat_append, ← Nat.shiftLeft_add_eq_or_of_lt (BitVec.isLt _), BitVec.toNat_add,
    BitVec.toNat_shiftLeft, BitVec.toNat_setWidth, BitVec.toNat_setWidth, BitVec.toNat_sub,
    BitVec.extractLsb'_toNat, Nat.shiftRight_eq_div_pow, Nat.shiftLeft_eq, Nat.shiftLeft_eq]
  omega

lemma rebase_offset_iff {base slide value : W64} :
    (rebaseHigh8 value <<< 43 ||| rebaseTarget value) + base =
        appleRebase DYLD_CHAINED_PTR_64_OFFSET base slide value ↔
      RebaseFollows DYLD_CHAINED_PTR_64_OFFSET base slide value := by
  have high_lt := (value.extractLsb' 36 8).isLt
  have target_lt := (value.extractLsb' 0 36).isLt
  have zero : value.extractLsb' 36 8 = 0 ↔ (value.extractLsb' 36 8).toNat = 0 := by
    rw [← BitVec.toNat_inj]
    rfl
  rw [RebaseFollows, if_pos rfl, appleRebase, if_pos rfl, BitVec.add_left_inj, zero,
    ← BitVec.toNat_inj, toNat_rebase, BitVec.toNat_append,
    ← Nat.shiftLeft_add_eq_or_of_lt (BitVec.isLt _), Nat.shiftLeft_eq,
    BitVec.toNat_setWidth_of_le (by decide)]
  omega

lemma rebase_vmaddr_iff {base slide value : W64} :
    (rebaseHigh8 value <<< 43 ||| rebaseTarget value) + base =
        appleRebase DYLD_CHAINED_PTR_64 base slide value ↔
      RebaseFollows DYLD_CHAINED_PTR_64 base slide value := by
  have other : DYLD_CHAINED_PTR_64 ≠ DYLD_CHAINED_PTR_64_OFFSET := by decide
  rw [RebaseFollows, if_neg other, appleRebase, if_neg other, append_setWidth, rebase_or]
  dsimp only
  generalize (value.extractLsb' 36 8 -
    ((value.extractLsb' 0 36).setWidth 64 + slide).extractLsb' 56 8).setWidth 64 <<< 56 = top
  generalize (value.extractLsb' 36 8).setWidth 64 <<< 43 = high
  generalize (value.extractLsb' 0 36).setWidth 64 = target
  grind

section Words

variable {env : BindEnv} {blob : Buf} {mem : Mem} {slide : W64} {v : Visit}

lemma read64_replace {ptr w} : (replace mem ptr (some w)).read64 ptr = w := Mem.read64_write64_self

/-- Every entry is replaced as Apple's format says exactly when it is a bind entry, has no `high8` in the offset
    format, or in the other has a static address that makes up for the load base. -/
theorem chained_fixups_follow_iff (reached : v ∈ (executeChainedFixups env blob mem).2.visits) :
    FollowsApple env blob slide v ↔
      ((v.before.read64 v.ptr).msb = false →
        RebaseFollows v.format (loadBase env.segs) slide (v.before.read64 v.ptr)) := by
  obtain ⟨format, after⟩ := executeChainedFixups_reached reached
  unfold FollowsApple
  dsimp only
  generalize v.before.read64 v.ptr = value at after ⊢
  rw [after]
  cases kind : value.msb with
  | true =>
    rw [if_pos rfl]
    refine iff_of_true ?_ nofun
    intro inRange found
    rw [← bindOrdinal_eq] at inRange found ⊢
    rw [chainEntry, if_pos kind, if_neg (Nat.not_le.mpr inRange)]
    dsimp only
    rw [if_neg found, read64_replace, bindAddend_eq]
  | false =>
    rw [chainEntry, kind, if_neg Bool.false_ne_true, if_neg Bool.false_ne_true, read64_replace, imp_iff_right rfl]
    cases format with
    | inl vmaddr => rw [vmaddr, rebase_vmaddr_iff]
    | inr offset => rw [offset, rebase_offset_iff]

end Words

def oneSegment : BindEnv :=
  ⟨[⟨0x10000, 0x1000, 3, 3, ascii "__DATA", false⟩], 1,
    fun _ name => if name = ascii "f" then 0x5000 else 0, 0x2000⟩

def chainBlob (format raw : ℕ) (name : Buf) : Buf :=
  Mem.leBytes 4 0 ++ Mem.leBytes 4 28 ++ Mem.leBytes 4 60 ++ Mem.leBytes 4 64 ++ Mem.leBytes 4 1 ++
    Mem.leBytes 4 1 ++ Mem.leBytes 4 0 ++
  (Mem.leBytes 4 1 ++ Mem.leBytes 4 8) ++
  (Mem.leBytes 4 24 ++ Mem.leBytes 2 0x1000 ++ Mem.leBytes 2 format ++ Mem.leBytes 8 0 ++
    Mem.leBytes 4 0 ++ Mem.leBytes 2 1 ++ Mem.leBytes 2 0) ++
  Mem.leBytes 4 raw ++ [0] ++ name ++ [0]

def oneChain (format : ℕ) : Buf := chainBlob format 0x201 (ascii "_f")

def oneEntry (value : W64) : Mem := Mem.write64 (fun _ => 0) 0x10000 value

def oneVisit (format : ℕ) (value : W64) : Visit :=
  ⟨BitVec.ofNat 16 format, 0x10000, oneEntry value,
    replace (oneEntry value) 0x10000 (chainEntry oneSegment (oneChain format) value).word⟩

theorem chained_fixups_follow_iff_offset :
    oneVisit 6 0x100 ∈ (executeChainedFixups oneSegment (oneChain 6) (oneEntry 0x100)).2.visits ∧
      FollowsApple oneSegment (oneChain 6) 0 (oneVisit 6 0x100) :=
  have reached : oneVisit 6 0x100 ∈
      (executeChainedFixups oneSegment (oneChain 6) (oneEntry 0x100)).2.visits :=
    List.mem_singleton_self _
  ⟨reached, (chained_fixups_follow_iff reached).mpr fun _ => by unfold RebaseFollows; decide +kernel⟩

/-- Bit 43 is set in place of bit 56, and the load base is added to an address of an image without a slide. -/
theorem chained_fixups_not_apple :
    (oneVisit 6 0x1000000100 ∈
        (executeChainedFixups oneSegment (oneChain 6) (oneEntry 0x1000000100)).2.visits ∧
      (oneVisit 6 0x1000000100).after.read64 0x10000 = 0x80000010100 ∧
      ¬ FollowsApple oneSegment (oneChain 6) 0 (oneVisit 6 0x1000000100)) ∧
    oneVisit 2 0x10100 ∈
        (executeChainedFixups oneSegment (oneChain 2) (oneEntry 0x10100)).2.visits ∧
      (oneVisit 2 0x10100).after.read64 0x10000 = 0x20100 ∧
      ¬ FollowsApple oneSegment (oneChain 2) 0 (oneVisit 2 0x10100) := by
  unfold FollowsApple
  refine ⟨⟨List.mem_singleton_self _, ?_, ?_⟩, List.mem_singleton_self _, ?_, ?_⟩ <;> decide +kernel

end Macify.Fixups
