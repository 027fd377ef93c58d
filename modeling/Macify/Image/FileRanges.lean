import Macify.Lib.Fields
import Macify.Image.Segments

/-!
# Ranges of the file

The loader reads eight kinds of objects at an offset and a size that the file itself gives (`src/fixups.c`,
`src/macho_dylib.c`, `src/segments.c` and `src/main.c`). Before it does, it compares the sum of the two with the size
of the file. The sum has the width of the two fields, and is the true one unless it wraps around.
-/

namespace Macify.Image
open Lib

inductive FileObject where
  | bind
  | lazyBind
  | rebase
  | chainedFixups
  | dylibBind
  | dylibChainedFixups
  | segment
  | fatSlice
  deriving DecidableEq

namespace FileObject

abbrev width : FileObject → ℕ
  | segment => 64
  | _ => 32

def ofDylib : FileObject → Bool
  | dylibBind | dylibChainedFixups => true
  | _ => false

def absent (o : FileObject) (off size : BitVec o.width) : Bool :=
  o != fatSlice && (size == 0 || (o.ofDylib && off == 0))

end FileObject

inductive RangeCheck where
  | skip
  | reject
  | pass (off size : ℕ)
  deriving DecidableEq

def checkRange (o : FileObject) (fileSize : ℕ) (off size : BitVec o.width) : RangeCheck :=
  if o.absent off size then .skip
  else if fileSize < (off + size).toNat then .reject
  else .pass off.toNat size.toNat

def sliceOf (file : Buf) (off size : ℕ) : Buf := (file.drop off).take size

def be32 (b : Buf) (k : ℕ) : W32 :=
  BitVec.ofNat 32 (Mem.ofLe ((List.range 4).map fun i => byte b (k + (3 - i))))

structure Slice where
  base : ℕ
  size : ℕ
  deriving DecidableEq

def archCputype (file : Buf) (base i : ℕ) : W32 := be32 file (base + 8 + i * 20)
def archOffset (file : Buf) (base i : ℕ) : W32 := be32 file (base + 8 + i * 20 + 8)
def archSize (file : Buf) (base i : ℕ) : W32 := be32 file (base + 8 + i * 20 + 12)

abbrev FAT_MAGIC : W32 := 0xCAFEBABE
abbrev CPU_TYPE_X86_64 : W32 := 0x01000007

def fatLoop (file : Buf) : ℕ → ℕ → Slice → Option Slice
  | 0, _, s => some s
  | n + 1, i, s =>
    if archCputype file s.base i = CPU_TYPE_X86_64 then
      match checkRange .fatSlice s.size (archOffset file s.base i) (archSize file s.base i) with
      | .pass off size => fatLoop file n (i + 1) ⟨s.base + off, size⟩
      | _ => none
    else fatLoop file n (i + 1) s

def machoSlice (file : Buf) : Option Slice :=
  if file.length < 4 then none
  else if be32 file 0 = FAT_MAGIC then
    if file.length < 8 then none else fatLoop file (min (be32 file 4).toNat 16) 0 ⟨0, file.length⟩
  else some ⟨0, file.length⟩

/-- The true end of the object lies past the end of the file, and the sum wraps around to a number that does not. -/
def WrapsIntoFile (o : FileObject) (fileSize : ℕ) (off size : BitVec o.width) : Prop :=
  fileSize < off.toNat + size.toNat ∧ 2 ^ o.width ≤ off.toNat + size.toNat ∧
    off.toNat + size.toNat - 2 ^ o.width ≤ fileSize

section Ranges

variable {o : FileObject} {fileSize : ℕ} {off size : BitVec o.width}

lemma checkRange_pass_iff {a n : ℕ} : checkRange o fileSize off size = .pass a n ↔
    o.absent off size = false ∧ (off + size).toNat ≤ fileSize ∧ off.toNat = a ∧ size.toNat = n := by
  unfold checkRange
  split
  · next absent => exact iff_of_false nofun fun h => absurd (h.1.symm.trans absent) Bool.false_ne_true
  next present =>
  rw [Bool.not_eq_true] at present
  split
  · next past => exact iff_of_false nofun fun h => absurd h.2.1 (Nat.not_le.mpr past)
  next fits =>
  rw [RangeCheck.pass.injEq, and_iff_right present, and_iff_right (Nat.not_lt.mp fits)]

lemma checkRange_ne_skip (present : o.absent off size = false) : checkRange o fileSize off size ≠ .skip := by
  rw [checkRange, present, if_neg Bool.false_ne_true]
  split
  · exact nofun
  · exact nofun

lemma toNat_sum : (off + size).toNat = off.toNat + size.toNat ∨ (2 ^ o.width ≤ off.toNat + size.toNat ∧
      (off + size).toNat = off.toNat + size.toNat - 2 ^ o.width) := by
  have off_lt := off.isLt
  have size_lt := size.isLt
  rw [BitVec.toNat_add]
  by_cases wraps : 2 ^ o.width ≤ off.toNat + size.toNat
  · rw [Nat.mod_eq_sub_mod wraps, Nat.mod_eq_of_lt (by omega)]
    exact .inr ⟨wraps, rfl⟩
  · exact .inl (Nat.mod_eq_of_lt (by omega))

lemma checkRange_inside {a n : ℕ} (noWrap : ¬ WrapsIntoFile o fileSize off size)
    (passed : checkRange o fileSize off size = .pass a n) : a + n ≤ fileSize := by
  obtain ⟨-, le, rfl, rfl⟩ := checkRange_pass_iff.mp passed
  have sum := @toNat_sum o off size
  unfold WrapsIntoFile at noWrap
  omega

/-- An object that passes the test lies in the file, unless the sum wraps around. -/
theorem range_check_sound_iff (o : FileObject) (fileSize : ℕ) (off size : BitVec o.width) :
    (∀ a n, checkRange o fileSize off size = .pass a n → a + n ≤ fileSize) ↔
      (o.absent off size = false → ¬ WrapsIntoFile o fileSize off size) := by
  constructor
  · rintro sound present ⟨past, wraps, le⟩
    have sum := @toNat_sum o off size
    have inside := sound _ _ (checkRange_pass_iff.mpr ⟨present, by omega, rfl, rfl⟩)
    omega
  · intro noWrap a n passed
    exact checkRange_inside (noWrap (checkRange_pass_iff.mp passed).1) passed

end Ranges

/-- Eight bytes at offset `0xFFFFFFF8` of a file of 100 bytes, and for a segment at the top of the range of 64 bits. -/
theorem range_checks_unsound :
    checkRange .bind 100 0xFFFFFFF8 8 = .pass 0xFFFFFFF8 8 ∧
      checkRange .lazyBind 100 0xFFFFFFF8 8 = .pass 0xFFFFFFF8 8 ∧
      checkRange .rebase 100 0xFFFFFFF8 8 = .pass 0xFFFFFFF8 8 ∧
      checkRange .chainedFixups 100 0xFFFFFFF8 8 = .pass 0xFFFFFFF8 8 ∧
      checkRange .dylibBind 100 0xFFFFFFF8 8 = .pass 0xFFFFFFF8 8 ∧
      checkRange .dylibChainedFixups 100 0xFFFFFFF8 8 = .pass 0xFFFFFFF8 8 ∧
      checkRange .fatSlice 100 0xFFFFFFF8 8 = .pass 0xFFFFFFF8 8 ∧
      checkRange .segment 100 0xFFFFFFFFFFFFFFF8 8 = .pass 0xFFFFFFFFFFFFFFF8 8 := by
  decide

lemma mapSegment_checked {env : MapEnv} {t t' : Tables} {seg : SegmentCommand}
    (mapped : mapSegment env t seg = some t') (size : seg.vmsize ≠ 0) (other : seg.isPagezero = false)
    (contents : seg.filesize ≠ 0) :
    checkRange .segment env.fileSize.toNat seg.fileoff seg.filesize =
      .pass seg.fileoff.toNat seg.filesize.toNat := by
  have present : FileObject.segment.absent seg.fileoff seg.filesize = false := by
    show (true && (seg.filesize == 0 || false)) = false
    rw [beq_false_of_ne contents]
    rfl
  refine checkRange_pass_iff.mpr ⟨present, ?_, rfl, rfl⟩
  unfold mapSegment at mapped
  split at mapped
  · cases mapped
  rw [other, if_neg Bool.false_ne_true] at mapped
  split at mapped
  · cases mapped
  split at mapped
  · cases mapped
  next fits =>
  exact BitVec.le_def.mp (BitVec.not_lt.mp fun past => fits ⟨by bv_omega, past⟩)

end Macify.Image
