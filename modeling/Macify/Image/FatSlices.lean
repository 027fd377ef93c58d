import Macify.Image.FileRanges

/-!
# The slice of a fat file

`main` goes over the architecture records of a fat file and moves `file_data` to the slice for x86-64.
It does not leave the loop there: the records that follow are read at the new `file_data`, so they are
bytes of the slice. `fat_slice_iff` says which bytes do no harm.
-/

namespace Macify.Image
open Lib

def nfat (file : Buf) : ℕ := (be32 file 4).toNat

def machoSliceIn (file after : Buf) : Option Slice :=
  if file.length < 4 then none
  else if be32 (file ++ after) 0 = FAT_MAGIC then
    if file.length < 8 then none
    else fatLoop (file ++ after) (min (nfat (file ++ after)) 16) 0 ⟨0, file.length⟩
  else some ⟨0, file.length⟩

/-- Without bytes after the file this is `machoSlice`. -/
lemma machoSliceIn_nil {file : Buf} : machoSliceIn file [] = machoSlice file := by
  rw [machoSliceIn, List.append_nil]
  rfl

/-- A fat file with at most 16 records. Record `k` alone is for x86-64, and its slice lies in the file. -/
structure Universal (file : Buf) (k : ℕ) : Prop where
  magic : be32 file 0 = FAT_MAGIC
  few : nfat file ≤ 16
  records : 8 + 20 * nfat file ≤ file.length
  listed : k < nfat file
  x86 : archCputype file 0 k = CPU_TYPE_X86_64
  alone : ∀ j < nfat file, archCputype file 0 j = CPU_TYPE_X86_64 → j = k
  inside : (archOffset file 0 k).toNat + (archSize file 0 k).toNat ≤ file.length

def Universal.slice (file : Buf) (k : ℕ) : Slice :=
  ⟨(archOffset file 0 k).toNat, (archSize file 0 k).toNat⟩

/-- A record that is read at a slice leaves the slice as it is. -/
def Harmless (img : Buf) (s : Slice) (j : ℕ) : Prop :=
  archCputype img s.base j = CPU_TYPE_X86_64 →
    archOffset img s.base j = 0 ∧ (archSize img s.base j).toNat = s.size

section Loop

variable {img : Buf} {n i : ℕ} {s s' : Slice}

lemma fatLoop_succ_some (found : fatLoop img (n + 1) i s = some s') :
    archCputype img s.base i ≠ CPU_TYPE_X86_64 ∧ fatLoop img n (i + 1) s = some s' ∨
      archCputype img s.base i = CPU_TYPE_X86_64 ∧
        (archOffset img s.base i + archSize img s.base i).toNat ≤ s.size ∧
        fatLoop img n (i + 1)
          ⟨s.base + (archOffset img s.base i).toNat, (archSize img s.base i).toNat⟩ = some s' := by
  rw [fatLoop] at found
  split at found
  · next x86 =>
    split at found
    · next off size passed =>
      obtain ⟨-, le, rfl, rfl⟩ := checkRange_pass_iff.mp passed
      exact .inr ⟨x86, le, found⟩
    · cases found
  · next other => exact .inl ⟨other, found⟩

lemma fatLoop_x86 (x86 : archCputype img s.base i = CPU_TYPE_X86_64)
    (fits : (archOffset img s.base i + archSize img s.base i).toNat ≤ s.size) :
    fatLoop img (n + 1) i s = fatLoop img n (i + 1)
      ⟨s.base + (archOffset img s.base i).toNat, (archSize img s.base i).toNat⟩ := by
  have passed : checkRange .fatSlice s.size (archOffset img s.base i) (archSize img s.base i) =
      .pass (archOffset img s.base i).toNat (archSize img s.base i).toNat :=
    checkRange_pass_iff.mpr ⟨rfl, fits, rfl, rfl⟩
  rw [fatLoop, if_pos x86, passed]

lemma fits_of_zero {off size : W32} {len : ℕ} (zero : off.toNat = 0)
    (fits : (off + size).toNat ≤ len) : off = 0 ∧ size.toNat ≤ len := by
  rw [BitVec.toNat_add, zero, Nat.zero_add, Nat.mod_eq_of_lt size.isLt] at fits
  exact ⟨BitVec.eq_of_toNat_eq zero, fits⟩

lemma fatLoop_shrinks (found : fatLoop img n i s = some s') :
    s.base ≤ s'.base ∧ (s'.base = s.base → s'.size ≤ s.size) := by
  induction n generalizing i s with
  | zero =>
    cases found
    exact ⟨le_rfl, fun _ => le_rfl⟩
  | succ n ih =>
    rcases fatLoop_succ_some found with ⟨-, rest⟩ | ⟨-, fits, rest⟩
    · exact ih rest
    · obtain ⟨base, size⟩ := ih rest
      dsimp only at base size
      refine ⟨by omega, fun same => ?_⟩
      have shorter := (fits_of_zero (by omega) fits).2
      exact (size (by omega)).trans shorter

lemma fatLoop_same_iff : fatLoop img n i s = some s ↔ ∀ j, i ≤ j → j < i + n → Harmless img s j := by
  induction n generalizing i with
  | zero => exact iff_of_true rfl fun j ge lt => by omega
  | succ n ih =>
    have later : (∀ j, i ≤ j → j < i + (n + 1) → Harmless img s j) ↔
        Harmless img s i ∧ ∀ j, i + 1 ≤ j → j < i + 1 + n → Harmless img s j := by
      constructor
      · exact fun all => ⟨all i le_rfl (by omega), fun j ge lt => all j (by omega) (by omega)⟩
      · rintro ⟨here, rest⟩ j ge lt
        rcases Nat.eq_or_lt_of_le ge with rfl | gt
        · exact here
        · exact rest j gt (by omega)
    rw [later, ← ih]
    constructor
    · intro found
      rcases fatLoop_succ_some found with ⟨other, rest⟩ | ⟨x86, fits, rest⟩
      · exact ⟨fun x86 => absurd x86 other, rest⟩
      · obtain ⟨base, size⟩ := fatLoop_shrinks rest
        dsimp only at base size
        obtain ⟨zero, shorter⟩ := fits_of_zero (by omega) fits
        have same : (archSize img s.base i).toNat = s.size := le_antisymm shorter (size (by omega))
        rw [same, zero] at rest
        exact ⟨fun _ => ⟨zero, same⟩, rest⟩
    · rintro ⟨here, rest⟩
      by_cases x86 : archCputype img s.base i = CPU_TYPE_X86_64
      · obtain ⟨zero, same⟩ := here x86
        have fits : (archOffset img s.base i + archSize img s.base i).toNat ≤ s.size := by
          rw [zero, BitVec.toNat_add, same]
          exact (Nat.mod_le _ _).trans (Nat.zero_add s.size).le
        rw [fatLoop_x86 x86 fits, zero, same]
        exact rest
      · rw [fatLoop, if_neg x86]
        exact rest

lemma fatLoop_skip {d : ℕ} (others : ∀ j, i ≤ j → j < i + d → archCputype img s.base j ≠ CPU_TYPE_X86_64) :
    fatLoop img (d + n) i s = fatLoop img n (i + d) s := by
  induction d generalizing i with
  | zero => rw [Nat.zero_add, Nat.add_zero]
  | succ d ih =>
    rw [Nat.add_right_comm, fatLoop, if_neg (others i le_rfl (by omega)),
      ih fun j ge lt => others j (by omega) (by omega), Nat.add_right_comm, Nat.add_assoc]

end Loop

section Image

variable {file after : Buf} {k : ℕ}

lemma be32_append (lt : k + 3 < file.length) : be32 (file ++ after) k = be32 file k := by
  have bytes : ∀ i ∈ List.range 4, byte (file ++ after) (k + (3 - i)) = byte file (k + (3 - i)) :=
    fun i _ => byte_append_left (by omega)
  rw [be32, be32, List.map_congr_left bytes]

namespace Universal

lemma record (u : Universal file k) {j} (lt : j < nfat file) :
    archCputype (file ++ after) 0 j = archCputype file 0 j ∧
      archOffset (file ++ after) 0 j = archOffset file 0 j ∧
      archSize (file ++ after) 0 j = archSize file 0 j := by
  have records := u.records
  refine ⟨be32_append ?_, be32_append ?_, be32_append ?_⟩ <;> omega

lemma enters (u : Universal file k) :
    machoSliceIn file after = fatLoop (file ++ after) (nfat file) 0 ⟨0, file.length⟩ := by
  have records := u.records
  have listed := u.listed
  have long : 8 + 3 < file.length := by omega
  have magic : be32 (file ++ after) 0 = FAT_MAGIC := (be32_append (by omega)).trans u.magic
  have count : nfat (file ++ after) = nfat file := congrArg BitVec.toNat (be32_append (by omega))
  rw [machoSliceIn, if_neg (by omega), if_pos magic, if_neg (by omega), count, Nat.min_eq_left u.few]

lemma reaches (u : Universal file k) {n : ℕ} (turns : nfat file = k + (n + 1)) :
    fatLoop (file ++ after) (nfat file) 0 ⟨0, file.length⟩ =
      fatLoop (file ++ after) n (k + 1) (slice file k) := by
  obtain ⟨x86, off, size⟩ := @record file after k u k u.listed
  have others : ∀ j, 0 ≤ j → j < 0 + k → archCputype (file ++ after) 0 j ≠ CPU_TYPE_X86_64 := by
    intro j _ lt other
    rw [(u.record (by omega)).1] at other
    have same := u.alone j (by omega) other
    omega
  have fits : (archOffset (file ++ after) 0 k + archSize (file ++ after) 0 k).toNat ≤ file.length := by
    rw [off, size, BitVec.toNat_add]
    exact (Nat.mod_le _ _).trans u.inside
  have skip := @fatLoop_skip (file ++ after) (n + 1) 0 ⟨0, file.length⟩ k others
  have step := @fatLoop_x86 (file ++ after) n k ⟨0, file.length⟩ (x86.trans u.x86) fits
  dsimp only at step
  rw [off, size, Nat.zero_add (archOffset file 0 k).toNat] at step
  rw [turns, skip, Nat.zero_add k, step]
  rfl

end Universal

/-- `main` uses the slice for x86-64 exactly when every later record, read in the bytes of the slice, is harmless. -/
theorem fat_slice_iff (u : Universal file k) (after : Buf) :
    machoSliceIn file after = some (Universal.slice file k) ↔
      ∀ j, k < j → j < nfat file → Harmless (file ++ after) (Universal.slice file k) j := by
  have listed := u.listed
  rw [u.enters, u.reaches (n := nfat file - (k + 1)) (by omega), fatLoop_same_iff]
  constructor
  · exact fun all j gt lt => all j gt (by omega)
  · exact fun all j ge lt => all j ge (by omega)

end Image

def twoArchitectures : Buf :=
  [0xCA, 0xFE, 0xBA, 0xBE, 0, 0, 0, 2,
    0x01, 0, 0, 0x07, 0, 0, 0, 3, 0, 0, 0, 48, 0, 0, 0, 48, 0, 0, 0, 0,
    0x01, 0, 0, 0x0C, 0, 0, 0, 0, 0, 0, 0, 96, 0, 0, 0, 0, 0, 0, 0, 0]

def plainSlice : Buf := [0xCF, 0xFA, 0xED, 0xFE] ++ List.replicate 44 0

def recordSlice : Buf :=
  [0xCF, 0xFA, 0xED, 0xFE] ++ List.replicate 24 0 ++
    [0x01, 0, 0, 0x07, 0, 0, 0, 0, 0, 0, 0, 4, 0, 0, 0, 8, 0, 0, 0, 0]

lemma universal_of_all {file k} (listed : k < nfat file)
    (fields : be32 file 0 = FAT_MAGIC ∧ nfat file ≤ 16 ∧ 8 + 20 * nfat file ≤ file.length ∧
      archCputype file 0 k = CPU_TYPE_X86_64 ∧
      (archOffset file 0 k).toNat + (archSize file 0 k).toNat ≤ file.length)
    (alone : ∀ j < nfat file, archCputype file 0 j = CPU_TYPE_X86_64 → j = k) : Universal file k :=
  ⟨fields.1, fields.2.1, fields.2.2.1, listed, fields.2.2.2.1, alone, fields.2.2.2.2⟩

theorem fat_slice_iff_plain :
    machoSliceIn (twoArchitectures ++ plainSlice) [] = some ⟨48, 48⟩ :=
  (fat_slice_iff (universal_of_all (k := 0) (by decide) (by decide) (by decide)) []).mpr
    fun j gt lt => by
      obtain rfl : j = 1 := by
        have two : nfat (twoArchitectures ++ plainSlice) = 2 := by decide
        omega
      exact fun x86 => absurd x86 (by decide)

/-- The record inside the slice is taken for one of the table, and `main` goes on with 8 bytes. -/
theorem fat_slice_lost :
    Universal (twoArchitectures ++ recordSlice) 0 ∧
      Universal.slice (twoArchitectures ++ recordSlice) 0 = ⟨48, 48⟩ ∧
      machoSliceIn (twoArchitectures ++ recordSlice) [] = some ⟨52, 8⟩ :=
  ⟨universal_of_all (by decide) (by decide) (by decide), by decide, by decide⟩

end Macify.Image
