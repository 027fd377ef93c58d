import Macify.Syscall.Rewriting

/-!
# Syscall sites in the macOS encoding

A macOS program loads the number `0x2000000 | nr`, so the immediate of its `mov eax` ends in `00 02`. The scanner
looks for immediates that end in `00 20`. Main result: `macos_site_served_iff`.
-/

namespace Macify.Syscall
open Lib Image

/-- A macOS syscall site of `b`: `mov eax, 0x2000000|nr` at `j` without a REX prefix, at most 27 bytes without `B8`
    and without `0F 05`, and `syscall` at `i`. -/
structure MacosSite (b : Buf) (j i nr : ℕ) : Prop where
  op : byte b j = 0xB8
  lo : byte b (j + 1) = UInt8.ofNat (nr % 256)
  hi : byte b (j + 2) = UInt8.ofNat (nr / 256 % 256)
  b3 : byte b (j + 3) = 0x00
  b4 : byte b (j + 4) = 0x02
  noRex : rexBefore b j = false
  after : j + 5 ≤ i
  near : i ≤ j + 32
  noLoad : ∀ k, j + 5 ≤ k → k < i → byte b k ≠ 0xB8
  noSyscall : ∀ k, j + 5 ≤ k → k + 1 < i → isSyscall b k = false
  sys : isSyscall b i = true

/-- The site no longer hands its number to the kernel: its `syscall` is `ud2`, or the immediate of its `mov` is the
    Linux number `n`. -/
def Served (c : Buf) (j i n : ℕ) : Prop :=
  (byte c i = 0x0F ∧ byte c (i + 1) = 0x0B) ∨
    (byte c (j + 1) = UInt8.ofNat (n % 256) ∧ byte c (j + 2) = UInt8.ofNat (n / 256 % 256) ∧
      byte c (j + 3) = UInt8.ofNat (n / 65536 % 256) ∧
      byte c (j + 4) = UInt8.ofNat (n / 16777216 % 256))

instance {c j i n} : Decidable (Served c j i n) := inferInstanceAs (Decidable (_ ∨ _))

lemma MacosSite.mov_kept {R b c j i nr n} (site : MacosSite b j i nr) (ent : HasEntry nr n)
    (ov : Overlay R b c) : byte c (j + 4) ≠ 0 := by
  have ld := ov.load
  have lo : byte b (j + 1) ≠ 0xB8 := by
    rw [site.lo, ne_eq, ← UInt8.toNat_inj, UInt8.toNat_ofNat_of_lt' (Nat.mod_lt _ (by decide))]
    exact ent.low_byte.1
  have hi : byte b (j + 2) ≠ 0xB8 := by
    have lt := ent.lt
    have small : nr / 256 % 256 ≠ 0xB8 := by
      unfold bsdSyscallMax at lt
      omega
    rw [site.hi, ne_eq, ← UInt8.toNat_inj, UInt8.toNat_ofNat_of_lt' (Nat.mod_lt _ (by decide))]
    exact small
  have b3 := site.b3
  have b4 := site.b4
  cases ov.change (j + 4) <;> grind [FastLoad]

/-- Exactly when the nearest load `B8 xx xx 00 20` in the 32 bytes before that no earlier syscall has consumed
    does not take the fast path, or there is none and an `add rax, 0x2000000` lies there, at offset 5 or later. -/
theorem macos_site_served_iff {noFast seg start len j i nr n} {s : PatchState}
    (ent : HasEntry nr n) (site : MacosSite s.base j i nr) (ge : start ≤ j)
    (le : i + 2 ≤ start + len) (fits : start + len ≤ seg.vmsize.toNat) :
    Served (patchSyscallsInRange noFast seg start len s).base j i n ↔
      (∃ m, liveMov noFast start s.base i = some m ∧ fastAt noFast s.base m = false) ∨
        (liveMov noFast start s.base i = none ∧ addBefore s.base i = true) := by
  have pt := patchSyscallsInRange_patched noFast seg start len s
  have after := site.after
  obtain ⟨op, ud2⟩ := pt.syscall_ud2 (lt_scanStop fits (by omega) (by omega)) site.sys
  have slow : slowSite noFast start s.base i = true ↔
      (∃ m, liveMov noFast start s.base i = some m ∧ fastAt noFast s.base m = false) ∨
        (liveMov noFast start s.base i = none ∧ addBefore s.base i = true) := by
    have gei : start ≤ i := by omega
    cases lm : liveMov noFast start s.base i <;> simp [slowSite, gei, site.sys, lm]
  rw [← slow, ← ud2]
  constructor
  · rintro (⟨_, new⟩ | ⟨_, _, _, last⟩)
    · exact new
    · -- a Linux number fits in two bytes, so the last byte would have to be `00`
      have zero : n / 16777216 % 256 = 0 := by
        have all : ∀ p ∈ bsdToLinuxEntries, p.2 / 16777216 % 256 = 0 := by decide +kernel
        exact all (nr, n) ent
      rw [zero] at last
      exact absurd last (site.mov_kept ent pt.overlay)
  · exact fun new => .inl ⟨op, new⟩

def textSegment (n : ℕ) : LoadedSegment where
  vmaddr := 0x100000000
  vmsize := BitVec.ofNat 64 n
  prot := 5
  targetProt := 5
  name := ascii "__TEXT"
  isPagezero := false

def macosWrite : Buf := [0xB8, 0x04, 0x00, 0x00, 0x02, 0x0F, 0x05]

lemma macosWrite_site : MacosSite macosWrite 0 5 4 where
  op := rfl
  lo := rfl
  hi := rfl
  b3 := rfl
  b4 := rfl
  noRex := rfl
  after := by decide
  near := by decide
  noLoad k ge lt := by omega
  noSyscall k ge lt := by omega
  sys := rfl

theorem macos_site_served_iff_write :
    HasEntry 4 SYS_write ∧ MacosSite macosWrite 0 5 4 ∧
      (Served (patchSyscallsInRange false (textSegment 7) 0 7 ⟨macosWrite, 0, 0⟩).base 0 5
          SYS_write ↔
        (∃ m, liveMov false 0 macosWrite 5 = some m ∧ fastAt false macosWrite m = false) ∨
          (liveMov false 0 macosWrite 5 = none ∧ addBefore macosWrite 5 = true)) :=
  ⟨by decide, macosWrite_site,
    macos_site_served_iff (s := ⟨macosWrite, 0, 0⟩) (by decide) macosWrite_site (by decide)
      (by decide) (by decide)⟩

/-- The scanner leaves `mov eax, 0x2000004; syscall` as it is. -/
theorem macosWrite_not_served :
    MacosSite macosWrite 0 5 4 ∧ HasEntry 4 SYS_write ∧
      ∀ noFast, (patchSyscallsInRange noFast (textSegment 7) 0 7 ⟨macosWrite, 0, 0⟩).base =
          macosWrite ∧
        ¬Served (patchSyscallsInRange noFast (textSegment 7) 0 7 ⟨macosWrite, 0, 0⟩).base 0 5
          SYS_write :=
  ⟨macosWrite_site, by decide, by decide⟩

end Macify.Syscall
