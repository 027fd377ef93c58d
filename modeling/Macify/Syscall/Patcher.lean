import Macify.Lib.Loop
import Macify.Image.Types
import Macify.Syscall.Table

/-!
# The syscall patcher

Model of `patch_syscalls_in_range` (`src/syscall/patcher.c`). The scanner stops at every `0F 05` and looks back over at
most 32 bytes for any load of a syscall number (`foundPattern`), then for the nearest `mov eax` (`findMov`), and either
rewrites the immediate of that `mov` or turns the `syscall` into `ud2`.
-/

namespace Macify.Syscall
open Lib Image

def backwardScanBytes : ℕ := 32

def isSyscall (b : Buf) (i : ℕ) : Bool := byte b i == 0x0F && byte b (i + 1) == 0x05

def rexBefore (b : Buf) (j : ℕ) : Bool :=
  decide (0 < j) && decide (0x40 ≤ byte b (j - 1)) && decide (byte b (j - 1) ≤ 0x4F)

/-- `mov eax, imm32` whose immediate ends in `00 20`, without a REX prefix. -/
def isMov (b : Buf) (j : ℕ) : Bool :=
  byte b j == 0xB8 && byte b (j + 3) == 0x00 && byte b (j + 4) == 0x20 && !rexBefore b j

/-- `add rax, 0x2000000`, not in the first five bytes of the buffer. -/
def isAdd (b : Buf) (j : ℕ) : Bool :=
  decide (5 ≤ j) && byte b j == 0x48 && byte b (j + 1) == 0x05 && byte b (j + 2) == 0x00 &&
    byte b (j + 3) == 0x00 && byte b (j + 4) == 0x00 && byte b (j + 5) == 0x02

def isPattern (b : Buf) (i j : ℕ) : Bool :=
  if byte b j == 0xB8 && decide (j + 4 < i) && byte b (j + 3) == 0x00 && byte b (j + 4) == 0x20 then
    !rexBefore b j
  else isAdd b j

def foundPattern (b : Buf) (i : ℕ) : Bool :=
  (searchDown (fun j => decide (j < i) && isPattern b i j) (i - backwardScanBytes) (i - 5)).isSome

/-- The second look-back loop: the nearest recognised `mov eax` before `i` (`mov_off`). -/
def findMov (b : Buf) (i : ℕ) : Option ℕ :=
  searchDown (isMov b) (i - backwardScanBytes) (i - 5)

def bsdNr (b : Buf) (m : ℕ) : ℕ := (byte b (m + 1)).toNat + 256 * (byte b (m + 2)).toNat

/-- The fast-path test for a BSD number in table range. The flags are truncated to a `uint8_t`. -/
def fastNumber (noFast : Bool) (nr : ℕ) : Bool :=
  let flags := (bsdArgFlags nr).setWidth 8
  let needsTranslation := flags &&& ~~~(ARG_FORCE_SLOW.setWidth 8) != 0
  let forceSlow := flags &&& ARG_FORCE_SLOW.setWidth 8 != 0
  !noFast && decide (0 < bsdToLinux nr) && !needsTranslation && !forceSlow

def rewriteImm (b : Buf) (m n : ℕ) : Buf :=
  (((b.set (m + 1) (UInt8.ofNat (n % 256))).set (m + 2) (UInt8.ofNat (n / 256 % 256))).set
    (m + 3) 0).set (m + 4) 0

structure PatchState where
  base : Buf
  fastCount : ℕ
  slowCount : ℕ
  deriving DecidableEq

def PatchState.ud2 (s : PatchState) (i : ℕ) : PatchState :=
  { s with base := s.base.set (i + 1) 0x0B, slowCount := s.slowCount + 1 }

def patchSite (noFast : Bool) (i : ℕ) (s : PatchState) : PatchState :=
  if !isSyscall s.base i then s
  else if !foundPattern s.base i then s
  else
    match findMov s.base i with
    -- only the `add` was found: the number is computed at run time
    | none => s.ud2 i
    | some m =>
      let nr := bsdNr s.base m
      if bsdSyscallMax ≤ nr then s.ud2 i
      else if fastNumber noFast nr then
        { s with base := rewriteImm s.base m (bsdToLinux nr), fastCount := s.fastCount + 1 }
      else s.ud2 i

def rangeEnd (seg : LoadedSegment) (rangeStart rangeLen : ℕ) : ℕ :=
  min ((rangeStart + rangeLen) % 2 ^ 64) seg.vmsize.toNat

def patchSyscallsInRange (noFast : Bool) (seg : LoadedSegment) (rangeStart rangeLen : ℕ)
    (s : PatchState) : PatchState :=
  forUp (patchSite noFast) rangeStart (rangeEnd seg rangeStart rangeLen - 1 - rangeStart) s

end Macify.Syscall
