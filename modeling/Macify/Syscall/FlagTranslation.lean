import Macify.Lib.Bytes

/-!
# Argument translators

Model of `src/syscall/flag_translation.c`. An `int` is a 32-bit word and comparisons are signed. The
Linux constants are those of the x86_64 headers.
-/

namespace Macify.Syscall
open Lib

abbrev O_NONBLOCK : W32 := 0x800
abbrev O_APPEND : W32 := 0x400
abbrev O_ASYNC : W32 := 0x2000
abbrev O_SYNC : W32 := 0x101000
abbrev O_NOFOLLOW : W32 := 0x20000
abbrev O_CREAT : W32 := 0x40
abbrev O_TRUNC : W32 := 0x200
abbrev O_EXCL : W32 := 0x80
abbrev O_NOCTTY : W32 := 0x100
abbrev O_CLOEXEC : W32 := 0x80000

/-- `if (word & mask) out |= bits`, for each pair of a mask and bits in turn. -/
def mapBits (word : W32) (table : List (W32 × W32)) (out : W32) : W32 :=
  table.foldl (fun out (mask, bits) => if word &&& mask = 0 then out else out ||| bits) out

def translateOpenFlags (macosFlags : W32) : W32 :=
  mapBits macosFlags
    [(0x0000004, O_NONBLOCK), (0x0000008, O_APPEND), (0x0000040, O_ASYNC), (0x0000080, O_SYNC),
     (0x0000100, O_NOFOLLOW), (0x0000200, O_CREAT), (0x0000400, O_TRUNC), (0x0000800, O_EXCL),
     (0x0020000, O_NOCTTY), (0x1000000, O_CLOEXEC)]
    (macosFlags &&& 0x3)

abbrev MAP_SHARED : W32 := 0x01
abbrev MAP_PRIVATE : W32 := 0x02
abbrev MAP_FIXED : W32 := 0x10
abbrev MAP_ANONYMOUS : W32 := 0x20
abbrev MAP_NORESERVE : W32 := 0x4000

def translateMmapFlags (macosFlags : W32) : W32 :=
  mapBits macosFlags
    [(0x0001, MAP_SHARED), (0x0002, MAP_PRIVATE), (0x0010, MAP_FIXED), (0x0040, MAP_NORESERVE),
     (0x1000, MAP_ANONYMOUS)]
    (0 ||| macosFlags &&& 0x3)

def sigXlate : List (ℕ × W32) :=
  [(0, 0), (7, 10), (8, 8), (10, 7), (12, 31), (16, 23), (17, 19), (18, 20), (19, 18), (20, 17),
   (21, 21), (22, 22), (23, 29), (24, 24), (25, 25), (26, 26), (27, 27), (28, 28), (29, 10),
   (30, 10), (31, 12)]

def translateKillSignal (macosSig : W32) : W32 :=
  if macosSig.slt 0 || (32 : W32).sle macosSig then macosSig
  else
    let linuxSig := (sigXlate.lookup macosSig.toNat).getD 0
    if linuxSig = 0 then macosSig else linuxSig

abbrev F_DUPFD : W32 := 0
abbrev F_GETFD : W32 := 1
abbrev F_SETFD : W32 := 2
abbrev F_GETFL : W32 := 3
abbrev F_SETFL : W32 := 4
abbrev F_GETLK : W32 := 5
abbrev F_SETLK : W32 := 6
abbrev F_SETLKW : W32 := 7
abbrev F_SETOWN : W32 := 8
abbrev F_GETOWN : W32 := 9
abbrev F_DUPFD_CLOEXEC : W32 := 1030

def translateFcntlCmd (macosCmd : W32) : W32 :=
  match macosCmd.toNat with
  | 0 => F_DUPFD
  | 1 => F_GETFD
  | 2 => F_SETFD
  | 3 => F_GETFL
  | 4 => F_SETFL
  | 5 => F_GETOWN
  | 6 => F_SETOWN
  | 7 => F_GETLK
  | 8 => F_SETLK
  | 9 => F_SETLKW
  | 67 => F_DUPFD_CLOEXEC
  | _ => -1

abbrev MADV_NORMAL : W32 := 0
abbrev MADV_RANDOM : W32 := 1
abbrev MADV_SEQUENTIAL : W32 := 2
abbrev MADV_WILLNEED : W32 := 3
abbrev MADV_DONTNEED : W32 := 4
abbrev MADV_FREE : W32 := 8

def translateMadvise (macosAdvice : W32) : W32 :=
  match macosAdvice.toNat with
  | 0 => MADV_NORMAL
  | 1 => MADV_RANDOM
  | 2 => MADV_SEQUENTIAL
  | 3 => MADV_WILLNEED
  | 4 => MADV_DONTNEED
  | 5 => MADV_FREE
  | _ => macosAdvice

end Macify.Syscall
