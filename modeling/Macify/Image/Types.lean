import Macify.Lib.Bytes

/-!
# Mach-O structures

The structures of `src/macify.h` that the loader fills and reads. Addresses and sizes are 64-bit
words; a fixed-size C string is the list of its bytes before the terminator.
-/

namespace Macify.Image
open Lib

def ascii (s : String) : Buf := s.toList.map fun c => UInt8.ofNat c.toNat

structure Section64 where
  sectname : Buf
  segname : Buf
  addr : W64
  size : W64
  offset : W32
  flags : W32
  reserved1 : W32
  reserved2 : W32
  deriving DecidableEq

structure SegmentCommand where
  segname : Buf
  vmaddr : W64
  vmsize : W64
  fileoff : W64
  filesize : W64
  initprot : W32
  sects : List Section64
  deriving DecidableEq

structure LoadedSegment where
  vmaddr : W64
  vmsize : W64
  prot : W32
  targetProt : W32
  name : Buf
  isPagezero : Bool
  deriving DecidableEq

structure LoadedSection where
  sectname : Buf
  segname : Buf
  addr : W64
  size : W64
  offset : W32
  flags : W32
  reserved1 : W32
  reserved2 : W32
  deriving DecidableEq

end Macify.Image
