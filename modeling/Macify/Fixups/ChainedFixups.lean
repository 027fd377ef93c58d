import Macify.Lib.Fields
import Macify.Fixups.Binds

/-!
# Chained fixups

Models of `execute_chained_fixups` for the main image (`src/fixups.c`) and `process_dylib_chained_fixups` for a dylib
(`src/macho_dylib.c`). The blob says on which pages of which segments chains start. An entry is a word in memory that
says what is to be stored in its place and where the next one is. The state keeps every entry that was reached.
-/

namespace Macify.Fixups
open Lib Image

def fixupsVersion (blob : Buf) : ℕ := (u32 blob 0).toNat
def startsOffset (blob : Buf) : ℕ := (u32 blob 4).toNat
def importsOffset (blob : Buf) : ℕ := (u32 blob 8).toNat
def symbolsOffset (blob : Buf) : ℕ := (u32 blob 12).toNat
def importsCount (blob : Buf) : ℕ := (u32 blob 16).toNat

def startsCount (blob : Buf) : ℕ := (u32 blob (startsOffset blob)).toNat
def segStarts (blob : Buf) (k : ℕ) : ℕ := (u32 blob (startsOffset blob + 4 + 4 * k)).toNat

def pageSize (blob : Buf) (s : ℕ) : W64 := (u16 blob (s + 4)).setWidth 64
def ptrFormat (blob : Buf) (s : ℕ) : BitVec 16 := u16 blob (s + 6)
def pageCount (blob : Buf) (s : ℕ) : ℕ := (u16 blob (s + 20)).toNat
def pageStart (blob : Buf) (s p : ℕ) : BitVec 16 := u16 blob (s + 22 + 2 * p)

def importAt (blob : Buf) (i : ℕ) : W32 := u32 blob (importsOffset blob + 4 * i)
def libOrdinal (raw : W32) : ℕ := (raw &&& 0xFF).toNat
def nameOffset (raw : W32) : ℕ := ((raw >>> 9) &&& 0x7FFFFF).toNat

def symbolAt (blob : Buf) (off : ℕ) : Buf := cString (blob.drop (symbolsOffset blob + off))

abbrev DYLD_CHAINED_PTR_64 : BitVec 16 := 2
abbrev DYLD_CHAINED_PTR_64_OFFSET : BitVec 16 := 6
abbrev DYLD_CHAINED_PTR_START_NONE : BitVec 16 := 0xFFFF

structure Visit where
  format : BitVec 16
  ptr : W64
  before : Mem
  after : Mem

structure ChainState where
  mem : Mem
  noted : List Buf
  visits : List Visit

def ChainState.start (mem : Mem) : ChainState := ⟨mem, [], []⟩

structure Replacement where
  word : Option W64
  noted : List Buf

def replace (mem : Mem) (ptr : W64) : Option W64 → Mem
  | none => mem
  | some w => mem.write64 ptr w

def ChainState.fix (format : BitVec 16) (entry : W64 → Replacement) (ptr : W64) (st : ChainState) : ChainState :=
  let r := entry (st.mem.read64 ptr)
  let mem := replace st.mem ptr r.word
  ⟨mem, st.noted ++ r.noted, st.visits ++ [⟨format, ptr, st.mem, mem⟩]⟩

def chainNext (value : W64) : W64 := (value >>> 51) &&& 0xFFF

def nextEntry (last ptr value : W64) : Option W64 :=
  if chainNext value = 0 then none
  else
    let ptr := ptr + chainNext value * 4
    if last < ptr + 8 then none else some ptr

def chainStep (format : BitVec 16) (entry : W64 → Replacement) (last ptr : W64)
    (st : ChainState) : ChainState × Option W64 :=
  (st.fix format entry ptr, nextEntry last ptr (st.mem.read64 ptr))

def walkChain (format : BitVec 16) (entry : W64 → Replacement) (last : W64) : ℕ → W64 → ChainState → ChainState
  | 0, _, st => st
  | n + 1, ptr, st =>
    match chainStep format entry last ptr st with
    | (st, none) => st
    | (st, some ptr) => walkChain format entry last n ptr st

def pageBase (blob : Buf) (s : ℕ) (base : W64) (p : ℕ) : W64 :=
  base + BitVec.ofNat 64 p * pageSize blob s

def pageEnd (blob : Buf) (s : ℕ) (base vmsize : W64) (p : ℕ) : W64 :=
  let last := pageBase blob s base p + pageSize blob s
  if base + vmsize < last then base + vmsize else last

def walkPage (entry : W64 → Replacement) (blob : Buf) (s : ℕ) (base vmsize : W64)
    (st : ChainState) (p : ℕ) : ChainState :=
  if pageStart blob s p = DYLD_CHAINED_PTR_START_NONE then st
  else
    let ptr := pageBase blob s base p + (pageStart blob s p).setWidth 64
    let last := pageEnd blob s base vmsize p
    if last < ptr + 8 then st else walkChain (ptrFormat blob s) entry last 16384 ptr st

def walkPages (entry : W64 → Replacement) (blob : Buf) (s : ℕ) (base vmsize : W64) (st : ChainState) : ChainState :=
  (List.range (pageCount blob s)).foldl (walkPage entry blob s base vmsize) st

def loadBase (segs : List LoadedSegment) : W64 :=
  ((segs.find? fun seg => !seg.isPagezero).map LoadedSegment.vmaddr).getD 0

def isFlat (lib : ℕ) : Bool := lib == 0 || decide (0xFB ≤ lib)

def resolveImport (env : BindEnv) (blob : Buf) (i : ℕ) : W64 :=
  let raw := importAt blob i
  let sym := stripUnderscore (symbolAt blob (nameOffset raw))
  if isFlat (libOrdinal raw) then env.resolve (-1) sym else env.resolve (libOrdinal raw - 1) sym

def bindOrdinal (value : W64) : ℕ := (value &&& 0xFFFFFF).toNat
def bindAddend (value : W64) : W64 := (value >>> 24) &&& 0xFF
def rebaseTarget (value : W64) : W64 := value &&& 0xFFFFFFFFF
def rebaseHigh8 (value : W64) : W64 := (value >>> 36) &&& 0xFF

def chainEntry (env : BindEnv) (blob : Buf) (value : W64) : Replacement :=
  if value.msb then
    let i := bindOrdinal value
    -- an import index that is out of range is left as it is
    if importsCount blob ≤ i then ⟨none, []⟩
    else
      let addr := resolveImport env blob i
      if addr = 0 then
        ⟨some (env.stub + bindAddend value),
          [stripUnderscore (symbolAt blob (nameOffset (importAt blob i)))]⟩
      else ⟨some (addr + bindAddend value), []⟩
  else ⟨some ((rebaseHigh8 value <<< 43 ||| rebaseTarget value) + loadBase env.segs), []⟩

/-- The loop over the segments. An unsupported pointer format ends it. -/
def chainSegments (env : BindEnv) (blob : Buf) : List (LoadedSegment × ℕ) → ChainState → Bool × ChainState
  | [], st => (true, st)
  | (seg, k) :: rest, st =>
    if segStarts blob k = 0 then chainSegments env blob rest st
    else
      let s := startsOffset blob + segStarts blob k
      if ptrFormat blob s ≠ DYLD_CHAINED_PTR_64 ∧ ptrFormat blob s ≠ DYLD_CHAINED_PTR_64_OFFSET then
        (false, st)
      else
        chainSegments env blob rest
          (walkPages (chainEntry env blob) blob s seg.vmaddr seg.vmsize st)

def executeChainedFixups (env : BindEnv) (blob : Buf) (mem : Mem) : Bool × ChainState :=
  if fixupsVersion blob ≠ 0 then (false, .start mem)
  else chainSegments env blob (env.segs.take (startsCount blob)).zipIdx (.start mem)

def dylibLoadBase (env : DylibBindEnv) : W64 :=
  let base := ((env.segs.find? fun seg => !(seg.vmaddr == 0 && decide (0x80000000 < seg.vmsize))).map
    fun seg => seg.vmaddr + env.slide).getD 0
  if base = 0 then env.slide else base

def dylibBindOrdinal (value : W64) : ℕ := (value &&& 0xFFFF).toNat
def dylibBindAddend (value : W64) : W64 := (value >>> 16) &&& 0xFFFF
def dylibRebaseTarget (value : W64) : W64 := value &&& 0x7FFFFFFFFFF
def dylibRebaseHigh8 (value : W64) : W64 := (value >>> 43) &&& 0xFF

/-- Without a symbol pool every name is empty. -/
def dylibSymbolAt (blob : Buf) (off : ℕ) : Buf :=
  if symbolsOffset blob = 0 then [] else symbolAt blob off

/-- All ordinals stand for a lookup in all libraries. -/
def dylibResolveImport (env : DylibBindEnv) (blob : Buf) (i : ℕ) : W64 :=
  env.resolve (-1) (stripUnderscore (dylibSymbolAt blob (nameOffset (importAt blob i))))

def dylibChainEntry (env : DylibBindEnv) (blob : Buf) (base value : W64) : Replacement :=
  if value.msb then
    let i := dylibBindOrdinal value
    if i < importsCount blob then
      let addr := dylibResolveImport env blob i
      if addr = 0 then ⟨some env.stub, []⟩ else ⟨some (addr + dylibBindAddend value), []⟩
    else ⟨none, []⟩
  else ⟨some ((dylibRebaseHigh8 value <<< 43 ||| dylibRebaseTarget value) + base), []⟩

/-- On the blob at `fixups_off`: the final state. The pointer format is read but not looked at. -/
def processDylibChainedFixups (env : DylibBindEnv) (blob : Buf) (mem : Mem) : ChainState :=
  if fixupsVersion blob ≠ 0 then .start mem
  else
    (env.segs.take (startsCount blob)).zipIdx.foldl (fun st (seg, k) =>
      if segStarts blob k = 0 then st
      else
        walkPages (dylibChainEntry env blob (dylibLoadBase env)) blob
          (startsOffset blob + segStarts blob k) (seg.vmaddr + env.slide) seg.vmsize st) (.start mem)

/-- The offsets in the blob are not compared with its size. -/
def executeChainedFixupsFile (env : BindEnv) (file : Buf) (off size : W32) (mem : Mem) : Bool × ChainState :=
  match checkRange .chainedFixups file.length off size with
  | .skip => (true, .start mem)
  | .reject => (false, .start mem)
  | .pass off _ => executeChainedFixups env (file.drop off) mem

def processDylibChainedFixupsFile (env : DylibBindEnv) (file : Buf) (off size : W32) (mem : Mem) : ChainState :=
  match checkRange .dylibChainedFixups file.length off size with
  | .pass off _ => processDylibChainedFixups env (file.drop off) mem
  | _ => .start mem

end Macify.Fixups
