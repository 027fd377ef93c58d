import Macify.Lib.Bytecode
import Macify.Lib.Leb128
import Macify.Image.FileRanges

/-!
# Bind opcodes

Models of the two interpreters of bind opcode streams: `execute_binds` for the main image
(`src/fixups.c`) and `process_dylib_binds` for a dylib (`src/macho_dylib.c`). Both read the stream byte
by byte and write resolved addresses into slots. `resolve` is `resolve_symbol`, which returns zero for a
name that it cannot find.
-/

namespace Macify.Fixups
open Lib Image

inductive BindOpcode where
  | done
  | setDylibOrdinalImm
  | setDylibOrdinalUleb
  | setDylibSpecialImm
  | setSymbolTrailingFlagsImm
  | setTypeImm
  | setAddendSleb
  | setSegmentRelativeOffsetUleb
  | addAddrUleb
  | doBind
  | doBindAddAddrUleb
  | doBindAddAddrImmScaled
  | doBindUlebTimesSkippingUleb
  deriving DecidableEq

def BindOpcode.ofByte (b : UInt8) : Option BindOpcode :=
  match (b &&& 0xF0).toNat with
  | 0x00 => some .done
  | 0x10 => some .setDylibOrdinalImm
  | 0x20 => some .setDylibOrdinalUleb
  | 0x30 => some .setDylibSpecialImm
  | 0x40 => some .setSymbolTrailingFlagsImm
  | 0x50 => some .setTypeImm
  | 0x60 => some .setAddendSleb
  | 0x70 => some .setSegmentRelativeOffsetUleb
  | 0x80 => some .addAddrUleb
  | 0x90 => some .doBind
  | 0xA0 => some .doBindAddAddrUleb
  | 0xB0 => some .doBindAddAddrImmScaled
  | 0xC0 => some .doBindUlebTimesSkippingUleb
  | _ => none

def immOf (b : UInt8) : ℕ := (b &&& 0x0F).toNat

def cString (bytes : Buf) : Buf := bytes.takeWhile (· != 0)

def stripUnderscore (name : Buf) : Buf :=
  match name with
  | 0x5F :: rest => rest
  | _ => name

def BIND_TYPE_POINTER : ℕ := 1

/-- What the interpreter reads beside the stream: `g_segments`, `g_ndylibs`, `resolve_symbol` and the address of
    `macify_unresolved_stub`. -/
structure BindEnv where
  segs : List LoadedSegment
  ndylibs : ℕ
  resolve : ℤ → Buf → W64
  stub : W64

structure BindState where
  ordinal : ℤ
  symbolName : Buf
  type : ℕ
  addend : W64
  segOffset : W64
  segIndex : ℕ
  writes : List (W64 × W64)
  noted : List Buf
  deriving DecidableEq

def BindState.start : BindState where
  ordinal := 0
  symbolName := []
  type := BIND_TYPE_POINTER
  addend := 0
  segOffset := 0
  segIndex := 0
  writes := []
  noted := []

def BindState.advance (st : BindState) (n : W64) : BindState :=
  { st with segOffset := st.segOffset + n }

def ordinalOk (env : BindEnv) (st : BindState) : Bool :=
  decide (1 ≤ st.ordinal) && decide (st.ordinal ≤ env.ndylibs)

def lookup (env : BindEnv) (st : BindState) : W64 :=
  env.resolve (st.ordinal - 1) (stripUnderscore st.symbolName)

def bindValue (env : BindEnv) (st : BindState) : W64 :=
  (if lookup env st = 0 then env.stub else lookup env st) + st.addend

/-- The address of the current slot. An entry of `g_segments` past the last one is all zero. -/
def bindTarget (env : BindEnv) (st : BindState) : W64 :=
  (slotAddr env.segs st.segIndex st.segOffset).getD st.segOffset

def noteUnresolved (env : BindEnv) (st : BindState) : BindState :=
  if lookup env st = 0 then { st with noted := st.noted ++ [stripUnderscore st.symbolName] } else st

def storeSlot (env : BindEnv) (st : BindState) : BindState :=
  { st with writes := st.writes ++ [(bindTarget env st, bindValue env st)] }

/-- The three opcodes that bind one slot, and move on by `8 + n` bytes. A slot that is not a pointer is passed over. -/
def bindOne (env : BindEnv) (n : W64) (rest : Buf) (st : BindState) : Step BindState :=
  if !ordinalOk env st then .stop false st
  else
    let st := noteUnresolved env st
    if env.segs.length ≤ st.segIndex then .stop false st
    else
      let st := if st.type = BIND_TYPE_POINTER then storeSlot env st else st
      .more rest (st.advance (8 + n))

/-- The loop of the opcode that binds several slots. It checks neither the type nor the segment. -/
def bindTimes (env : BindEnv) (skip : W64) : ℕ → BindState → Bool × BindState
  | 0, st => (true, st)
  | n + 1, st =>
    if !ordinalOk env st then (false, st)
    else bindTimes env skip n ((storeSlot env st).advance (8 + skip))

def bindStep (env : BindEnv) (st : BindState) (b : UInt8) (rest : Buf) : Step BindState :=
  let imm := immOf b
  match BindOpcode.ofByte b with
  | none => .stop false st
  | some .done =>
    -- in a lazy stream `DONE` ends one entry
    if rest = [] then .stop true st
    else .more rest { st with symbolName := [], segOffset := 0, segIndex := 0 }
  | some .setDylibOrdinalImm => .more rest { st with ordinal := imm }
  | some .setDylibOrdinalUleb =>
    let (v, rest) := readUleb128 rest
    .more rest { st with ordinal := (v.setWidth 32).toInt }
  | some .setDylibSpecialImm =>
    .more rest { st with ordinal := if imm = 0 then 0 else (BitVec.ofNat 8 (imm ||| 0xF0)).toInt }
  | some .setSymbolTrailingFlagsImm =>
    let name := cString rest
    if rest.length ≤ name.length then .stop false st
    else .more (rest.drop (name.length + 1)) { st with symbolName := name.take 255 }
  | some .setTypeImm => .more rest { st with type := imm }
  | some .setAddendSleb =>
    let (v, rest) := readSleb128 rest
    .more rest { st with addend := v }
  | some .setSegmentRelativeOffsetUleb =>
    let (v, rest) := readUleb128 rest
    .more rest { st with segIndex := imm, segOffset := v }
  | some .addAddrUleb =>
    let (v, rest) := readUleb128 rest
    .more rest (st.advance v)
  | some .doBind => bindOne env 0 rest st
  | some .doBindAddAddrUleb =>
    let (v, rest) := readUleb128 rest
    bindOne env v rest st
  | some .doBindAddAddrImmScaled =>
    bindOne env (BitVec.ofNat 64 (imm * 8)) rest st
  | some .doBindUlebTimesSkippingUleb =>
    let (count, rest) := readUleb128 rest
    let (skip, rest) := readUleb128 rest
    match bindTimes env skip count.toNat st with
    | (true, st) => .more rest st
    | (false, st) => .stop false st

def executeBinds (env : BindEnv) (stream : Buf) : Bool × BindState :=
  interpret (bindStep env) stream .start

/-- `segs`, the slide, `resolve_symbol` and the address of `macify_unresolved_stub`. -/
structure DylibBindEnv where
  segs : List DylibSegment
  slide : W64
  resolve : ℤ → Buf → W64
  stub : W64

/-- The state. A segment index of `-1` is `none`. The type and the ordinal are read but not used. -/
structure DylibBindState where
  segIndex : Option ℕ
  segOffset : W64
  symName : Buf
  addend : W64
  writes : List (W64 × W64)
  deriving DecidableEq

def DylibBindState.start : DylibBindState := ⟨none, 0, [], 0, []⟩

def DylibBindState.advance (st : DylibBindState) (n : W64) : DylibBindState :=
  { st with segOffset := st.segOffset + n }

def dylibTarget (env : DylibBindEnv) (st : DylibBindState) : Option W64 :=
  st.segIndex.bind fun k => dylibSlotAddr env.segs env.slide k st.segOffset

def dylibLookup (env : DylibBindEnv) (st : DylibBindState) : W64 :=
  env.resolve (-1) (stripUnderscore st.symName)

def DylibBindState.store (st : DylibBindState) (target value : W64) : DylibBindState :=
  { st with writes := st.writes ++ [(target, value)] }

def storeFound (env : DylibBindEnv) (target : W64) (st : DylibBindState) : DylibBindState :=
  let addr := dylibLookup env st
  if addr = 0 then st else st.store target (addr + st.addend)

def storeOrStub (env : DylibBindEnv) (target : W64) (st : DylibBindState) : DylibBindState :=
  let addr := dylibLookup env st
  if addr = 0 then st.store target env.stub else st.store target (addr + st.addend)

def dylibBindTimes (env : DylibBindEnv) (skip : W64) : ℕ → DylibBindState → DylibBindState
  | 0, st => st
  | n + 1, st =>
    let bound :=
      match dylibTarget env st with
      | none => st
      | some target => storeFound env target st
    dylibBindTimes env skip n (bound.advance (skip + 8))

def dylibBindStep (env : DylibBindEnv) (st : DylibBindState) (b : UInt8) (rest : Buf) : Step DylibBindState :=
  let imm := immOf b
  match BindOpcode.ofByte b with
  | none => .stop true st
  | some .done => .stop true st
  | some .setDylibOrdinalImm => .more rest st
  | some .setDylibOrdinalUleb => .more (readUleb128 rest).2 st
  | some .setDylibSpecialImm => .more rest st
  | some .setSymbolTrailingFlagsImm =>
    -- one byte is skipped after the copy, the terminator only if the name fits
    let name := (cString rest).take 255
    .more (rest.drop (name.length + 1)) { st with symName := name }
  | some .setTypeImm => .more rest st
  | some .setAddendSleb =>
    let (v, rest) := readSleb128 rest
    .more rest { st with addend := v }
  | some .setSegmentRelativeOffsetUleb =>
    let (v, rest) := readUleb128 rest
    .more rest { st with segIndex := some imm, segOffset := v }
  | some .addAddrUleb =>
    let (v, rest) := readUleb128 rest
    .more rest (st.advance v)
  | some .doBind =>
    match dylibTarget env st with
    | none => .more rest st
    | some target => .more rest ((storeOrStub env target st).advance 8)
  | some .doBindAddAddrUleb =>
    match dylibTarget env st with
    -- the operand is left in the stream
    | none => .more rest st
    | some target =>
      let (v, rest) := readUleb128 rest
      .more rest ((storeFound env target st).advance (8 + v))
  | some .doBindAddAddrImmScaled =>
    match dylibTarget env st with
    | none => .more rest st
    | some target =>
      .more rest ((storeFound env target st).advance (BitVec.ofNat 64 (imm * 8) + 8))
  | some .doBindUlebTimesSkippingUleb =>
    let (count, rest) := readUleb128 rest
    let (skip, rest) := readUleb128 rest
    .more rest (dylibBindTimes env skip count.toNat st)

def processDylibBinds (env : DylibBindEnv) (stream : Buf) : DylibBindState :=
  (interpret (dylibBindStep env) stream .start).2

def bindRange (env : BindEnv) (file : Buf) : RangeCheck → Bool × BindState
  | .skip => (true, .start)
  | .reject => (false, .start)
  | .pass off size => executeBinds env (sliceOf file off size)

/-- `execute_binds` and `execute_lazy_binds`, on the part of the file that `g_bind_off` or `g_lazy_bind_off` gives. -/
def executeBindsFile (env : BindEnv) (file : Buf) (off size : W32) : Bool × BindState :=
  bindRange env file (checkRange .bind file.length off size)
def executeLazyBinds (env : BindEnv) (file : Buf) (off size : W32) : Bool × BindState :=
  bindRange env file (checkRange .lazyBind file.length off size)

def processDylibBindsFile (env : DylibBindEnv) (file : Buf) (off size : W32) : DylibBindState :=
  match checkRange .dylibBind file.length off size with
  | .pass off size => processDylibBinds env (sliceOf file off size)
  | _ => .start

lemma bindOne_rest {env n rest rest' st st'} (taken : bindOne env n rest st = .more rest' st') :
    rest' = rest := by
  unfold bindOne at taken
  split at taken
  · cases taken
  dsimp only at taken
  split at taken
  · cases taken
  · cases taken
    rfl

lemma bindStep_shrinks (env : BindEnv) : Shrinks (bindStep env) := by
  intro st b rest rest' st' taken
  unfold bindStep at taken
  cases op : BindOpcode.ofByte b with
  | none => rw [op] at taken; cases taken
  | some op' =>
    rw [op] at taken
    cases op' with
    | done =>
      dsimp only at taken
      split at taken
      · cases taken
      · cases taken; exact le_rfl
    | setSymbolTrailingFlagsImm =>
      dsimp only at taken
      split at taken
      · cases taken
      · cases taken
        rw [List.length_drop]
        exact Nat.sub_le ..
    | doBind | doBindAddAddrImmScaled => rw [bindOne_rest taken]
    | doBindAddAddrUleb =>
      rw [bindOne_rest taken]
      exact readUleb128_length rest
    | doBindUlebTimesSkippingUleb =>
      dsimp only at taken
      split at taken
      · cases taken
        exact (readUleb128_length _).trans (readUleb128_length rest)
      · cases taken
    | setAddendSleb => cases taken; exact readSleb128_length rest
    | setDylibOrdinalUleb | setSegmentRelativeOffsetUleb | addAddrUleb =>
      cases taken
      exact readUleb128_length rest
    | setDylibOrdinalImm | setDylibSpecialImm | setTypeImm => cases taken; exact le_rfl

lemma dylibBindStep_shrinks (env : DylibBindEnv) : Shrinks (dylibBindStep env) := by
  intro st b rest rest' st' taken
  unfold dylibBindStep at taken
  cases op : BindOpcode.ofByte b with
  | none => rw [op] at taken; cases taken
  | some op' =>
    rw [op] at taken
    cases op' with
    | done => cases taken
    | setSymbolTrailingFlagsImm =>
      cases taken
      rw [List.length_drop]
      exact Nat.sub_le ..
    | doBind | doBindAddAddrImmScaled =>
      dsimp only at taken
      split at taken
      · cases taken; exact le_rfl
      · cases taken; exact le_rfl
    | doBindAddAddrUleb =>
      dsimp only at taken
      split at taken
      · cases taken; exact le_rfl
      · cases taken; exact readUleb128_length rest
    | doBindUlebTimesSkippingUleb =>
      cases taken
      exact (readUleb128_length _).trans (readUleb128_length rest)
    | setAddendSleb => cases taken; exact readSleb128_length rest
    | setDylibOrdinalUleb | setSegmentRelativeOffsetUleb | addAddrUleb =>
      cases taken
      exact readUleb128_length rest
    | setDylibOrdinalImm | setDylibSpecialImm | setTypeImm => cases taken; exact le_rfl

end Macify.Fixups
