import Macify.Lib.Bytes
import Macify.Lib.SlotTable
import Mathlib.Data.BitVec

/-!
# Streams

Code of macOS reads the fields of a `FILE` itself: `getc` decrements a counter at offset 8, where the C library has
`_IO_read_ptr`. The wrappers of `shim/io/process.c` put `-1` there between the calls, so that the macro calls
`__srget`, keep the pointer in a table of 16 slots and put it back before the C library runs, which may leave
anything in the stream.
-/

namespace Macify.Shim
open Lib

/-- The fields of a `FILE` of the C library at the offsets 0, 8, 0x10 and 0x38. -/
structure File where
  flags : W32
  readPtr : W64
  readEnd : W64
  bufBase : W64
  deriving DecidableEq

abbrev MACIFY_MAX_SAVED_FPS : ℕ := 16

structure Streams where
  files : W64 → File
  saved : Slots W64 W64
  saved_length : saved.length = MACIFY_MAX_SAVED_FPS

/-- `macify_getc_patched`, `macify_skip_r_patch` and the addresses of the three standard streams. -/
structure StdioFlags where
  getcPatched : Bool
  skipRPatch : Bool
  standard : List W64

def StdioFlags.isGlibcStandard (cfg : StdioFlags) (fp : W64) : Bool := cfg.standard.contains fp

namespace Streams

def setFile (fp : W64) (file : File) (st : Streams) : Streams :=
  { st with files := fun x => if x = fp then file else st.files x }

def saveReadPtr (fp : W64) (st : Streams) : Streams :=
  { st with
    saved := st.saved.put fp (st.files fp).readPtr
    saved_length := by rw [Slots.length_put, st.saved_length] }

end Streams

def sanePtr (p : W64) : Bool := p.sshiftRight 32 != 0 && p.sshiftRight 32 != -1

def saneBase (p : W64) : Bool := (0 : W64).slt p && p.sshiftRight 40 == 0

def fixReadEnd (file : File) : File :=
  if sanePtr file.readPtr then
    if file.readEnd < file.readPtr ∨ (65536 : W64).slt (file.readEnd - file.readPtr) then
      { file with readEnd := file.readPtr }
    else file
  else if saneBase file.bufBase then { file with readPtr := file.bufBase, readEnd := file.bufBase }
  else file

namespace Streams

def restoreReadPtr (fp : W64) (st : Streams) : Streams :=
  match st.saved.find fp with
  | some p => st.setFile fp (fixReadEnd { st.files fp with readPtr := p })
  | none => st.setFile fp (fixReadEnd (st.files fp))

def overlay (fp : W64) (st : Streams) : Streams :=
  let file := st.files fp
  st.setFile fp { file with readPtr := file.readPtr &&& ~~~0xFFFFFFFF ||| 0xFFFFFFFF }

end Streams

def Overlaid (p : W64) : Prop := p &&& 0xFFFFFFFF = 0xFFFFFFFF

structure Answer where
  ret : W64
  file : File

abbrev EOF : W64 := -1

structure Wrapper where
  before : Streams → Streams
  after : Streams → Streams

section Wrappers

variable (cfg : StdioFlags) (isMacos : Bool) (fp : W64) (answer : Answer)

def StdioFlags.overlays : Bool := !cfg.getcPatched && !cfg.skipRPatch && !cfg.isGlibcStandard fp

def srget : Wrapper where
  before st := if isMacos && !cfg.getcPatched then st.restoreReadPtr fp else st
  after st :=
    let st := if isMacos && !cfg.getcPatched then st.saveReadPtr fp else st
    if answer.ret ≠ EOF ∧ isMacos ∧ cfg.overlays fp then (st.saveReadPtr fp).overlay fp else st

def fgetc : Wrapper where
  before st := if cfg.getcPatched then st else st.restoreReadPtr fp
  after st :=
    let st := if cfg.getcPatched then st else st.saveReadPtr fp
    if answer.ret ≠ EOF ∧ cfg.overlays fp then st.overlay fp else st

/-- `_IO_ERR_SEEN` is cleared, and `__SEOF` set and `__SERR` cleared unless there was data without an end. -/
def markEof (ret : W64) (file : File) : File :=
  let marked := (file.readEnd ||| 0x20) &&& ~~~0x40
  { file with
    flags := file.flags &&& ~~~0x20
    readEnd := if ret = 0 ∨ file.flags &&& 0x10 ≠ 0 then marked else file.readEnd }

def fread : Wrapper where
  before st := if cfg.getcPatched then st else st.restoreReadPtr fp
  after st :=
    let st := if cfg.getcPatched then st else st.saveReadPtr fp
    let st := st.setFile fp (markEof answer.ret (st.files fp))
    if answer.ret ≠ 0 ∧ cfg.overlays fp then (st.saveReadPtr fp).overlay fp else st

def fgets : Wrapper where
  before st := st
  after st := st

def ungetc : Wrapper where
  before st := if cfg.getcPatched then st else st.restoreReadPtr fp
  after st :=
    if answer.ret ≠ EOF ∧ cfg.overlays fp then (st.saveReadPtr fp).overlay fp else st

def fseeko : Wrapper where
  before st := if cfg.getcPatched then st else st.restoreReadPtr fp
  after st := if cfg.getcPatched then st else st.saveReadPtr fp

/-- A new stream. The retry with the other directory of `terminfo` returns it at once. -/
def fopen (terminfo : Bool) : Wrapper where
  before st := st
  after st := if isMacos && !terminfo then st.saveReadPtr fp else st

/-- A new stream. Here the pointer is overlaid whether or not `getc` is patched. -/
def fdopen : Wrapper where
  before st := st
  after st :=
    if isMacos then
      let st := st.saveReadPtr fp
      if !cfg.skipRPatch && !cfg.isGlibcStandard fp then st.overlay fp else st
    else st

end Wrappers

end Macify.Shim
