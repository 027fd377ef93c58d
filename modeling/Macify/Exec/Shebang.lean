import Macify.Lib.Fields
import Macify.Paths.Translate

/-!
# Scripts

`macify_resolve_entry` (`src/main.c`) follows the `#!` lines of the file named on the command line and
`do_execve_inner` (`shim/shim_spawn.c`) those of the file named in a call of `execve`; the former says that it
mirrors the latter. The file system of the host is a parameter. Only the two buffers of 4096 bytes can be too
small; a `#!` line of at most 511 bytes fits in all the others.
-/

namespace Macify.Exec
open Lib Image Paths

abbrev TAB : UInt8 := 0x09
abbrev LF : UInt8 := 0x0A
abbrev CR : UInt8 := 0x0D
abbrev SPACE : UInt8 := 0x20

abbrev ENOENT : ℕ := 2
abbrev EFAULT : ℕ := 14
abbrev ELOOP : ℕ := 40

abbrev PATH_MAX : ℕ := 4096

structure File where
  /-- Nothing can be read of a directory, or of a file that may not be opened. -/
  bytes : Option Buf
  executable : Bool
  deriving DecidableEq

/-- `macifyBinary` is the result of `get_macify_binary`. The kernel knows no path longer than `PATH_MAX`. -/
structure Host where
  env : PathEnv
  file : Buf → Option File
  realpath : Buf → Option Buf
  macifyBinary : Option Buf
  path_max : ∀ path, (file path).isSome = true → path.length < PATH_MAX

def Host.read (host : Host) (path : Buf) : Option Buf := (host.file path).bind File.bytes

def Host.canExecute (host : Host) (path : Buf) : Bool := (host.file path).any File.executable

def Host.translate (host : Host) (path : Buf) : Option Buf := translatePath host.env path PATH_MAX

def hasMagic (magics : List W32) (bytes : Buf) : Bool :=
  decide (4 ≤ bytes.length) && magics.contains (u32 bytes 0)

def entryMagics : List W32 := [0xFEEDFACF, 0xBEBAFECA]

def execMagics : List W32 := [0xFEEDFACF, 0xCFFAEDFE, 0xFEEDFACE, 0xCEFAEDFE]

def isBlank (b : UInt8) : Bool := b == SPACE || b == TAB

def skipBlanks (s : Buf) : Buf := s.dropWhile isBlank

/-- The string after a terminator has been put on the first of some bytes, if there is one. -/
def cutAt (stops : List UInt8) (s : Buf) : Buf := s.takeWhile fun b => !stops.contains b

abbrev lineEnds : List UInt8 := [0, CR, LF]

def fgets (size : ℕ) (bytes : Buf) : Buf :=
  let s := bytes.take (size - 1)
  s.takeWhile (· != LF) ++ (s.dropWhile (· != LF)).take 1

def macifyEntryParseShebang (bytes : Buf) : Option Buf :=
  let line := bytes.take 511
  if line.length ≤ 2 then none
  else if (ascii "#!").isPrefixOf line then
    let p := skipBlanks ((cutAt lineEnds line).drop 2)
    if p = [] then none else some (cutAt [SPACE] p)
  else none

def splitAt (sep : UInt8) (p : Buf) : Buf × Buf :=
  (cutAt [sep] p, skipBlanks ((p.dropWhile (· != sep)).drop 1))

def parseShebang (bytes : Buf) : Option (Buf × Buf) :=
  let line := fgets 512 bytes
  if (ascii "#!").isPrefixOf line then
    let p := cutAt lineEnds (skipBlanks (line.drop 2))
    if p = [] then none
    else if p.contains SPACE then some (splitAt SPACE p)
    else if p.contains TAB then some (splitAt TAB p)
    else some (p, [])
  else none

structure Start where
  file : Buf
  argv : List Buf
  deriving DecidableEq

def macifyEntryIsMacho (host : Host) (path : Buf) : Bool := (host.read path).any (hasMagic entryMagics)

def Host.translated (host : Host) (path : Buf) : Option Buf :=
  (host.translate path).filter fun t => (host.file t).isSome

def entryFile (host : Host) (path : Buf) : Buf :=
  if (host.file path).isSome then path else (host.translated path).getD path

def interpreterFile (host : Host) (raw : Buf) : Buf := (host.translated raw).getD raw

def hop (host : Host) (eff : Buf) : Option Buf :=
  if macifyEntryIsMacho host eff then none else (host.read eff).bind macifyEntryParseShebang

/-- The loop of `macify_resolve_entry` with `left` more hops allowed. The interpreters read so far
    are listed with the last one first. -/
def followShebangs (host : Host) : ℕ → Buf → List Buf → Buf × List Buf
  | 0, eff, rawtok => (eff, rawtok)
  | left + 1, eff, rawtok =>
    match hop host eff with
    | none => (eff, rawtok)
    | some raw => followShebangs host left (interpreterFile host raw) (raw :: rawtok)

def MACIFY_ENTRY_ARGV_MAX : ℕ := 1024

def macifyResolveEntry (host : Host) (path : Buf) (argv : List Buf) : Start :=
  match followShebangs host 5 (entryFile host path) [] with
  | (eff, []) => ⟨eff, argv⟩
  | (eff, rawtok) =>
    ⟨eff, rawtok ++ path :: argv.tail.take (MACIFY_ENTRY_ARGV_MAX - 1 - (rawtok.length + 1))⟩

inductive Outcome
  | macify (binary target : Buf) (args : List Buf)
  | kernel (path : Buf) (argv : List Buf)
  | error (errno : ℕ)
  deriving DecidableEq

def isMachoBinary (host : Host) (path : Buf) : Bool := (host.read path).any (hasMagic execMagics)

def MACIFY_SHEBANG_MAX_DEPTH : ℕ := 5
def MACIFY_EXEC_MAX_ARGS : ℕ := 1024

def scriptArgs (iarg abspath : Buf) (argv : List Buf) : List Buf :=
  let front := if iarg = [] then [abspath] else [iarg, abspath]
  front ++ argv.tail.take (MACIFY_EXEC_MAX_ARGS - 1 - (front.length + 1))

/-- `left` is `MACIFY_SHEBANG_MAX_DEPTH - depth`. -/
def doExecveInner (host : Host) (left : ℕ) (path : Option Buf) (argv : List Buf) : Outcome :=
  match path with
  | none => .error EFAULT
  | some path =>
    let effPath := kernelPath host.env path PATH_MAX
    match isMachoBinary host effPath, host.macifyBinary with
    | true, some binary => .macify binary effPath argv.tail
    | _, _ =>
      match (host.read effPath).bind parseShebang with
      | none => .kernel effPath argv
      | some (interp, iarg) =>
        let tinterp := kernelPath host.env interp PATH_MAX
        if !host.canExecute tinterp then .error ENOENT
        else
          match left with
          | 0 => .error ELOOP
          | left + 1 =>
            match (if path.head? = some slash then some (snprintf PATH_MAX path) else host.realpath path) with
            | none => .error ENOENT
            | some abspath => doExecveInner host left (some tinterp) (tinterp :: scriptArgs iarg abspath argv)

def macifyHookExecve (host : Host) (path : Option Buf) (argv : List Buf) : Outcome :=
  doExecveInner host MACIFY_SHEBANG_MAX_DEPTH path argv

def Outcome.start (host : Host) : Outcome → Option Start
  | .macify _ target args => some (macifyResolveEntry host target (target :: args))
  | _ => none

end Macify.Exec
