import Macify.Image.Types

/-!
# The dylib loader

Model of `macho_load_dylib` (`src/macho_dylib.c`) on parsed files. A call reserves the slot at the current count,
fills it, loads the dependencies, and only then appends the exports and raises the count. The recursive calls
start from the count that the outer call has not raised yet.

`none` means that the calls do not end within the fuel. What does not touch the registry is left out here.
-/

namespace Macify.Dylib
open Lib Image

/-- A symbol table entry (`nlist_64`). The name is `none` when `n_strx` lies past the string table. -/
structure Nlist where
  name : Option Buf
  type : BitVec 8
  value : W64
  deriving DecidableEq

structure DylibFile where
  magic : W32
  filetype : W32
  segments : List SegmentCommand
  loadDylibs : List Buf
  symtab : List Nlist
  deriving DecidableEq

/-- `access(path, R_OK)` and `load_file(path)`. What can be loaded can be accessed. -/
structure FileSystem where
  access : Buf → Bool
  load : Buf → Option DylibFile
  accessible : ∀ p f, load p = some f → access p = true
  nameless : load [] = none

abbrev MH_MAGIC_64 : W32 := 0xFEEDFACF
abbrev MH_DYLIB : W32 := 6

def DylibFile.isDylib (f : DylibFile) : Bool := f.magic == MH_MAGIC_64 && f.filetype == MH_DYLIB

def hasSubstring (needle hay : Buf) : Bool := hay.tails.any fun t => needle.isPrefixOf t

def dirOf (path : Buf) : Buf :=
  match (path.take 4095).reverse.dropWhile (· != 0x2F) with
  | [] => [0x2E]
  | _ :: rest => rest.reverse

def clip (path : Buf) : Buf := path.take 4095

/-- The path of a dependency of a dylib in `dir`. Homebrew placeholders are searched for anywhere in the name. -/
def resolveDep (macifyRoot dir name : Buf) : Buf :=
  let cellar := ascii "@@HOMEBREW_CELLAR@@"
  let brew := ascii "@@HOMEBREW_PREFIX@@"
  if (ascii "@loader_path/").isPrefixOf name then clip (dir ++ ascii "/" ++ name.drop 13)
  else if (ascii "@rpath/").isPrefixOf name then clip (dir ++ ascii "/" ++ name.drop 7)
  else if hasSubstring cellar name then
    clip (macifyRoot ++ ascii "/usr/local/Cellar" ++ name.drop cellar.length)
  else if hasSubstring brew name then
    clip (macifyRoot ++ ascii "/usr/local" ++ name.drop brew.length)
  else if (ascii "/usr/local/").isPrefixOf name then
    clip (macifyRoot ++ ascii "/usr/local/" ++ name.drop 11)
  else clip name

def spans (seg : SegmentCommand) : Bool :=
  decide (0 < seg.vmsize) && !(seg.vmaddr == 0 && decide (0x80000000 < seg.vmsize))

def lowAddr (segs : List SegmentCommand) : W64 :=
  segs.foldl (fun lo seg => if spans seg && decide (seg.vmaddr < lo) then seg.vmaddr else lo) (-1)

/-- `map_dylib_segments`, as far as the registry sees it. A negative slide is a failure to the caller. -/
def mapDylibSegments (base : Option W64) (f : DylibFile) : Option W64 :=
  let lo := lowAddr f.segments
  if lo = -1 then none
  else
    match base with
    | none => none
    | some base => if (base - lo).slt 0 then none else some (base - lo)

structure Export where
  name : Buf
  addr : W64
  deriving DecidableEq

def maxDylibSyms : ℕ := 16384

def exportName (name : Buf) : Buf :=
  ((match name with
    | 0x5F :: rest => rest
    | _ => name) : Buf).take 255

def exportOf (slide : W64) (s : Nlist) : Option Export :=
  if s.type &&& 0x0E ≠ 0x0E then none
  else if s.type &&& 0x01 = 0 then none
  else if s.value = 0 then none
  else
    match s.name with
    | none => none
    | some [] => none
    | some name => some ⟨exportName name, s.value + slide⟩

def parseExports (slide : W64) : List Nlist → List Export → List Export
  | [], acc => acc
  | s :: rest, acc =>
    if acc.length < maxDylibSyms then parseExports slide rest (acc ++ (exportOf slide s).toList)
    else acc

structure DylibEntry where
  name : Buf
  source : Buf
  slide : W64
  exports : List Export
  deriving DecidableEq

def DylibEntry.blank : DylibEntry := ⟨[], [], 0, []⟩

def maxMachoDylibs : ℕ := 64

structure Mapping where
  path : Buf
  base : W64
  slide : W64
  deriving DecidableEq

structure Loader where
  slots : ℕ → DylibEntry
  count : ℕ
  maps : ℕ
  loaded : List Mapping

def Loader.init : Loader := ⟨fun _ => .blank, 0, 0, []⟩

def Loader.setSlot (st : Loader) (i : ℕ) (e : DylibEntry) : Loader :=
  { st with slots := fun j => if j = i then e else st.slots j }

def Loader.registered (st : Loader) (path : Buf) : Bool :=
  (List.range st.count).any fun i => (st.slots i).name == path

structure LoadEnv where
  fs : FileSystem
  macifyRoot : Buf
  mmap : ℕ → Option W64

/-- The branch for a missing `libncurses` leaves the loop body before the step to the next load command. -/
def LoadEnv.stalls (env : LoadEnv) (path name : Buf) : Bool :=
  name.head? == some 0x2F && !hasSubstring (ascii "@@HOMEBREW") name &&
    !hasSubstring (ascii "@rpath") name && !hasSubstring (ascii "@loader_path") name &&
    !env.fs.access (resolveDep env.macifyRoot (dirOf path) name) &&
    !hasSubstring (ascii "libz") name && !hasSubstring (ascii "libresolv") name &&
    !hasSubstring (ascii "libiconv") name && hasSubstring (ascii "libncurses") name

/-- The dependencies that are loaded: those that resolve to an accessible path with `.dylib` in it. -/
def LoadEnv.requested (env : LoadEnv) (path : Buf) (f : DylibFile) : List Buf :=
  let seen := f.loadDylibs.takeWhile fun name => !env.stalls path name
  (seen.map (resolveDep env.macifyRoot (dirOf path))).filter fun dep =>
    hasSubstring (ascii ".dylib") dep && env.fs.access dep

def Loader.reserve (st : Loader) (path : Buf) : Loader :=
  st.setSlot st.count ⟨path.take 255, path, 0, []⟩

def Loader.countMap (st : Loader) (f : DylibFile) : Loader :=
  if lowAddr f.segments = -1 then st else { st with maps := st.maps + 1 }

def Loader.mapped (st : Loader) (md : ℕ) (path : Buf) (f : DylibFile) (slide : W64) : Loader :=
  let st := st.setSlot md { st.slots md with slide := slide }
  { st with loaded := st.loaded ++ [⟨path, lowAddr f.segments + slide, slide⟩] }

/-- Append the exports to the slot `md`, with the slide that the slot has now, and raise the count. -/
def Loader.publish (st : Loader) (md : ℕ) (f : DylibFile) : Loader :=
  let e := st.slots md
  let st := st.setSlot md { e with exports := parseExports e.slide f.symtab e.exports }
  { st with count := st.count + 1 }

/-- `macho_load_dylib`. The result is whether it returns `0`, and the registry. -/
def machoLoadDylib (env : LoadEnv) : ℕ → Buf → Loader → Option (Bool × Loader)
  | 0, _, _ => none
  | fuel + 1, path, st =>
    if maxMachoDylibs ≤ st.count then some (false, st)
    else if st.registered path then some (true, st)
    else
      match env.fs.load path with
      | none => some (false, st)
      | some f =>
        if !f.isDylib then some (false, st)
        else
          let opened := (st.reserve path).countMap f
          match mapDylibSegments (env.mmap st.maps) f with
          -- the slot stays filled but is not published
          | none => some (false, opened)
          | some slide => do
            -- the count is still the old one, so the calls of this loop start at the slot taken above
            let st' ← (env.requested path f).foldlM
              (fun s dep => (machoLoadDylib env fuel dep s).map Prod.snd)
              (opened.mapped st.count path f slide)
            return (true, st'.publish st.count f)

end Macify.Dylib
