import Macify.Lib.Walk
import Macify.Image.FileRanges
import Macify.Dylib.Load

/-!
# Passes over the load commands

The loader goes over the load commands of a file twelve times: three loops are in `main` (`src/main.c`) and nine, for
a dylib, in `src/macho_dylib.c`. Each makes up to `ncmds` turns and moves its cursor by `cmdsize`. Those of `main`
compare the cursor with `sizeofcmds`, the others with nothing, and none with the size of the file.

A step of a pass is what the body does at one command, without the reads of names.
-/

namespace Macify.Image
open Lib Dylib

abbrev LC_SYMTAB : W32 := 0x02
abbrev LC_UNIXTHREAD : W32 := 0x05
abbrev LC_DYSYMTAB : W32 := 0x0B
abbrev LC_LOAD_DYLIB : W32 := 0x0C
abbrev LC_SEGMENT_64 : W32 := 0x19
abbrev LC_LAZY_LOAD_DYLIB : W32 := 0x20
abbrev LC_DYLD_INFO : W32 := 0x22
abbrev LC_LOAD_WEAK_DYLIB : W32 := 0x80000018
abbrev LC_RPATH : W32 := 0x8000001C
abbrev LC_REEXPORT_DYLIB : W32 := 0x8000001F
abbrev LC_DYLD_INFO_ONLY : W32 := 0x80000022
abbrev LC_MAIN : W32 := 0x80000028
abbrev LC_DYLD_CHAINED_FIXUPS : W32 := 0x80000034

abbrev MH_EXECUTE : W32 := 2
abbrev x86_THREAD_STATE64 : W32 := 4

def maxRpaths : ℕ := 16
def maxDylibs : ℕ := 32

inductive Pass where
  -- `main`; the first is there twice, for a file with `MH_PIE` and for one without
  | spanScan
  | rpathScan
  | mainWalk
  -- `map_dylib_segments`
  | dylibSpan
  | dylibMap
  -- `macho_load_dylib`, which calls `parse_dylib_exports`
  | dylibText
  | dylibDeps
  | dylibSegs
  | dylibExports
  | dylibBinds
  | dylibSymtab
  | dylibSections
  deriving DecidableEq

def sizeofHeader : ℕ := 32

def ncmds (img : Buf) : ℕ := (u32 img 16).toNat
def sizeofcmds (img : Buf) : ℕ := (u32 img 20).toNat

def lcEnd (img : Buf) : ℕ := sizeofHeader + sizeofcmds img

def Pass.filetype : Pass → W32
  | .spanScan | .rpathScan | .mainWalk => MH_EXECUTE
  | _ => MH_DYLIB

def Pass.validHeader (p : Pass) (file : Buf) : Bool :=
  decide (sizeofHeader ≤ file.length) && u32 file 0 == MH_MAGIC_64 &&
    u32 file 4 == CPU_TYPE_X86_64 && u32 file 12 == p.filetype

def cmd (img : Buf) (c : ℕ) : W32 := u32 img c
def cmdsize (img : Buf) (c : ℕ) : ℕ := (u32 img (c + 4)).toNat

def charArray (img : Buf) (o : ℕ) : Buf := ((img.drop o).take 16).takeWhile (· != 0)

def sectionAt (img : Buf) (o : ℕ) : Section64 where
  sectname := charArray img o
  segname := charArray img (o + 16)
  addr := u64 img (o + 32)
  size := u64 img (o + 40)
  offset := u32 img (o + 48)
  flags := u32 img (o + 64)
  reserved1 := u32 img (o + 68)
  reserved2 := u32 img (o + 72)

def segmentAt (img : Buf) (c : ℕ) : SegmentCommand where
  segname := charArray img (c + 8)
  vmaddr := u64 img (c + 24)
  vmsize := u64 img (c + 32)
  fileoff := u64 img (c + 40)
  filesize := u64 img (c + 48)
  initprot := u32 img (c + 60)
  sects := (List.range (u32 img (c + 64)).toNat).map fun i => sectionAt img (c + 72 + 80 * i)

def dylibName (img : Buf) (c : ℕ) : Buf :=
  (img.drop (c + (u32 img (c + 8)).toNat)).takeWhile (· != 0)

structure PassState where
  nrpaths : ℕ
  tables : Tables
  ndylibs : ℕ
  ndsegs : ℕ
  symoff : W32
  nsyms : W32
  stroff : W32
  indirectsymoff : W32
  deriving DecidableEq

/-- The slide, the accessible memory, the dylibs and their handles, the file system, the path of a dylib, and the
    bytes behind the file. -/
structure PassEnv where
  slide : W64
  accessible : SegmentCommand → Bool
  ndylibs : ℕ
  linked : ℕ → Bool
  load : LoadEnv
  path : Buf
  after : Buf

def PassEnv.image (env : PassEnv) (file : Buf) : Buf := file ++ env.after

def PassEnv.mapEnv (env : PassEnv) (file : Buf) : MapEnv :=
  ⟨env.slide, BitVec.ofNat 64 file.length, env.accessible⟩

def PassEnv.start (env : PassEnv) : PassState := ⟨0, ⟨[], []⟩, env.ndylibs, 0, 0, 0, 0, 0⟩

structure Step where
  fields : List (ℕ × ℕ)
  lookups : List (ℕ × ℕ)
  move : Move
  state : PassState

abbrev Step.next (fields : List (ℕ × ℕ)) (s : PassState) : Step := ⟨fields, [], .next, s⟩
abbrev Step.stay (fields : List (ℕ × ℕ)) (s : PassState) : Step := ⟨fields, [], .stay, s⟩
abbrev Step.leave (fields : List (ℕ × ℕ)) (s : PassState) : Step := ⟨fields, [], .leave, s⟩

section Bodies

variable (env : PassEnv) (m : MapEnv) (img : Buf) (c : ℕ) (s : PassState)

def Step.spanScan : Step :=
  if cmdsize img c = 0 then .leave [(0, 4), (4, 4)] s
  else if cmd img c = LC_SEGMENT_64 ∧ (segmentAt img c).isPagezero = false then
    if 0 < (segmentAt img c).vmsize then .next [(0, 4), (4, 4), (32, 8), (24, 8)] s
    else .next [(0, 4), (4, 4), (32, 8)] s
  else .next [(0, 4), (4, 4)] s

def Step.rpathScan : Step :=
  if cmd img c = LC_RPATH ∧ s.nrpaths < maxRpaths then
    .next [(0, 4), (4, 4), (8, 4)] { s with nrpaths := s.nrpaths + 1 }
  else .next [(0, 4), (4, 4)] s

def sectionFields (o : ℕ) : List (ℕ × ℕ) :=
  [(o + 32, 8), (o + 40, 8), (o + 48, 4), (o + 64, 4), (o + 68, 4), (o + 72, 4)]

/-- The fields that `map_segment` reads. It stops at the first section that has no room in the table. -/
def mapSegmentFields (t : Tables) (seg : SegmentCommand) : List (ℕ × ℕ) :=
  if maxSegments ≤ t.segments.length then []
  else if seg.vmsize = 0 then [(32, 8)]
  else if seg.isPagezero then [(32, 8), (24, 8)]
  else if !m.accessible seg then [(32, 8), (24, 8), (60, 4)]
  else if 0 < seg.filesize ∧ m.fileSize < seg.fileoff + seg.filesize then
    [(32, 8), (24, 8), (60, 4), (48, 8), (40, 8)]
  else
    [(32, 8), (24, 8), (60, 4), (48, 8)] ++ (if 0 < seg.filesize then [(40, 8)] else []) ++ [(64, 4)] ++
      (List.range (min seg.sects.length (maxSections - t.sections.length))).flatMap fun i =>
        sectionFields (72 + 80 * i)

def loadsDylib (cmd : W32) : Bool :=
  cmd == LC_LOAD_DYLIB || cmd == LC_LOAD_WEAK_DYLIB || cmd == LC_REEXPORT_DYLIB ||
    cmd == LC_LAZY_LOAD_DYLIB

def infoFields : List (ℕ × ℕ) :=
  if cmd img c = LC_UNIXTHREAD then
    if u32 img (c + 8) = x86_THREAD_STATE64 ∧ u32 img (c + 12) = 42 then [(8, 4), (12, 4), (144, 8)]
    else [(8, 4), (12, 4)]
  else if cmd img c = LC_MAIN then [(8, 8)]
  else if cmd img c = LC_DYLD_INFO_ONLY then [(8, 4), (12, 4), (16, 4), (20, 4), (32, 4), (36, 4)]
  else if cmd img c = LC_SYMTAB then [(8, 4), (12, 4), (16, 4), (20, 4)]
  else if cmd img c = LC_DYSYMTAB then [(56, 4), (60, 4)]
  else if cmd img c = LC_DYLD_CHAINED_FIXUPS then [(8, 4), (12, 4)]
  else []

def Step.mainWalk : Step :=
  if cmdsize img c = 0 ∨ lcEnd img < c + cmdsize img c then .leave [(0, 4), (4, 4)] s
  else if cmd img c = LC_SEGMENT_64 then
    match mapSegment m s.tables (segmentAt img c) with
    | none => .leave ([(0, 4), (4, 4)] ++ mapSegmentFields m s.tables (segmentAt img c)) s
    | some t =>
      .next ([(0, 4), (4, 4)] ++ mapSegmentFields m s.tables (segmentAt img c)) { s with tables := t }
  else if loadsDylib (cmd img c) then
    if maxDylibs ≤ s.ndylibs ∨ env.linked s.ndylibs = false then .leave [(0, 4), (4, 4), (8, 4)] s
    else .next [(0, 4), (4, 4), (8, 4)] { s with ndylibs := s.ndylibs + 1 }
  else .next ([(0, 4), (4, 4)] ++ infoFields img c) s

def Step.dylibSpan : Step :=
  if cmd img c = LC_SEGMENT_64 then
    if 0 < (segmentAt img c).vmsize then .next [(0, 4), (32, 8), (24, 8), (4, 4)] s
    else .next [(0, 4), (32, 8), (4, 4)] s
  else .next [(0, 4), (4, 4)] s

/-- An empty segment or the page zero is passed over with `continue`, without the step to the next load command. -/
def Step.dylibMap : Step :=
  if cmd img c = LC_SEGMENT_64 then
    if (segmentAt img c).vmsize = 0 then .stay [(0, 4), (32, 8)] s
    else if (segmentAt img c).vmaddr = 0 ∧ 0x80000000 ≤ (segmentAt img c).vmsize then
      .stay [(0, 4), (32, 8), (24, 8)] s
    else if 0 < (segmentAt img c).filesize then
      .next [(0, 4), (32, 8), (24, 8), (60, 4), (48, 8), (40, 8), (4, 4)] s
    else .next [(0, 4), (32, 8), (24, 8), (60, 4), (48, 8), (4, 4)] s
  else .next [(0, 4), (4, 4)] s

def Step.dylibText : Step :=
  if cmd img c = LC_SEGMENT_64 ∧ (segmentAt img c).segname = ascii "__TEXT" then
    if 0 < (segmentAt img c).vmsize then .leave [(0, 4), (32, 8), (24, 8)] s
    else .next [(0, 4), (32, 8), (4, 4)] s
  else .next [(0, 4), (4, 4)] s

def Step.dylibDeps : Step :=
  if cmd img c = LC_LOAD_DYLIB ∨ cmd img c = LC_LOAD_WEAK_DYLIB then
    if env.load.stalls env.path (dylibName img c) then .stay [(0, 4), (8, 4)] s
    else .next [(0, 4), (8, 4), (4, 4)] s
  else .next [(0, 4), (4, 4)] s

def Step.dylibSegs : Step :=
  if cmd img c = LC_SEGMENT_64 then
    if 0 < (segmentAt img c).vmsize ∧ s.ndsegs < maxDylibSegs then
      .next [(0, 4), (32, 8), (24, 8), (40, 8), (48, 8), (4, 4)] { s with ndsegs := s.ndsegs + 1 }
    else .next [(0, 4), (32, 8), (4, 4)] s
  else if cmd img c = LC_DYLD_INFO_ONLY ∨ cmd img c = LC_DYLD_INFO then
    .next [(0, 4), (8, 4), (12, 4), (4, 4)] s
  else if cmd img c = LC_DYLD_CHAINED_FIXUPS then .next [(0, 4), (8, 4), (12, 4), (4, 4)] s
  else .next [(0, 4), (4, 4)] s

def Step.dylibExports : Step :=
  if cmd img c = LC_SYMTAB then .leave [(0, 4), (8, 4), (12, 4), (16, 4), (20, 4)] s
  else .next [(0, 4), (4, 4)] s

def Step.dylibBinds : Step :=
  if cmd img c = LC_DYLD_INFO_ONLY ∨ cmd img c = LC_DYLD_INFO then
    .leave [(0, 4), (16, 4), (20, 4), (32, 4), (36, 4)] s
  else .next [(0, 4), (4, 4)] s

def Step.dylibSymtab : Step :=
  if cmd img c = LC_SYMTAB then
    .next [(0, 4), (8, 4), (12, 4), (16, 4), (20, 4), (4, 4)]
      { s with symoff := u32 img (c + 8), nsyms := u32 img (c + 12), stroff := u32 img (c + 16) }
  else if cmd img c = LC_DYSYMTAB then
    .next [(0, 4), (56, 4), (4, 4)] { s with indirectsymoff := u32 img (c + 56) }
  else .next [(0, 4), (4, 4)] s

def isPointers (sect : Section64) : Bool := sect.flags &&& 0xFF == 6 || sect.flags &&& 0xFF == 7

def nEntries (sect : Section64) : ℕ := (sect.size / 8).toNat % 2 ^ 32

/-- The entry of the indirect symbol table for slot `k`. The index is a 32-bit sum. -/
def indirectAt (sect : Section64) (k : ℕ) : ℕ :=
  s.indirectsymoff.toNat + 4 * ((sect.reserved1.toNat + k) % 2 ^ 32)

def symIdx (sect : Section64) (k : ℕ) : W32 := u32 img (indirectAt s sect k)

def inSymtab (sect : Section64) (k : ℕ) : Bool :=
  symIdx img s sect k &&& 0x80000000 == 0 && decide (symIdx img s sect k < s.nsyms)

def nlistAt (sect : Section64) (k : ℕ) : ℕ := s.symoff.toNat + 16 * (symIdx img s sect k).toNat

def slotLookups (sect : Section64) (k : ℕ) : List (ℕ × ℕ) :=
  (indirectAt s sect k, 4) :: if inSymtab img s sect k then [(nlistAt img s sect k, 4)] else []

def sectionLookups (o : ℕ) : List (ℕ × ℕ) :=
  let sect := sectionAt img o
  if isPointers sect then
    if sect.reserved1 = 0 then [(o + 64, 4), (o + 68, 4)]
    else
      [(o + 64, 4), (o + 68, 4), (o + 40, 8), (o + 32, 8)] ++
        (List.range (nEntries sect)).flatMap (slotLookups img s sect)
  else [(o + 64, 4)]

def Step.dylibSections : Step :=
  if cmd img c = LC_SEGMENT_64 then
    { Step.next [(0, 4), (64, 4), (4, 4)] s with
      lookups := (List.range (u32 img (c + 64)).toNat).flatMap fun j =>
        sectionLookups img s (c + 72 + 80 * j) }
  else .next [(0, 4), (4, 4)] s

end Bodies

def Pass.step (p : Pass) (env : PassEnv) (file : Buf) (c : ℕ) (s : PassState) : Step :=
  let img := env.image file
  match p with
  | .spanScan => .spanScan img c s
  | .rpathScan => .rpathScan img c s
  | .mainWalk => .mainWalk env (env.mapEnv file) img c s
  | .dylibSpan => .dylibSpan img c s
  | .dylibMap => .dylibMap img c s
  | .dylibText => .dylibText img c s
  | .dylibDeps => .dylibDeps env img c s
  | .dylibSegs => .dylibSegs img c s
  | .dylibExports => .dylibExports img c s
  | .dylibBinds => .dylibBinds img c s
  | .dylibSymtab => .dylibSymtab img c s
  | .dylibSections => .dylibSections img c s

def Pass.guard (p : Pass) (img : Buf) (c : ℕ) : Bool :=
  match p with
  | .spanScan | .rpathScan | .mainWalk => decide (c + 8 ≤ lcEnd img)
  | _ => true

def Pass.walk (p : Pass) (env : PassEnv) (file : Buf) : Walk PassState where
  guard := p.guard (env.image file)
  size := cmdsize (env.image file)
  reads c s := (p.step env file c s).fields.map (fun f => (c + f.1, f.2)) ++ (p.step env file c s).lookups
  move c s := (p.step env file c s).move
  update c s := (p.step env file c s).state

def Pass.init (p : Pass) (env : PassEnv) (file : Buf) : PassState :=
  if p = .dylibSections then
    (Pass.dylibSymtab.walk env file).final (ncmds (env.image file)) sizeofHeader env.start
  else env.start

/-- How many turns a loop may make. The last one is left out when a table is missing. -/
def Pass.turns (p : Pass) (env : PassEnv) (file : Buf) : ℕ :=
  let s := p.init env file
  if p = .dylibSections ∧ (s.indirectsymoff = 0 ∨ s.symoff = 0 ∨ s.stroff = 0) then 0
  else ncmds (env.image file)

def Pass.run (p : Pass) (env : PassEnv) (file : Buf) : List Turn :=
  (p.walk env file).run (p.turns env file) sizeofHeader (p.init env file)

def mapSegmentNeed (m : MapEnv) (t : Tables) (seg : SegmentCommand) : ℕ :=
  if maxSegments ≤ t.segments.length then 8
  else if seg.vmsize = 0 ∨ seg.isPagezero = true then 40
  else if m.accessible seg = false ∨ (0 < seg.filesize ∧ m.fileSize < seg.fileoff + seg.filesize) then 64
  else 68 + 80 * min seg.sects.length (maxSections - t.sections.length)

def infoNeed (img : Buf) (c : ℕ) : ℕ :=
  if cmd img c = LC_UNIXTHREAD then
    if u32 img (c + 8) = x86_THREAD_STATE64 ∧ u32 img (c + 12) = 42 then 152 else 16
  else if cmd img c = LC_MAIN then 16
  else if cmd img c = LC_DYLD_INFO_ONLY then 40
  else if cmd img c = LC_SYMTAB then 24
  else if cmd img c = LC_DYSYMTAB then 64
  else if cmd img c = LC_DYLD_CHAINED_FIXUPS then 16
  else 8

def mainWalkNeed (m : MapEnv) (t : Tables) (img : Buf) (c : ℕ) : ℕ :=
  if cmdsize img c = 0 ∨ lcEnd img < c + cmdsize img c then 8
  else if cmd img c = LC_SEGMENT_64 then mapSegmentNeed m t (segmentAt img c)
  else if loadsDylib (cmd img c) then 12
  else infoNeed img c

def Pass.stalls (p : Pass) (env : PassEnv) (file : Buf) (c : ℕ) : Bool :=
  let img := env.image file
  match p with
  | .dylibMap =>
    decide (cmd img c = LC_SEGMENT_64 ∧ ((segmentAt img c).vmsize = 0 ∨
      ((segmentAt img c).vmaddr = 0 ∧ 0x80000000 ≤ (segmentAt img c).vmsize)))
  | .dylibDeps =>
    decide (cmd img c = LC_LOAD_DYLIB ∨ cmd img c = LC_LOAD_WEAK_DYLIB) &&
      env.load.stalls env.path (dylibName img c)
  | _ => false

def Pass.need (p : Pass) (env : PassEnv) (file : Buf) (c : ℕ) (s : PassState) : ℕ :=
  let img := env.image file
  match p with
  | .spanScan =>
    if cmdsize img c = 0 then 8
    else if cmd img c = LC_SEGMENT_64 ∧ (segmentAt img c).isPagezero = false then 40
    else 8
  | .rpathScan => if cmd img c = LC_RPATH ∧ s.nrpaths < maxRpaths then 12 else 8
  | .mainWalk => mainWalkNeed (env.mapEnv file) s.tables img c
  | .dylibSpan => if cmd img c = LC_SEGMENT_64 then 40 else 8
  | .dylibMap =>
    if cmd img c = LC_SEGMENT_64 then if Pass.dylibMap.stalls env file c then 40 else 64 else 8
  | .dylibText =>
    if cmd img c = LC_SEGMENT_64 ∧ (segmentAt img c).segname = ascii "__TEXT" then 40 else 8
  | .dylibDeps => if cmd img c = LC_LOAD_DYLIB ∨ cmd img c = LC_LOAD_WEAK_DYLIB then 12 else 8
  | .dylibSegs =>
    if cmd img c = LC_SEGMENT_64 then
      if 0 < (segmentAt img c).vmsize ∧ s.ndsegs < maxDylibSegs then 56 else 40
    else if cmd img c = LC_DYLD_INFO_ONLY ∨ cmd img c = LC_DYLD_INFO then 16
    else if cmd img c = LC_DYLD_CHAINED_FIXUPS then 16
    else 8
  | .dylibExports => if cmd img c = LC_SYMTAB then 24 else 8
  | .dylibBinds => if cmd img c = LC_DYLD_INFO_ONLY ∨ cmd img c = LC_DYLD_INFO then 40 else 8
  | .dylibSymtab =>
    if cmd img c = LC_SYMTAB then 24 else if cmd img c = LC_DYSYMTAB then 60 else 8
  | .dylibSections => if cmd img c = LC_SEGMENT_64 then 68 else 8

structure SectionInside (img : Buf) (s : PassState) (limit o : ℕ) : Prop where
  header : o + (if isPointers (sectionAt img o) then 72 else 68) ≤ limit
  slots : isPointers (sectionAt img o) = true → (sectionAt img o).reserved1 ≠ 0 →
    ∀ k < nEntries (sectionAt img o), indirectAt s (sectionAt img o) k + 4 ≤ limit ∧
      (inSymtab img s (sectionAt img o) k = true → nlistAt img s (sectionAt img o) k + 4 ≤ limit)

structure Pass.Sound (p : Pass) (env : PassEnv) (file : Buf) (c : ℕ) (s : PassState) : Prop where
  inside : c + p.need env file c s ≤ file.length
  sections : p = .dylibSections → cmd (env.image file) c = LC_SEGMENT_64 →
    ∀ j < (u32 (env.image file) (c + 64)).toNat,
      SectionInside (env.image file) s file.length (c + 72 + 80 * j)
  moves : p.stalls env file c = false
  nonempty : (p.step env file c s).move = .next → cmdsize (env.image file) c ≠ 0

section Needs

variable {env : PassEnv} {m : MapEnv} {img file : Buf} {c o n limit : ℕ} {s : PassState} {p : Pass}

lemma extent_sectionFields : extent (sectionFields o) = o + 76 := by
  simp only [sectionFields, extent_cons, extent_nil]
  omega

lemma extent_sections :
    max 68 (extent ((List.range n).flatMap fun i => sectionFields (72 + 80 * i))) = 68 + 80 * n := by
  induction n with
  | zero => rfl
  | succ n ih =>
    rw [List.range_succ, List.flatMap_append, extent_append, List.flatMap_singleton,
      extent_sectionFields, ← max_assoc, ih]
    omega

lemma extent_mapSegmentFields {t : Tables} {seg : SegmentCommand} :
    max 8 (extent (mapSegmentFields m t seg)) = mapSegmentNeed m t seg := by
  unfold mapSegmentFields mapSegmentNeed
  split
  · rfl
  split
  · next empty => rw [if_pos (.inl empty)]; rfl
  next nonempty =>
  split
  · next zero => rw [if_pos (.inr zero)]; rfl
  next other =>
  rw [if_neg (not_or.mpr ⟨nonempty, other⟩)]
  split
  · next failed => rw [if_pos (.inl (by simpa using failed))]; rfl
  next mapped =>
  split
  · next past => rw [if_pos (.inr past)]; rfl
  next fits =>
  rw [if_neg (not_or.mpr ⟨by simpa using mapped, fits⟩), ← extent_sections, extent_append,
    extent_append, extent_append]
  split
  · rw [← max_assoc]; rfl
  · rw [← max_assoc]; rfl

lemma extent_infoFields : max 8 (extent (infoFields img c)) = infoNeed img c := by
  unfold infoFields infoNeed
  repeat' split
  all_goals rfl

lemma extent_mainWalk : extent (Step.mainWalk env m img c s).fields = mainWalkNeed m s.tables img c := by
  unfold Step.mainWalk mainWalkNeed
  split
  · rfl
  split
  · split
    · exact extent_append.trans extent_mapSegmentFields
    · exact extent_append.trans extent_mapSegmentFields
  split
  · split
    · rfl
    · rfl
  · exact extent_append.trans extent_infoFields

lemma dylibMap_stalls_iff (segment : cmd (env.image file) c = LC_SEGMENT_64) :
    Pass.dylibMap.stalls env file c = true ↔ (segmentAt (env.image file) c).vmsize = 0 ∨
      ((segmentAt (env.image file) c).vmaddr = 0 ∧
        0x80000000 ≤ (segmentAt (env.image file) c).vmsize) := by
  rw [Pass.stalls, decide_eq_true_iff, and_iff_right segment]

lemma extent_dylibMap : extent (Step.dylibMap (env.image file) c s).fields =
    Pass.dylibMap.need env file c s := by
  unfold Step.dylibMap
  dsimp only [Pass.need]
  split
  · next segment =>
    split
    · next empty => rw [if_pos ((dylibMap_stalls_iff segment).mpr (.inl empty))]; rfl
    split
    · next zero => rw [if_pos ((dylibMap_stalls_iff segment).mpr (.inr zero))]; rfl
    next nonempty other =>
    have moves := mt (dylibMap_stalls_iff segment).mp (not_or.mpr ⟨nonempty, other⟩)
    rw [if_neg moves]
    split
    · rfl
    · rfl
  · rfl

lemma extent_fields : extent (p.step env file c s).fields = p.need env file c s := by
  cases p
  case mainWalk => exact extent_mainWalk
  case dylibMap => exact extent_dylibMap
  -- the other loops have one number for each branch
  all_goals
    dsimp only [Pass.step, Pass.need, Step.spanScan, Step.rpathScan, Step.dylibSpan, Step.dylibText,
      Step.dylibDeps, Step.dylibSegs, Step.dylibExports, Step.dylibBinds, Step.dylibSymtab,
      Step.dylibSections]
    repeat' split
    all_goals rfl

lemma mainWalk_form : ∃ fields move state,
    Step.mainWalk env m img c s = ⟨(0, 4) :: fields, [], move, state⟩ ∧ move ≠ .stay := by
  unfold Step.mainWalk
  repeat' split
  all_goals exact ⟨_, _, _, rfl, nofun⟩

lemma step_form (ne : p ≠ .dylibSections) : ∃ fields move state,
    p.step env file c s = ⟨(0, 4) :: fields, [], move, state⟩ := by
  cases p
  case dylibSections => exact absurd rfl ne
  case mainWalk =>
    obtain ⟨fields, move, state, form, -⟩ := @mainWalk_form env (env.mapEnv file) (env.image file) c s
    exact ⟨fields, move, state, form⟩
  all_goals
    dsimp only [Pass.step, Step.spanScan, Step.rpathScan, Step.dylibSpan, Step.dylibMap,
      Step.dylibText, Step.dylibDeps, Step.dylibSegs, Step.dylibExports, Step.dylibBinds,
      Step.dylibSymtab]
    repeat' split
    all_goals exact ⟨_, _, _, rfl⟩

lemma dylibSections_fields_ne_nil : (Step.dylibSections img c s).fields ≠ [] := by
  unfold Step.dylibSections
  split
  · exact List.cons_ne_nil _ _
  · exact List.cons_ne_nil _ _

lemma fields_ne_nil : (p.step env file c s).fields ≠ [] := by
  by_cases last : p = .dylibSections
  · subst last
    exact dylibSections_fields_ne_nil
  · obtain ⟨fields, move, state, form⟩ := @step_form env file c s p last
    rw [form]
    exact List.cons_ne_nil _ _

lemma lookups_eq_nil (ne : p ≠ .dylibSections) : (p.step env file c s).lookups = [] := by
  obtain ⟨fields, move, state, form⟩ := @step_form env file c s p ne
  rw [form]

lemma move_eq_stay_iff : (p.step env file c s).move = .stay ↔ p.stalls env file c = true := by
  cases p
  case dylibMap =>
    dsimp only [Pass.step, Step.dylibMap]
    split
    · next segment =>
      rw [dylibMap_stalls_iff segment]
      split_ifs <;> simp_all
    · next other =>
      exact iff_of_false (show Move.next ≠ .stay from nofun)
        fun stalled => other (of_decide_eq_true stalled).1
  case dylibDeps =>
    dsimp only [Pass.step, Step.dylibDeps, Pass.stalls]
    split_ifs <;> simp_all
  case mainWalk =>
    obtain ⟨_, _, _, form, moves⟩ := @mainWalk_form env (env.mapEnv file) (env.image file) c s
    refine iff_of_false ?_ Bool.false_ne_true
    rw [Pass.step, form]
    exact moves
  all_goals
    refine iff_of_false ?_ Bool.false_ne_true
    dsimp only [Pass.step, Step.spanScan, Step.rpathScan, Step.dylibSpan, Step.dylibText,
      Step.dylibSegs, Step.dylibExports, Step.dylibBinds, Step.dylibSymtab, Step.dylibSections]
    repeat' split
    all_goals exact nofun

lemma slotLookups_inside_iff {sect : Section64} {k : ℕ} :
    (∀ r ∈ slotLookups img s sect k, r.1 + r.2 ≤ limit) ↔ indirectAt s sect k + 4 ≤ limit ∧
      (inSymtab img s sect k = true → nlistAt img s sect k + 4 ≤ limit) := by
  rw [slotLookups, List.forall_mem_cons]
  split
  · next listed => rw [List.forall_mem_singleton, forall_prop_of_true listed]
  · next skipped =>
    exact and_congr_right fun _ => iff_of_true (fun _ mem => absurd mem List.not_mem_nil)
      fun listed => absurd listed skipped

lemma sectionLookups_inside_iff :
    (∀ r ∈ sectionLookups img s o, r.1 + r.2 ≤ limit) ↔ SectionInside img s limit o := by
  unfold sectionLookups
  dsimp only
  split
  · next pointers =>
    split
    · next unused =>
      constructor
      · intro inside
        have header := inside (o + 68, 4) (by simp)
        exact ⟨by rw [if_pos pointers]; exact header, fun _ used => absurd unused used⟩
      · intro inside
        have header := inside.header
        rw [if_pos pointers] at header
        simp only [List.forall_mem_cons, List.not_mem_nil, false_imp_iff, implies_true, and_true]
        omega
    · next used =>
      have slots : (∀ r ∈ (List.range (nEntries (sectionAt img o))).flatMap
          (slotLookups img s (sectionAt img o)), r.1 + r.2 ≤ limit) ↔
          ∀ k < nEntries (sectionAt img o), indirectAt s (sectionAt img o) k + 4 ≤ limit ∧
            (inSymtab img s (sectionAt img o) k = true →
              nlistAt img s (sectionAt img o) k + 4 ≤ limit) := by
        simp only [List.forall_mem_flatMap, slotLookups_inside_iff, List.mem_range]
      rw [List.forall_mem_append, slots]
      constructor
      · intro ⟨inside, slots⟩
        have header := inside (o + 68, 4) (by simp)
        exact ⟨by rw [if_pos pointers]; exact header, fun _ _ => slots⟩
      · intro inside
        have header := inside.header
        rw [if_pos pointers] at header
        refine ⟨?_, inside.slots pointers used⟩
        simp only [List.forall_mem_cons, List.not_mem_nil, false_imp_iff, implies_true, and_true]
        omega
  · next other =>
    rw [List.forall_mem_singleton]
    constructor
    · intro header
      exact ⟨by rw [if_neg other]; exact header, fun pointers => absurd pointers other⟩
    · intro inside
      have header := inside.header
      rwa [if_neg other] at header

lemma reads_inside_iff : (∀ r ∈ (p.walk env file).reads c s, r.1 + r.2 ≤ file.length) ↔
    c + p.need env file c s ≤ file.length ∧
      (p = .dylibSections → cmd (env.image file) c = LC_SEGMENT_64 →
        ∀ j < (u32 (env.image file) (c + 64)).toNat,
          SectionInside (env.image file) s file.length (c + 72 + 80 * j)) := by
  show (∀ r ∈ (p.step env file c s).fields.map (fun f => (c + f.1, f.2)) ++
    (p.step env file c s).lookups, r.1 + r.2 ≤ file.length) ↔ _
  rw [List.forall_mem_append, List.forall_mem_map, fields_inside_iff fields_ne_nil, extent_fields]
  refine and_congr_right fun _ => ?_
  by_cases last : p = .dylibSections
  · subst last
    rw [forall_prop_of_true rfl]
    dsimp only [Pass.step, Step.dylibSections]
    split
    · next segment =>
      rw [forall_prop_of_true segment]
      simp only [List.forall_mem_flatMap, List.mem_range, sectionLookups_inside_iff]
    · next other =>
      exact iff_of_true (fun _ mem => absurd mem List.not_mem_nil) fun segment => absurd segment other
  · rw [lookups_eq_nil last]
    exact iff_of_true (fun _ mem => absurd mem List.not_mem_nil) fun e => absurd e last

lemma fits_iff {k : ℕ} {s : PassState} : (p.walk env file).Fits file.length c s k ↔
    p.Sound env file ((p.walk env file).offsetAt c k) ((p.walk env file).stateAt c s k) := by
  constructor
  · intro fits
    have ⟨inside, sections⟩ := reads_inside_iff.mp fits.inside
    exact ⟨inside, sections, Bool.eq_false_iff.mpr fun stalled => fits.moves (move_eq_stay_iff.mpr stalled),
      fits.nonempty⟩
  · intro sound
    exact ⟨reads_inside_iff.mpr ⟨sound.inside, sound.sections⟩,
      fun stay => Bool.eq_false_iff.mp sound.moves (move_eq_stay_iff.mp stay), sound.nonempty⟩

lemma turns_le : p.turns env file ≤ ncmds (env.image file) := by
  unfold Pass.turns
  dsimp only
  split
  · exact Nat.zero_le _
  · exact le_rfl

end Needs

/-- A pass reads inside the file and moves forwards exactly when every command it comes to is fit for it. -/
theorem load_commands_safe_iff (p : Pass) (env : PassEnv) (file : Buf) :
    ((p.run env file).length ≤ ncmds (env.image file) ∧
        ∀ t ∈ p.run env file, t.Safe file.length) ↔
      ∀ k < p.turns env file, (p.walk env file).Reaches sizeofHeader (p.init env file) k →
        p.Sound env file ((p.walk env file).offsetAt sizeofHeader k)
          ((p.walk env file).stateAt sizeofHeader (p.init env file) k) := by
  rw [Pass.run, and_iff_right (Walk.length_run_le.trans turns_le), Walk.run_safe_iff]
  exact forall_congr' fun k => imp_congr_right fun _ => imp_congr_right fun _ => fits_iff

def commandOffset (img : Buf) : ℕ → ℕ
  | 0 => sizeofHeader
  | k + 1 => commandOffset img k + cmdsize img (commandOffset img k)

def segmentCommands (img : Buf) (k : ℕ) : List SegmentCommand :=
  (List.range k).filterMap fun j =>
    if cmd img (commandOffset img j) = LC_SEGMENT_64 then some (segmentAt img (commandOffset img j))
    else none

section FilledTables

variable {env : PassEnv} {m : MapEnv} {img file : Buf} {c k : ℕ} {s : PassState} {p : Pass}

lemma offsetAt_walk : (p.walk env file).offsetAt sizeofHeader k = commandOffset (env.image file) k := by
  induction k with
  | zero => rfl
  | succ k ih => rw [Walk.offsetAt, ih, commandOffset]; rfl

lemma segmentCommands_succ : segmentCommands img (k + 1) =
    if cmd img (commandOffset img k) = LC_SEGMENT_64 then
      segmentCommands img k ++ [segmentAt img (commandOffset img k)]
    else segmentCommands img k := by
  rw [segmentCommands, List.range_succ, List.filterMap_append, ← segmentCommands]
  split
  · next segment => rw [List.filterMap_cons, if_pos segment, List.filterMap_nil]
  · next other => rw [List.filterMap_cons, if_neg other, List.filterMap_nil, List.append_nil]

lemma mainWalk_tables (next : (Step.mainWalk env m img c s).move = .next) :
    (if cmd img c = LC_SEGMENT_64 then mapSegment m s.tables (segmentAt img c) else some s.tables) =
      some (Step.mainWalk env m img c s).state.tables := by
  unfold Step.mainWalk at next ⊢
  split at next
  · cases next
  next inside =>
  rw [if_neg inside]
  split at next
  · next segment =>
    rw [if_pos segment, if_pos segment]
    split at next
    · cases next
    · next mapped => rw [mapped]
  next other =>
  rw [if_neg other, if_neg other]
  split
  · split
    · rfl
    · rfl
  · rfl

/-- The tables of the walk on the bytes of the file are those of `mapSegments` on its segment commands. -/
theorem main_walk_tables
    (walked : ∀ j < k, ((Pass.mainWalk.walk env file).move ((Pass.mainWalk.walk env file).offsetAt
      sizeofHeader j) ((Pass.mainWalk.walk env file).stateAt sizeofHeader env.start j)) = .next) :
    mapSegments (env.mapEnv file) (segmentCommands (env.image file) k) =
      some ((Pass.mainWalk.walk env file).stateAt sizeofHeader env.start k).tables := by
  induction k with
  | zero => rfl
  | succ k ih =>
    have before := ih fun j lt => walked j (Nat.lt_succ_of_lt lt)
    have here := mainWalk_tables (walked k (Nat.lt_succ_self k))
    rw [offsetAt_walk] at here
    rw [segmentCommands_succ, Walk.stateAt, offsetAt_walk]
    refine Eq.trans ?_ here
    unfold mapSegments at before ⊢
    split
    · rw [List.foldlM_append, before]
      exact Option.bind_fun_some _
    · exact before

end FilledTables

def bareEnv : PassEnv where
  slide := 0
  accessible := fun _ => true
  ndylibs := 1
  linked := fun _ => true
  load := ⟨⟨fun _ => false, fun _ => none, nofun, rfl⟩, [], fun _ => none⟩
  path := []
  after := []

def leBytes32 (v : ℕ) : Buf := Mem.leBytes 4 v

def headerOf (filetype : W32) (n size : ℕ) : Buf :=
  [0xFEEDFACF, 0x01000007, 3, filetype.toNat, n, size, 0, 0].flatMap leBytes32

def segmentFile : Buf :=
  headerOf MH_EXECUTE 1 72 ++ [0x19, 72, 0, 0, 0, 0, 0x1000, 0, 0x1000, 0, 0, 0, 0, 0, 3, 3, 0, 0].flatMap leBytes32

theorem main_walk_tables_one :
    ((mapSegments (bareEnv.mapEnv segmentFile) (segmentCommands (bareEnv.image segmentFile) 1)).map fun t =>
      t.segments.map (·.vmaddr)) = some [0x1000] := by
  rw [main_walk_tables (k := 1) (by decide +kernel)]
  decide +kernel

def symtabsFile : Buf :=
  headerOf MH_DYLIB 3 112 ++
    [2, 24, 8, 1, 8, 8].flatMap leBytes32 ++
    ([11, 80] ++ List.replicate 12 0 ++ [8, 1, 0, 0, 0, 0]).flatMap leBytes32

def overrunFile : Pass → Buf
  | .dylibSections => symtabsFile
  | p => headerOf p.filetype 1 8

def emptyCommandFile (p : Pass) : Buf := headerOf p.filetype 1 8 ++ [0x1B, 0].flatMap leBytes32

/-- Every pass reads past the end of a file with a valid header; a scan for `LC_RPATH` does not move. -/
theorem load_commands_unsafe :
    (∀ p : Pass, p.validHeader (overrunFile p) = true ∧
      ∃ t ∈ p.run bareEnv (overrunFile p), ∃ r ∈ t.reads, (overrunFile p).length < r.1 + r.2) ∧
    Pass.rpathScan.validHeader (emptyCommandFile .rpathScan) = true ∧
      Pass.rpathScan.run bareEnv (emptyCommandFile .rpathScan) =
        [⟨32, [(32, 4), (36, 4)], some 32⟩] := by
  refine ⟨fun p => ?_, by decide +kernel, by decide +kernel⟩
  cases p <;> decide +kernel

end Macify.Image
