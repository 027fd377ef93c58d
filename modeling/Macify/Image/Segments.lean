import Macify.Lib.Loop
import Macify.Image.Types

/-!
# Segment and section tables

Model of `map_segment` and `find_section` (`src/segments.c`), and of the segment list that `macho_load_dylib`
collects. Fixups address a slot by an index into these tables. `segment_indices_iff` says when an index means the
same as in the file: a command with `vmsize = 0` gets no entry, and every later entry moves down by one.
-/

namespace Macify.Image
open Lib

def maxSegments : ℕ := 32

def maxSections : ℕ := 64

structure Tables where
  segments : List LoadedSegment
  sections : List LoadedSection
  deriving DecidableEq

structure MapEnv where
  slide : W64
  fileSize : W64
  accessible : SegmentCommand → Bool

def SegmentCommand.isPagezero (seg : SegmentCommand) : Bool := seg.segname == ascii "__PAGEZERO"

def slidVmaddr (slide : W64) (seg : SegmentCommand) : W64 :=
  if seg.isPagezero then seg.vmaddr else seg.vmaddr + slide

abbrev VM_PROT_READ : W32 := 1
abbrev VM_PROT_WRITE : W32 := 2
abbrev VM_PROT_EXECUTE : W32 := 4
abbrev PROT_NONE : W32 := 0
abbrev PROT_READ : W32 := 1
abbrev PROT_WRITE : W32 := 2
abbrev PROT_EXEC : W32 := 4

def protFromMacos (prot : W32) : W32 :=
  (if prot &&& VM_PROT_READ ≠ 0 then PROT_READ else 0) |||
    (if prot &&& VM_PROT_WRITE ≠ 0 then PROT_WRITE else 0) |||
    (if prot &&& VM_PROT_EXECUTE ≠ 0 then PROT_EXEC else 0)

def pagezeroEntry (seg : SegmentCommand) : LoadedSegment where
  vmaddr := seg.vmaddr
  vmsize := seg.vmsize
  prot := PROT_NONE
  targetProt := PROT_NONE
  name := seg.segname.take 15
  isPagezero := true

def mappedEntry (slide : W64) (seg : SegmentCommand) : LoadedSegment where
  vmaddr := seg.vmaddr + slide
  vmsize := seg.vmsize
  prot := PROT_READ ||| PROT_WRITE |||
    (if seg.initprot &&& VM_PROT_EXECUTE ≠ 0 then PROT_EXEC else 0)
  targetProt := protFromMacos seg.initprot
  name := seg.segname.take 15
  isPagezero := false

def sectionEntry (slide : W64) (s : Section64) : LoadedSection where
  sectname := s.sectname.take 15
  segname := s.segname.take 15
  addr := s.addr + slide
  size := s.size
  offset := s.offset
  flags := s.flags
  reserved1 := s.reserved1
  reserved2 := s.reserved2

def addSection (slide : W64) (t : Tables) (s : Section64) : Option Tables :=
  if maxSections ≤ t.sections.length then none
  else some { t with sections := t.sections ++ [sectionEntry slide s] }

def mapSegment (env : MapEnv) (t : Tables) (seg : SegmentCommand) : Option Tables :=
  if maxSegments ≤ t.segments.length then none
  -- an empty segment is passed over without an entry
  else if seg.vmsize = 0 then some t
  else if seg.isPagezero then some { t with segments := t.segments ++ [pagezeroEntry seg] }
  else if !env.accessible seg then none
  else if 0 < seg.filesize ∧ env.fileSize < seg.fileoff + seg.filesize then none
  else
    seg.sects.foldlM (addSection env.slide)
      { t with segments := t.segments ++ [mappedEntry env.slide seg] }

def mapSegments (env : MapEnv) (cmds : List SegmentCommand) : Option Tables :=
  cmds.foldlM (mapSegment env) ⟨[], []⟩

def findSection (sections : List LoadedSection) (segname sectname : Buf) : Option LoadedSection :=
  sections.find? fun s =>
    s.segname.take 16 == segname.take 16 && s.sectname.take 16 == sectname.take 16

structure DylibSegment where
  vmaddr : W64
  vmsize : W64
  fileoff : W64
  filesize : W64
  deriving DecidableEq

def maxDylibSegs : ℕ := 16

def dylibEntry (seg : SegmentCommand) : DylibSegment :=
  ⟨seg.vmaddr, seg.vmsize, seg.fileoff, seg.filesize⟩

def addDylibSegment (dsegs : List DylibSegment) (seg : SegmentCommand) : List DylibSegment :=
  if 0 < seg.vmsize ∧ dsegs.length < maxDylibSegs then dsegs ++ [dylibEntry seg] else dsegs

def dylibSegments (cmds : List SegmentCommand) : List DylibSegment := cmds.foldl addDylibSegment []

def slotAddr (segs : List LoadedSegment) (k : ℕ) (off : W64) : Option W64 :=
  segs[k]?.map fun seg => seg.vmaddr + off

def dylibSlotAddr (segs : List DylibSegment) (slide : W64) (k : ℕ) (off : W64) : Option W64 :=
  segs[k]?.map fun seg => seg.vmaddr + off + slide

def segmentEntries (slide : W64) (seg : SegmentCommand) : List LoadedSegment :=
  if seg.vmsize = 0 then []
  else if seg.isPagezero then [pagezeroEntry seg]
  else [mappedEntry slide seg]

def sectionEntries (slide : W64) (seg : SegmentCommand) : List LoadedSection :=
  if seg.vmsize = 0 ∨ seg.isPagezero = true then [] else seg.sects.map (sectionEntry slide)

def dylibEntries (seg : SegmentCommand) : List DylibSegment :=
  if 0 < seg.vmsize then [dylibEntry seg] else []

section Entries

variable {env : MapEnv} {t t' : Tables} {cmds : List SegmentCommand} {seg : SegmentCommand}

lemma addSection_eq_some {slide s} (run : addSection slide t s = some t') :
    t' = { t with sections := t.sections ++ [sectionEntry slide s] } := by
  unfold addSection at run
  split at run
  · cases run
  · cases run
    rfl

lemma mapSegment_eq_some (run : mapSegment env t seg = some t') :
    t'.segments = t.segments ++ segmentEntries env.slide seg ∧
      t'.sections = t.sections ++ sectionEntries env.slide seg := by
  unfold mapSegment at run
  split at run
  · cases run
  split at run
  · next empty =>
    cases run
    rw [segmentEntries, if_pos empty, sectionEntries, if_pos (.inl empty)]
    exact ⟨(List.append_nil _).symm, (List.append_nil _).symm⟩
  split at run
  · next nonempty zero =>
    cases run
    rw [segmentEntries, if_neg nonempty, if_pos zero, sectionEntries, if_pos (.inr zero)]
    exact ⟨rfl, (List.append_nil _).symm⟩
  split at run
  · cases run
  split at run
  · cases run
  · next nonempty zero _ _ =>
    have segs := foldlM_append Tables.segments (fun _ => []) (fun t s t' run => by
      rw [addSection_eq_some run, List.append_nil]) run
    have sects := foldlM_append Tables.sections (fun s => [sectionEntry env.slide s])
      (fun t s t' run => by rw [addSection_eq_some run]) run
    rw [segs, sects, segmentEntries, if_neg nonempty, if_neg zero, sectionEntries,
      if_neg (not_or.mpr ⟨nonempty, zero⟩)]
    simp [List.flatMap_eq_nil_iff, List.map_eq_flatMap]

lemma mapSegments_eq_some (run : mapSegments env cmds = some t) :
    t.segments = cmds.flatMap (segmentEntries env.slide) ∧
      t.sections = cmds.flatMap (sectionEntries env.slide) :=
  ⟨foldlM_append Tables.segments (segmentEntries env.slide)
      (fun _ _ _ one => (mapSegment_eq_some one).1) run,
    foldlM_append Tables.sections (sectionEntries env.slide)
      (fun _ _ _ one => (mapSegment_eq_some one).2) run⟩

lemma dylibSegments_eq (fits : cmds.length ≤ maxDylibSegs) : dylibSegments cmds = cmds.flatMap dylibEntries := by
  suffices h : ∀ acc : List DylibSegment, acc.length + cmds.length ≤ maxDylibSegs →
      cmds.foldl addDylibSegment acc = acc ++ cmds.flatMap dylibEntries from
    h [] (by simpa using fits)
  clear fits
  -- the accumulator has room for one entry for each command that is left
  induction cmds with
  | nil => simp
  | cons seg cmds ih =>
    intro acc room
    rw [List.length_cons] at room
    rw [List.foldl_cons, List.flatMap_cons, ← List.append_assoc]
    by_cases pos : 0 < seg.vmsize
    · rw [addDylibSegment, if_pos ⟨pos, by omega⟩, ih _ (by simp; omega), dylibEntries, if_pos pos]
    · rw [addDylibSegment, if_neg fun h => pos h.1, ih _ (by omega), dylibEntries, if_neg pos, List.append_nil]

end Entries

structure Describes (slide : W64) (e : LoadedSegment) (seg : SegmentCommand) : Prop where
  name : e.name = seg.segname.take 15
  vmaddr : e.vmaddr = slidVmaddr slide seg
  vmsize : e.vmsize = seg.vmsize
  isPagezero : e.isPagezero = seg.isPagezero

section Indices

variable {slide : W64} {cmds : List SegmentCommand} {seg : SegmentCommand}

def segmentEntry (slide : W64) (seg : SegmentCommand) : LoadedSegment :=
  if seg.isPagezero then pagezeroEntry seg else mappedEntry slide seg

lemma segmentEntry_describes : Describes slide (segmentEntry slide seg) seg := by
  unfold segmentEntry
  split
  · next zero => exact ⟨rfl, by rw [slidVmaddr, if_pos zero]; rfl, rfl, zero.symm⟩
  · next zero =>
    exact ⟨rfl, by rw [slidVmaddr, if_neg zero]; rfl, rfl, (Bool.eq_false_of_not_eq_true zero).symm⟩

lemma segmentEntries_of_ne (nonempty : seg.vmsize ≠ 0) : segmentEntries slide seg = [segmentEntry slide seg] := by
  rw [segmentEntries, if_neg nonempty, segmentEntry]
  split <;> rfl

lemma segmentEntries_flatMap (nonempty : ∀ seg ∈ cmds, seg.vmsize ≠ 0) :
    cmds.flatMap (segmentEntries slide) = cmds.map (segmentEntry slide) := by
  rw [List.map_eq_flatMap]
  exact List.flatMap_congr fun seg mem => segmentEntries_of_ne (nonempty seg mem)

lemma vmsize_ne_of_mem {e} (mem : e ∈ cmds.flatMap (segmentEntries slide)) : e.vmsize ≠ 0 := by
  obtain ⟨seg, _, mem⟩ := List.mem_flatMap.mp mem
  by_cases empty : seg.vmsize = 0
  · rw [segmentEntries, if_pos empty] at mem
    cases mem
  · rw [segmentEntries_of_ne empty] at mem
    cases List.mem_singleton.mp mem
    rw [segmentEntry_describes.vmsize]
    exact empty

lemma dylibEntries_flatMap (nonempty : ∀ seg ∈ cmds, seg.vmsize ≠ 0) :
    cmds.flatMap dylibEntries = cmds.map dylibEntry := by
  rw [List.map_eq_flatMap]
  refine List.flatMap_congr fun seg mem => ?_
  have ne := nonempty seg mem
  have pos : 0 < seg.vmsize := by bv_omega
  rw [dylibEntries, if_pos pos]

lemma dylibEntries_vmsize {e} (mem : e ∈ cmds.flatMap dylibEntries) : 0 < e.vmsize := by
  obtain ⟨seg, _, mem⟩ := List.mem_flatMap.mp mem
  unfold dylibEntries at mem
  split at mem
  · next pos =>
    cases List.mem_singleton.mp mem
    exact pos
  · cases mem

/-- Each entry describes the command at its index, and slots are relative to its slid `vmaddr`, exactly when no
    command has `vmsize = 0`. -/
theorem segment_indices_iff {env : MapEnv} {t : Tables} (mapped : mapSegments env cmds = some t)
    {dcmds : List SegmentCommand} (fits : dcmds.length ≤ maxDylibSegs) :
    ((∀ k seg, cmds[k]? = some seg →
        (∃ e, t.segments[k]? = some e ∧ Describes env.slide e seg) ∧
          ∀ off, slotAddr t.segments k off = some (slidVmaddr env.slide seg + off)) ↔
      ∀ seg ∈ cmds, seg.vmsize ≠ 0) ∧
    ((∀ k seg, dcmds[k]? = some seg →
        (dylibSegments dcmds)[k]? = some (dylibEntry seg) ∧
          ∀ off, dylibSlotAddr (dylibSegments dcmds) slide k off = some (seg.vmaddr + slide + off)) ↔
      ∀ seg ∈ dcmds, seg.vmsize ≠ 0) := by
  obtain ⟨segs, _⟩ := mapSegments_eq_some mapped
  refine ⟨⟨fun faithful seg mem empty => ?_, fun nonempty k seg at_k => ?_⟩,
    ⟨fun faithful seg mem empty => ?_, fun nonempty k seg at_k => ?_⟩⟩
  · obtain ⟨k, at_k⟩ := List.mem_iff_getElem?.mp mem
    obtain ⟨⟨e, entry, describes⟩, _⟩ := faithful k seg at_k
    rw [segs] at entry
    exact vmsize_ne_of_mem (List.mem_of_getElem? entry) (describes.vmsize.trans empty)
  · have entry : t.segments[k]? = some (segmentEntry env.slide seg) := by
      rw [segs, segmentEntries_flatMap nonempty, List.getElem?_map, at_k]
      rfl
    refine ⟨⟨_, entry, segmentEntry_describes⟩, fun off => ?_⟩
    rw [slotAddr, entry, Option.map_some, segmentEntry_describes.vmaddr]
  · obtain ⟨k, at_k⟩ := List.mem_iff_getElem?.mp mem
    have entry := (faithful k seg at_k).1
    rw [dylibSegments_eq fits] at entry
    have pos := dylibEntries_vmsize (List.mem_of_getElem? entry)
    rw [show (dylibEntry seg).vmsize = 0 from empty] at pos
    exact absurd pos (by decide)
  · have entry : (dylibSegments dcmds)[k]? = some (dylibEntry seg) := by
      rw [dylibSegments_eq fits, dylibEntries_flatMap nonempty, List.getElem?_map, at_k]
      rfl
    refine ⟨entry, fun off => ?_⟩
    rw [dylibSlotAddr, entry, Option.map_some]
    show some (seg.vmaddr + off + slide) = _
    rw [BitVec.add_assoc, BitVec.add_comm off, ← BitVec.add_assoc]

end Indices

def smallSegment (name : Buf) (vmaddr vmsize : W64) : SegmentCommand :=
  ⟨name, vmaddr, vmsize, 0, 0, 3, []⟩

def smallEnv : MapEnv := ⟨0x10000, 0, fun _ => true⟩

theorem segment_indices_iff_two :
    let cmds := [smallSegment (ascii "__TEXT") 0 0x1000, smallSegment (ascii "__DATA") 0x1000 0x1000]
    ∃ t, mapSegments smallEnv cmds = some t ∧
      ((∀ k seg, cmds[k]? = some seg →
          (∃ e, t.segments[k]? = some e ∧ Describes smallEnv.slide e seg) ∧
            ∀ off, slotAddr t.segments k off = some (slidVmaddr smallEnv.slide seg + off)) ↔
        ∀ seg ∈ cmds, seg.vmsize ≠ 0) ∧
      ((∀ k seg, cmds[k]? = some seg →
          (dylibSegments cmds)[k]? = some (dylibEntry seg) ∧
            ∀ off, dylibSlotAddr (dylibSegments cmds) 0x20000 k off =
              some (seg.vmaddr + 0x20000 + off)) ↔
        ∀ seg ∈ cmds, seg.vmsize ≠ 0) :=
  ⟨_, rfl, segment_indices_iff rfl (by decide)⟩

/-- With an empty segment before `__DATA`, its index stands for `__DATA` and the index of `__DATA` for nothing. -/
theorem segment_indices_shifted :
    let cmds := [smallSegment (ascii "__TEXT") 0 0x1000, smallSegment (ascii "__EMPTY") 0x1000 0,
      smallSegment (ascii "__DATA") 0x2000 0x1000]
    ∃ t, mapSegments smallEnv cmds = some t ∧
      slotAddr t.segments 1 0 = some 0x12000 ∧ slotAddr t.segments 2 0 = none ∧
      dylibSlotAddr (dylibSegments cmds) 0x20000 1 0 = some 0x22000 ∧
      dylibSlotAddr (dylibSegments cmds) 0x20000 2 0 = none :=
  ⟨_, rfl, by decide, by decide, by decide, by decide⟩

end Macify.Image
