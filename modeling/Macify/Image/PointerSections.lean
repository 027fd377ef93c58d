import Macify.Image.LoadCommands

/-!
# Sections of symbol pointers

The last pass over the sections of symbol pointers, in `main` (`src/main.c`) and in `macho_load_dylib`
(`src/macho_dylib.c`). A slot has a word in the indirect symbol table, from the index `reserved1` on, which is the
index of its symbol. Both passes take `reserved1 = 0` for "none". Main result: `pointers_filled_iff`.
-/

namespace Macify.Image
open Lib

structure SymbolTables where
  state : PassState
  strsize : W32
  nindirectsyms : W32

def symbolName (img : Buf) (o : ℕ) : Buf :=
  let name := (img.drop o).takeWhile (· != 0)
  if name.head? = some 0x5F then name.tail else name

section Passes

variable (img : Buf) (tabs : SymbolTables) (resolve : Buf → W64)

def slotName (sect : Section64) (k : ℕ) : Option Buf :=
  if inSymtab img tabs.state sect k then
    let strx := u32 img (nlistAt img tabs.state sect k)
    if strx < tabs.strsize then some (symbolName img (tabs.state.stroff.toNat + strx.toNat)) else none
  else none

/-- The address that belongs in slot `k`. `resolve` stands for `resolve_symbol(-1, name)`. -/
def slotTarget (sect : Section64) (k : ℕ) : Option W64 :=
  (slotName img tabs sect k).bind fun name => if resolve name = 0 then none else some (resolve name)

def fillSlot (sect : Section64) (m : Mem) (k : ℕ) : Mem :=
  match slotTarget img tabs resolve sect k with
  | some addr => m.write64 (sect.addr + BitVec.ofNat 64 (k * 8 % 2 ^ 32)) addr
  | none => m

def fillSection (m : Mem) (sect : Section64) : Mem :=
  if isPointers sect = true ∧ 0 < sect.reserved1 then
    (List.range (nEntries sect)).foldl (fillSlot img tabs resolve sect) m
  else m

def SymbolTables.present : Bool :=
  decide (0 < tabs.state.indirectsymoff) && decide (0 < tabs.state.symoff) && decide (0 < tabs.state.stroff)

def LoadedSection.header (s : LoadedSection) : Section64 :=
  ⟨s.sectname, s.segname, s.addr, s.size, s.offset, s.flags, s.reserved1, s.reserved2⟩

def fillMain (t : Tables) (m : Mem) : Mem :=
  if tabs.present then t.sections.foldl (fun m s => fillSection img tabs resolve m s.header) m else m

def Section64.slid (slide : W64) (sect : Section64) : Section64 :=
  { sect with addr := sect.addr + slide }

def fillDylib (slide : W64) (cmds : List SegmentCommand) (m : Mem) : Mem :=
  if tabs.present then
    cmds.foldl (fun m seg =>
      seg.sects.foldl (fun m sect => fillSection img tabs resolve m (sect.slid slide)) m) m
  else m

end Passes

inductive Pointers where
  | main (t : Tables)
  | dylib (slide : W64) (cmds : List SegmentCommand)

def Pointers.sections : Pointers → List Section64
  | main t => t.sections.map LoadedSection.header
  | dylib slide cmds => cmds.flatMap fun seg => seg.sects.map (Section64.slid slide)

def Pointers.fill (img : Buf) (tabs : SymbolTables) (resolve : Buf → W64) (m : Mem) : Pointers → Mem
  | main t => fillMain img tabs resolve t m
  | dylib slide cmds => fillDylib img tabs resolve slide cmds m

/-- The tables are there. The words of a section of pointers lie in the indirect symbol table, and the
    sections do not overlap in memory. -/
structure WellFormedTables (tabs : SymbolTables) (sections : List Section64) : Prop where
  present : tabs.present = true
  indexed : ∀ sect ∈ sections, isPointers sect = true →
    sect.reserved1.toNat + sect.size.toNat / 8 ≤ tabs.nindirectsyms.toNat
  top : ∀ sect ∈ sections, isPointers sect = true → sect.addr.toNat + sect.size.toNat ≤ 2 ^ 64
  apart : ∀ sect ∈ sections, isPointers sect = true → ∀ other ∈ sections, isPointers other = true →
    sect ≠ other → sect.addr.toNat + sect.size.toNat ≤ other.addr.toNat ∨
      other.addr.toNat + other.size.toNat ≤ sect.addr.toNat

/-- Slot `k` of a section of pointers has a symbol that is resolved to `addr`. -/
structure Resolvable (img : Buf) (tabs : SymbolTables) (resolve : Buf → W64)
    (sections : List Section64) (sect : Section64) (k : ℕ) (addr : W64) : Prop where
  listed : sect ∈ sections
  pointers : isPointers sect = true
  slot : k < sect.size.toNat / 8
  target : slotTarget img tabs resolve sect k = some addr

def pointerAt (sect : Section64) (k : ℕ) : W64 := sect.addr + BitVec.ofNat 64 (8 * k)

def Filled (img : Buf) (tabs : SymbolTables) (resolve : Buf → W64) (p : Pointers) : Prop :=
  ∀ m sect k addr, Resolvable img tabs resolve p.sections sect k addr →
    (p.fill img tabs resolve m).read64 (pointerAt sect k) = addr

section Writes

variable {img : Buf} {tabs : SymbolTables} {resolve : Buf → W64} {sections : List Section64}
  {sect other : Section64} {k j : ℕ} {addr : W64} {m : Mem} {w : W64 × W64}

def slotWrite (img : Buf) (tabs : SymbolTables) (resolve : Buf → W64) (sect : Section64) (k : ℕ) :
    Option (W64 × W64) :=
  (slotTarget img tabs resolve sect k).map fun addr =>
    (sect.addr + BitVec.ofNat 64 (k * 8 % 2 ^ 32), addr)

def sectionWrites (img : Buf) (tabs : SymbolTables) (resolve : Buf → W64) (sect : Section64) : List (W64 × W64) :=
  if isPointers sect = true ∧ 0 < sect.reserved1 then
    (List.range (nEntries sect)).filterMap (slotWrite img tabs resolve sect)
  else []

lemma fillSection_eq : fillSection img tabs resolve m sect = m.writeAll (sectionWrites img tabs resolve sect) := by
  unfold fillSection sectionWrites
  split
  · rw [Mem.writeAll, List.foldl_filterMap]
    congr 1
    funext m k
    unfold fillSlot slotWrite
    cases slotTarget img tabs resolve sect k with
    | none | some addr => rfl
  · rfl

lemma foldl_fillSection : sections.foldl (fillSection img tabs resolve) m =
    m.writeAll (sections.flatMap (sectionWrites img tabs resolve)) := by
  rw [Mem.writeAll, List.foldl_flatMap]
  congr 1
  funext m sect
  exact fillSection_eq

lemma fill_eq {p : Pointers} (present : tabs.present = true) :
    p.fill img tabs resolve m = m.writeAll (p.sections.flatMap (sectionWrites img tabs resolve)) := by
  rw [← foldl_fillSection]
  cases p with
  | main t =>
    show fillMain img tabs resolve t m = _
    rw [fillMain, if_pos present, Pointers.sections, List.foldl_map]
  | dylib slide cmds =>
    show fillDylib img tabs resolve slide cmds m = _
    rw [fillDylib, if_pos present, Pointers.sections, List.foldl_flatMap]
    simp only [List.foldl_map]

lemma exists_of_mem_writes (mem : w ∈ sections.flatMap (sectionWrites img tabs resolve)) :
    ∃ sect k, Resolvable img tabs resolve sections sect k w.2 ∧ sect.reserved1 ≠ 0 ∧
      w.1 = pointerAt sect (k % 2 ^ 29) := by
  obtain ⟨sect, listed, mem⟩ := List.mem_flatMap.mp mem
  unfold sectionWrites at mem
  split at mem
  · next used =>
    obtain ⟨k, range, write⟩ := List.mem_filterMap.mp mem
    obtain ⟨addr, target, rfl⟩ := Option.map_eq_some_iff.mp write
    have count : nEntries sect = (sect.size / 8).toNat % 2 ^ 32 := rfl
    have quotient : (sect.size / 8).toNat = sect.size.toNat / 8 := BitVec.toNat_udiv
    have lt := List.mem_range.mp range
    refine ⟨sect, k, ⟨listed, used.1, ?_, target⟩, by bv_omega, ?_⟩
    · rw [count, quotient] at lt
      exact lt.trans_le (Nat.mod_le _ _)
    · have offset : k * 8 % 2 ^ 32 = 8 * (k % 2 ^ 29) := by omega
      rw [pointerAt, offset]
  · cases mem

lemma Resolvable.mem_writes (wf : WellFormedTables tabs sections)
    (res : Resolvable img tabs resolve sections sect k addr) (used : sect.reserved1 ≠ 0) (lt : k < 2 ^ 29) :
    (pointerAt sect k, addr) ∈ sections.flatMap (sectionWrites img tabs resolve) := by
  have indexed := wf.indexed sect res.listed res.pointers
  have count : nEntries sect = (sect.size / 8).toNat % 2 ^ 32 := rfl
  have quotient : (sect.size / 8).toNat = sect.size.toNat / 8 := BitVec.toNat_udiv
  have few : sect.size.toNat / 8 < 2 ^ 32 := by
    have := tabs.nindirectsyms.isLt
    omega
  have range : k < nEntries sect := by
    rw [count, quotient, Nat.mod_eq_of_lt few]
    exact res.slot
  refine List.mem_flatMap.mpr ⟨sect, res.listed, ?_⟩
  rw [sectionWrites, if_pos ⟨res.pointers, by bv_omega⟩]
  refine List.mem_filterMap.mpr ⟨k, List.mem_range.mpr range, ?_⟩
  have offset : k * 8 % 2 ^ 32 = 8 * k := by omega
  rw [slotWrite, res.target, Option.map_some, offset]
  rfl

lemma toNat_pointerAt (wf : WellFormedTables tabs sections) (listed : sect ∈ sections)
    (pointers : isPointers sect = true) (lt : k < sect.size.toNat / 8) :
    (pointerAt sect k).toNat = sect.addr.toNat + 8 * k ∧
      sect.addr.toNat + 8 * k + 8 ≤ sect.addr.toNat + sect.size.toNat := by
  have top := wf.top sect listed pointers
  have inside : 8 * k + 8 ≤ sect.size.toNat := by omega
  refine ⟨?_, by omega⟩
  rw [pointerAt]
  bv_omega

lemma slots_apart (wf : WellFormedTables tabs sections)
    (fst : sect ∈ sections ∧ isPointers sect = true ∧ k < sect.size.toNat / 8)
    (snd : other ∈ sections ∧ isPointers other = true ∧ j < other.size.toNat / 8)
    (ne : sect = other → k ≠ j) : Mem.Apart (pointerAt sect k) (pointerAt other j) := by
  obtain ⟨fst_addr, fst_end⟩ := toNat_pointerAt wf fst.1 fst.2.1 fst.2.2
  obtain ⟨snd_addr, snd_end⟩ := toNat_pointerAt wf snd.1 snd.2.1 snd.2.2
  have fst_top := wf.top sect fst.1 fst.2.1
  have snd_top := wf.top other snd.1 snd.2.1
  apply Mem.apart_of_le ⟨by omega, by omega⟩
  by_cases same : sect = other
  · subst same
    have := ne rfl
    omega
  · have := wf.apart sect fst.1 fst.2.1 other snd.1 snd.2.1 same
    omega

end Writes

/-- Exactly when no slot whose symbol can be resolved is in a section with `reserved1 = 0`, or 4 GiB or more
    behind its start. -/
theorem pointers_filled_iff {img : Buf} {tabs : SymbolTables} {resolve : Buf → W64} {p : Pointers}
    (wf : WellFormedTables tabs p.sections) :
    Filled img tabs resolve p ↔
      ∀ sect k addr, Resolvable img tabs resolve p.sections sect k addr →
        sect.reserved1 ≠ 0 ∧ k < 2 ^ 29 := by
  constructor
  · intro filled sect k addr res
    by_contra missed
    -- no word that is written has a byte in this slot, so the slot keeps a zero
    have kept := filled (fun _ => 0) sect k addr res
    rw [fill_eq wf.present, Mem.read64_writeAll_apart] at kept
    · obtain ⟨name, _, target⟩ := Option.bind_eq_some_iff.mp res.target
      split at target
      · cases target
      · next found =>
        cases target
        rw [Mem.read64_blank] at kept
        exact found kept.symm
    · intro w mem
      obtain ⟨other, j, res', used, at_slot⟩ := exists_of_mem_writes mem
      rw [at_slot]
      refine slots_apart wf ⟨res.listed, res.pointers, res.slot⟩
        ⟨res'.listed, res'.pointers, (Nat.mod_le _ _).trans_lt res'.slot⟩ ?_
      rintro rfl rfl
      exact missed ⟨used, Nat.mod_lt _ (by decide)⟩
  · intro reached m sect k addr res
    obtain ⟨used, lt⟩ := reached sect k addr res
    rw [fill_eq wf.present]
    refine Mem.read64_writeAll (res.mem_writes wf used lt) fun w mem => ?_
    obtain ⟨other, j, res', used', at_slot⟩ := exists_of_mem_writes mem
    rw [Nat.mod_eq_of_lt (reached other j w.2 res').2] at at_slot
    by_cases same : sect = other ∧ k = j
    · obtain ⟨rfl, rfl⟩ := same
      left
      exact Prod.ext at_slot (Option.some.inj (res'.target.symm.trans res.target))
    · right
      rw [at_slot]
      exact slots_apart wf ⟨res.listed, res.pointers, res.slot⟩ ⟨res'.listed, res'.pointers, res'.slot⟩
        fun e e' => same ⟨e, e'⟩

/-- Two words of the indirect symbol table at 8, both for the symbol at 16, whose name `_f` is in the
    string table at 32. -/
def pointerFile : Buf :=
  [0, 0, 0, 0, 1].flatMap leBytes32 ++ List.replicate 12 0 ++ [0, 0x5F, 0x66, 0]

def pointerTables : SymbolTables := ⟨⟨0, ⟨[], []⟩, 0, 0, 16, 1, 32, 8⟩, 4, 2⟩

def resolveF (name : Buf) : W64 := if name = [0x66] then 0x5000 else 0

def gotSection (reserved1 : W32) : Section64 := ⟨[], [], 0x1000, 8, 0, 6, reserved1, 0⟩

def gotMain (reserved1 : W32) : Pointers := .main ⟨[], [sectionEntry 0x10000 (gotSection reserved1)]⟩

def gotDylib (reserved1 : W32) : Pointers :=
  .dylib 0x10000 [⟨[], 0, 0x2000, 0, 0, 3, [gotSection reserved1]⟩]

lemma got_wellFormed {reserved1 : W32} (le : reserved1.toNat ≤ 1) :
    WellFormedTables pointerTables (gotMain reserved1).sections ∧
      WellFormedTables pointerTables (gotDylib reserved1).sections := by
  have one : ∀ sect : Section64, sect.reserved1 = reserved1 → sect.size = 8 → sect.addr = 0x11000 →
      WellFormedTables pointerTables [sect] := by
    intro sect start size addr
    refine ⟨by decide, fun s mem _ => ?_, fun s mem _ => ?_, fun s mem _ other mem' _ ne => ?_⟩
    · cases List.mem_singleton.mp mem
      have two : pointerTables.nindirectsyms.toNat = 2 := by decide
      have eight : (8 : W64).toNat = 8 := by decide
      rw [start, size, two, eight]
      omega
    · cases List.mem_singleton.mp mem
      rw [addr, size]
      decide
    · exact absurd ((List.mem_singleton.mp mem).trans (List.mem_singleton.mp mem').symm) ne
  have addr : (0x1000 : W64) + 0x10000 = 0x11000 := by decide
  exact ⟨one _ rfl rfl addr, one _ rfl rfl addr⟩

theorem pointers_filled_iff_got : Filled pointerFile pointerTables resolveF (gotMain 1) := by
  refine (pointers_filled_iff (got_wellFormed (by decide)).1).mpr fun sect k addr res => ?_
  cases List.mem_singleton.mp res.listed
  have one : k < 1 := res.slot
  exact ⟨by decide, by omega⟩

/-- The slot of the section with `reserved1 = 0` stays as it was, in the main image and in the dylib. -/
theorem pointers_not_filled :
    (WellFormedTables pointerTables (gotMain 0).sections ∧
      ¬Filled pointerFile pointerTables resolveF (gotMain 0)) ∧
    (WellFormedTables pointerTables (gotDylib 0).sections ∧
      ¬Filled pointerFile pointerTables resolveF (gotDylib 0)) := by
  have wf := @got_wellFormed 0 (by decide)
  refine ⟨⟨wf.1, fun filled => ?_⟩, wf.2, fun filled => ?_⟩
  · have zero := filled (fun _ => 0) _ 0 0x5000 ⟨List.mem_singleton.mpr rfl, by decide, by decide, by decide⟩
    exact absurd zero (by decide)
  · have zero := filled (fun _ => 0) _ 0 0x5000 ⟨List.mem_singleton.mpr rfl, by decide, by decide, by decide⟩
    exact absurd zero (by decide)

end Macify.Image
