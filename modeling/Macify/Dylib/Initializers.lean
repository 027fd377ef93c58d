import Macify.Lib.Memory
import Macify.Image.Segments
import Macify.Dylib.Registry

/-!
# Module initialisers

Model of the part of `main` (`src/main.c`) that runs the module initialisers: the pointers of
`__DATA,__mod_init_func`, or else of `__DATA_CONST,__mod_init_func`, of the main image. Nothing is called in a dylib.
Main result: `mod_inits_iff`.
-/

namespace Macify.Dylib
open Lib Image

def modInitFunc : Buf := ascii "__mod_init_func"

def initSection (sections : List LoadedSection) : Option LoadedSection :=
  match findSection sections (ascii "__DATA") modInitFunc with
  -- `__DATA_CONST` is not looked at then
  | some sec => some sec
  | none => findSection sections (ascii "__DATA_CONST") modInitFunc

def pointerAddr (addr : W64) (i : ℕ) : W64 := addr + BitVec.ofNat 64 (8 * i)

def pointerSlots (addr size : W64) : List W64 :=
  (List.range (size.toNat / 8)).map (pointerAddr addr)

structure InitState where
  mem : Mem
  called : List (W64 × W64)

def callInit (call : W64 → Mem → Mem) (addr : W64) (i : ℕ) (s : InitState) : InitState :=
  let func := s.mem.read64 (pointerAddr addr i)
  if func = 0 then s else ⟨call func s.mem, s.called ++ [(pointerAddr addr i, func)]⟩

def runModInit (call : W64 → Mem → Mem) (sections : List LoadedSection) (mem : Mem) : InitState :=
  match initSection sections with
  | none => ⟨mem, []⟩
  | some sec =>
    if 0 < sec.size then forUp (callInit call sec.addr) 0 (sec.size.toNat / 8) ⟨mem, []⟩
    else ⟨mem, []⟩

def memBefore (call : W64 → Mem → Mem) (mem : Mem) (addr : W64) : ℕ → Mem
  | 0 => mem
  | i + 1 =>
    let func := mem.read64 (pointerAddr addr i)
    if func = 0 then memBefore call mem addr i else call func (memBefore call mem addr i)

def Undisturbed (call : W64 → Mem → Mem) (mem : Mem) (addr : W64) (n : ℕ) : Prop :=
  ∀ i < n, ∀ j < n, (memBefore call mem addr (i + 1)).read64 (pointerAddr addr j) =
    (memBefore call mem addr i).read64 (pointerAddr addr j)

structure Startup where
  env : LoadEnv
  mapEnv : MapEnv
  cmds : List SegmentCommand
  tables : Tables
  mapped : mapSegments mapEnv cmds = some tables
  deps : List Buf
  registry : Loader
  loads : Loads env deps .init registry
  mem : Mem
  call : W64 → Mem → Mem

inductive ImageId where
  | main
  | dylib (m : Mapping)
  deriving DecidableEq

structure InitCall where
  image : ImageId
  slot : W64
  func : W64
  deriving DecidableEq

def initSlots (slide : W64) (cmds : List SegmentCommand) : List W64 :=
  ((cmds.flatMap SegmentCommand.sects).filter fun s => s.sectname == modInitFunc).flatMap fun s =>
    pointerSlots (s.addr + slide) s.size

namespace Startup

variable (s : Startup)

def callsOf (image : ImageId) (slots : List W64) : List InitCall :=
  (slots.filter fun a => s.mem.read64 a != 0).map fun a => ⟨image, a, s.mem.read64 a⟩

def inits : ImageId → List InitCall
  | .main => s.callsOf .main (initSlots s.mapEnv.slide s.cmds)
  | .dylib m =>
    match s.env.fs.load m.path with
    | none => []
    | some f => s.callsOf (.dylib m) (initSlots m.slide f.segments)

def Present : ImageId → Prop
  | .main => True
  | .dylib m => m ∈ s.registry.loaded

def DependsOn : ImageId → Mapping → Prop
  | .main, d => d.path ∈ s.deps
  | .dylib m, d => ∃ f, s.env.fs.load m.path = some f ∧ d.path ∈ s.env.requested m.path f

def calls : List InitCall :=
  (runModInit s.call s.tables.sections s.mem).called.map fun c => ⟨.main, c.1, c.2⟩

/-- Every initialiser is called once, those of a dylib before those of an image that depends on it. -/
structure InitsRun (calls : List InitCall) : Prop where
  once : ∀ image, s.Present image → ∀ c ∈ s.inits image, calls.count c = 1
  ordered : ∀ d image, s.Present (.dylib d) → s.Present image → s.DependsOn image d →
    ∀ c ∈ s.inits (.dylib d), ∀ c' ∈ s.inits image, [c, c'].Sublist calls

def Quiet : Prop :=
  ∀ sec, initSection s.tables.sections = some sec →
    Undisturbed s.call s.mem sec.addr (sec.size.toNat / 8)

end Startup

section Loop

variable {call : W64 → Mem → Mem} {addr size : W64} {mem : Mem}

lemma pointerSlots_nodup : (pointerSlots addr size).Nodup := by
  refine List.Nodup.map_on (fun i mem j mem' e => ?_) List.nodup_range
  have lt := List.mem_range.mp mem
  have lt' := List.mem_range.mp mem'
  have size_lt := size.isLt
  have e : BitVec.ofNat 64 (8 * i) = BitVec.ofNat 64 (8 * j) := by
    simpa [pointerAddr] using e
  have e := congrArg BitVec.toNat e
  rw [BitVec.toNat_ofNat, BitVec.toNat_ofNat, Nat.mod_eq_of_lt (by omega), Nat.mod_eq_of_lt (by omega)] at e
  omega

def pendingCalls (mem : Mem) (addr : W64) (n : ℕ) : List (W64 × W64) :=
  (((List.range n).map (pointerAddr addr)).filter fun a => mem.read64 a != 0).map fun a =>
    (a, mem.read64 a)

lemma pendingCalls_succ {n} :
    pendingCalls mem addr (n + 1) =
      pendingCalls mem addr n ++
        if mem.read64 (pointerAddr addr n) = 0 then []
        else [(pointerAddr addr n, mem.read64 (pointerAddr addr n))] := by
  unfold pendingCalls
  rw [List.range_succ, List.map_append, List.filter_append, List.map_append, List.map_singleton,
    List.filter_cons, List.filter_nil]
  refine congrArg (_ ++ ·) ?_
  by_cases null : mem.read64 (pointerAddr addr n) = 0
  · rw [if_pos null, if_neg fun ne => bne_iff_ne.mp ne null, List.map_nil]
  · rw [if_neg null, if_pos (bne_iff_ne.mpr null), List.map_singleton]

lemma read64_memBefore {n} (quiet : Undisturbed call mem addr n) {i j} (le : i ≤ n) (lt : j < n) :
    (memBefore call mem addr i).read64 (pointerAddr addr j) = mem.read64 (pointerAddr addr j) := by
  induction i with
  | zero => rfl
  | succ i ih => rw [quiet i le j lt, ih (Nat.le_of_succ_le le)]

lemma called_eq {n} (quiet : Undisturbed call mem addr n) :
    (forUp (callInit call addr) 0 n ⟨mem, []⟩).called = pendingCalls mem addr n := by
  have inv := forUp_invariant (f := callInit call addr) (a := 0) (n := n) (s := ⟨mem, []⟩)
    (fun i s => s.called = pendingCalls mem addr i ∧ s.mem = memBefore call mem addr i)
    ⟨rfl, rfl⟩ ?_
  · rw [Nat.zero_add] at inv
    exact inv.1
  rintro i s - lt ⟨called, same⟩
  rw [Nat.zero_add] at lt
  -- the pointer that is read now is still that of `mem`
  have stored : s.mem.read64 (pointerAddr addr i) = mem.read64 (pointerAddr addr i) := by
    rw [same, read64_memBefore quiet lt.le lt]
  rw [pendingCalls_succ, ← called, callInit, stored, memBefore]
  by_cases null : mem.read64 (pointerAddr addr i) = 0
  · rw [if_pos null, if_pos null, List.append_nil]
    exact ⟨rfl, same.trans (if_pos null).symm⟩
  · rw [if_neg null, if_neg null]
    refine ⟨rfl, ?_⟩
    rw [same]
    exact (if_neg null).symm

end Loop

namespace Startup

variable {s : Startup}

lemma calls_eq (quiet : s.Quiet) :
    s.calls =
      match initSection s.tables.sections with
      | none => []
      | some sec => s.callsOf .main (pointerSlots sec.addr sec.size) := by
  unfold calls runModInit
  cases found : initSection s.tables.sections with
  | none => rfl
  | some sec =>
    by_cases pos : 0 < sec.size
    · simp only [if_pos pos, called_eq (quiet sec found), pendingCalls, callsOf, pointerSlots, List.map_map]
      rfl
    · have zero : sec.size = 0 := by bv_omega
      simp only [zero]
      rfl

lemma mem_callsOf {image slots c} :
    c ∈ s.callsOf image slots ↔
      c.slot ∈ slots ∧ s.mem.read64 c.slot ≠ 0 ∧ c = ⟨image, c.slot, s.mem.read64 c.slot⟩ := by
  unfold callsOf
  rw [List.mem_map]
  constructor
  · rintro ⟨a, mem, rfl⟩
    obtain ⟨mem, ne⟩ := List.mem_filter.mp mem
    exact ⟨mem, bne_iff_ne.mp ne, rfl⟩
  · rintro ⟨mem, ne, e⟩
    exact ⟨c.slot, List.mem_filter.mpr ⟨mem, bne_iff_ne.mpr ne⟩, e.symm⟩

lemma callsOf_nodup {image slots} (nodup : slots.Nodup) : (s.callsOf image slots).Nodup :=
  (nodup.filter _).map fun _ _ e => congrArg InitCall.slot e

lemma calls_nodup (quiet : s.Quiet) : s.calls.Nodup := by
  rw [calls_eq quiet]
  cases initSection s.tables.sections with
  | none => exact List.nodup_nil
  | some sec => exact callsOf_nodup pointerSlots_nodup

lemma mem_calls (quiet : s.Quiet) {c} :
    c ∈ s.calls ↔ ∃ sec, initSection s.tables.sections = some sec ∧
      c ∈ s.callsOf .main (pointerSlots sec.addr sec.size) := by
  rw [calls_eq quiet]
  cases initSection s.tables.sections with
  | none | some sec => simp

lemma image_of_mem_calls {c} (mem : c ∈ s.calls) : c.image = .main := by
  obtain ⟨_, _, rfl⟩ := List.mem_map.mp mem
  rfl

lemma image_of_mem_inits {image c} (mem : c ∈ s.inits image) : c.image = image := by
  cases image with
  | main => exact congrArg InitCall.image (mem_callsOf.mp mem).2.2
  | dylib m =>
    rw [inits] at mem
    cases file : s.env.fs.load m.path with
    | none =>
      rw [file] at mem
      cases mem
    | some f =>
      rw [file] at mem
      exact congrArg InitCall.image (mem_callsOf.mp mem).2.2

/-- Every initialiser runs once and in order exactly when no dylib has one, and the main image has all in the
    section found. -/
theorem mod_inits_iff (s : Startup) (quiet : s.Quiet) :
    s.InitsRun s.calls ↔
      (∀ d ∈ s.registry.loaded, s.inits (.dylib d) = []) ∧
        ∀ c ∈ s.inits .main, ∃ sec, initSection s.tables.sections = some sec ∧
          c.slot ∈ pointerSlots sec.addr sec.size := by
  have called : ∀ {c}, s.calls.count c = 1 → c ∈ s.calls := fun one =>
    List.count_pos_iff.mp (one ▸ Nat.one_pos)
  constructor
  · intro run
    refine ⟨fun d mem => ?_, fun c mem => ?_⟩
    · refine List.eq_nil_iff_forall_not_mem.mpr fun c init => ?_
      have main := image_of_mem_calls (called (run.once (.dylib d) mem c init))
      cases (image_of_mem_inits init).symm.trans main
    · obtain ⟨sec, found, mem⟩ := (mem_calls quiet).mp (called (run.once .main trivial c mem))
      exact ⟨sec, found, (mem_callsOf.mp mem).1⟩
  · rintro ⟨none, inside⟩
    refine ⟨fun image present c mem => ?_, fun d image present _ _ c mem => ?_⟩
    · cases image with
      | dylib d =>
        rw [none d present] at mem
        cases mem
      | main =>
        obtain ⟨sec, found, slot⟩ := inside c mem
        have init := mem_callsOf.mp mem
        apply List.count_eq_one_of_mem (calls_nodup quiet)
        exact (mem_calls quiet).mpr ⟨sec, found, mem_callsOf.mpr ⟨slot, init.2⟩⟩
    · rw [none d present] at mem
      cases mem

end Startup

def initSegment (name : Buf) (vmaddr : W64) : SegmentCommand :=
  ⟨name, vmaddr, 0x1000, 0, 0, 3, [⟨modInitFunc, name, vmaddr, 8, 0, 9, 0, 0⟩]⟩

def initDylibEnv : LoadEnv where
  fs := .ofList
    [(ascii "/i.dylib", ⟨MH_MAGIC_64, MH_DYLIB, [initSegment (ascii "__DATA") 0], [], []⟩)] (by decide)
  macifyRoot := []
  mmap := fun _ => some 0x20000

def initRegistry : Loader :=
  ((machoLoadDylib initDylibEnv 1 (ascii "/i.dylib") .init).getD (false, .init)).2

def smallStartup (cmds : List SegmentCommand) (tables : Tables)
    (mapped : mapSegments smallEnv cmds = some tables) (deps : List Buf) (registry : Loader)
    (loads : Loads initDylibEnv deps .init registry) : Startup where
  env := initDylibEnv
  mapEnv := smallEnv
  cmds := cmds
  tables := tables
  mapped := mapped
  deps := deps
  registry := registry
  loads := loads
  mem := fun _ => 1
  call := fun _ mem => mem

def aloneStartup : Startup :=
  smallStartup [initSegment (ascii "__DATA") 0] _ rfl [] .init .nil

def twoSectionsStartup : Startup :=
  smallStartup [initSegment (ascii "__DATA") 0, initSegment (ascii "__DATA_CONST") 0x1000] _ rfl []
    .init .nil

def initDylibStartup : Startup :=
  smallStartup [] ⟨[], []⟩ rfl [ascii "/i.dylib"] initRegistry (loads_iff.mpr ⟨1, true, rfl⟩)

theorem mod_inits_iff_alone :
    aloneStartup.Quiet ∧ aloneStartup.calls = [⟨.main, 0x10000, 0x0101010101010101⟩] ∧
      aloneStartup.InitsRun aloneStartup.calls := by
  have quiet : aloneStartup.Quiet := by
    intro sec _ i _ j _
    rw [memBefore]
    split <;> rfl
  have slots : ∀ c ∈ aloneStartup.inits .main, c.slot ∈ pointerSlots 0x10000 8 := by decide +kernel
  refine ⟨quiet, by decide +kernel, (Startup.mod_inits_iff aloneStartup quiet).mpr ⟨?_, ?_⟩⟩
  · exact fun d mem => absurd mem List.not_mem_nil
  · exact fun c mem => ⟨sectionEntry 0x10000 ⟨modInitFunc, ascii "__DATA", 0, 8, 0, 9, 0, 0⟩,
      by decide +kernel, slots c mem⟩

/-- The initialiser of a dylib is not run, and of two sections of the main image only one is. -/
theorem mod_inits_missed :
    (initDylibStartup.inits (.dylib ⟨ascii "/i.dylib", 0x20000, 0x20000⟩) =
          [⟨.dylib ⟨ascii "/i.dylib", 0x20000, 0x20000⟩, 0x20000, 0x0101010101010101⟩] ∧
        initDylibStartup.calls = [] ∧ ¬initDylibStartup.InitsRun initDylibStartup.calls) ∧
      twoSectionsStartup.inits .main =
          [⟨.main, 0x10000, 0x0101010101010101⟩, ⟨.main, 0x11000, 0x0101010101010101⟩] ∧
        twoSectionsStartup.calls = [⟨.main, 0x10000, 0x0101010101010101⟩] ∧
        ¬twoSectionsStartup.InitsRun twoSectionsStartup.calls := by
  have inits : initDylibStartup.inits (.dylib ⟨ascii "/i.dylib", 0x20000, 0x20000⟩) =
      [⟨.dylib ⟨ascii "/i.dylib", 0x20000, 0x20000⟩, 0x20000, 0x0101010101010101⟩] := by
    decide +kernel
  have loaded : ⟨ascii "/i.dylib", 0x20000, 0x20000⟩ ∈ initRegistry.loaded := by decide +kernel
  have mains : twoSectionsStartup.inits .main =
      [⟨.main, 0x10000, 0x0101010101010101⟩, ⟨.main, 0x11000, 0x0101010101010101⟩] := by
    decide +kernel
  have calls : twoSectionsStartup.calls = [⟨.main, 0x10000, 0x0101010101010101⟩] := by decide +kernel
  refine ⟨⟨inits, by decide +kernel, fun ok => ?_⟩, mains, calls, fun ok => ?_⟩
  · have one := ok.once (.dylib ⟨ascii "/i.dylib", 0x20000, 0x20000⟩) loaded _
      (inits ▸ List.mem_cons_self)
    exact absurd one (by decide +kernel)
  · have one := ok.once .main trivial ⟨.main, 0x11000, 0x0101010101010101⟩ (by rw [mains]; simp)
    rw [calls] at one
    exact absurd one (by decide)

end Macify.Dylib
