import Macify.Image.Mapping
import Macify.Lib.Fields
import Macify.Lib.Pages

/-!
# Space for the main image

The slide in `main` (`src/main.c`) and `map_segment` (`src/segments.c`), as far as the pages of the process go. An
image that may not be moved is mapped with `MAP_FIXED`, which takes what is there; only if that fails the system
chooses. Without a reservation the slide is 0. Main result: `reservation_disturbs_nothing_iff`.
-/

namespace Macify.Image.Placement
open Lib
open Space (Within pageOf pagesOf)

structure Page where
  own : Bool
  rights : W32
  deriving DecidableEq

structure Span where
  minVmaddr : W64
  maxVmend : W64
  deriving DecidableEq

def Span.pages (s : Span) : ℕ := pagesOf (s.maxVmend - s.minVmaddr)

def needsMemory (seg : SegmentCommand) : Bool := !seg.isPagezero && decide (0 < seg.vmsize)

def scanSegment (s : Span) (seg : SegmentCommand) : Span :=
  if needsMemory seg then
    ⟨if seg.vmaddr < s.minVmaddr then seg.vmaddr else s.minVmaddr,
      if s.maxVmend < seg.vmaddr + seg.vmsize then seg.vmaddr + seg.vmsize else s.maxVmend⟩
  else s

def scanSegments (cmds : List SegmentCommand) : Span := cmds.foldl scanSegment ⟨BitVec.allOnes 64, 0⟩

structure SpaceAnswers where
  fixed : Bool
  place : Option ℕ

structure Slid where
  slide : W64
  pages : Space Page
  range : Option (ℕ × ℕ)

def reserveAnywhere (span : Span) (place : Option ℕ) (m : Space Page) : Slid :=
  match place with
  | none => ⟨0, m, none⟩
  | some p =>
    ⟨BitVec.ofNat 64 (p * 4096) - span.minVmaddr, m.map p span.pages ⟨true, PROT_NONE⟩, some (p, span.pages)⟩

def computeSlide (pie : Bool) (cmds : List SegmentCommand) (ans : SpaceAnswers) (m : Space Page) : Slid :=
  let span := scanSegments cmds
  if span.minVmaddr ≠ BitVec.allOnes 64 ∧ span.minVmaddr < span.maxVmend then
    if pie then reserveAnywhere span ans.place m
    -- `MAP_FIXED` at the address of the file
    else if ans.fixed then
      ⟨0, m.map (pageOf span.minVmaddr) span.pages ⟨true, PROT_NONE⟩, some (pageOf span.minVmaddr, span.pages)⟩
    else reserveAnywhere span ans.place m
  else ⟨0, m, none⟩

structure SegmentAnswers where
  limit : ℕ
  fixed : Bool

def initialProt (seg : SegmentCommand) : W32 :=
  PROT_READ ||| PROT_WRITE ||| if seg.initprot &&& VM_PROT_EXECUTE ≠ 0 then PROT_EXEC else 0

def accessPages (slide : W64) (m : Space Page) (seg : SegmentCommand) (a : SegmentAnswers) : Space Page × Bool :=
  let p := pageOf (seg.vmaddr + slide)
  let n := pagesOf (mapSize seg)
  let r := m.mprotect p n (fun page => { page with rights := initialProt seg }) a.limit
  if r.2 then r
  else if a.fixed then (r.1.map p n ⟨true, initialProt seg⟩, true)
  else r

/-- `map_segment` with the pages. The tables are `none` once a segment has failed, which ends the load. -/
def mapSegmentPages (slide fileSize : W64) (s : Space Page × Option Tables)
    (c : SegmentCommand × SegmentAnswers) : Space Page × Option Tables :=
  match s.2 with
  | none => s
  | some t =>
    let r :=
      if maxSegments ≤ t.segments.length ∨ needsMemory c.1 = false then (s.1, true)
      else accessPages slide s.1 c.1 c.2
    (r.1, mapSegment ⟨slide, fileSize, fun _ => r.2⟩ t c.1)

def existing (before : Space W32) : Space Page := fun q => (before q).map fun rights => ⟨false, rights⟩

def Undisturbed (before : Space W32) (m : Space Page) : Prop :=
  ∀ q rights, before q = some rights → m q = some ⟨false, rights⟩

/-- Segments that start on a page and do not wrap around, in whole pages. -/
def Aligned (cmds : List SegmentCommand) : Prop :=
  ∀ seg ∈ cmds, needsMemory seg = true →
    seg.vmaddr.toNat % 4096 = 0 ∧ seg.vmaddr.toNat + seg.vmsize.toNat ≤ 2 ^ 64 - 4096

def PicksFree (before : Space W32) (cmds : List SegmentCommand) (place : Option ℕ) : Prop :=
  ∀ p, place = some p →
    (∀ q, Within p (scanSegments cmds).pages q → before q = none) ∧ p + (scanSegments cmds).pages < 2 ^ 52

/-- What a load depends on. Each segment comes with the answers that it gets. -/
structure Load where
  pie : Bool
  fileSize : W64
  before : Space W32
  ans : SpaceAnswers
  cmds : List (SegmentCommand × SegmentAnswers)

def InRange (s : Slid) (seg : SegmentCommand) : Prop :=
  ∃ p n, s.range = some (p, n) ∧
    ∀ q, Within (pageOf (seg.vmaddr + s.slide)) (pagesOf seg.vmsize) q → Within p n q

namespace Load

variable (ld : Load)

def segments : List SegmentCommand := ld.cmds.map Prod.fst

def slid : Slid := computeSlide ld.pie ld.segments ld.ans (existing ld.before)

def start : Space Page × Option Tables := (ld.slid.pages, some ⟨[], []⟩)

def step : Space Page × Option Tables → SegmentCommand × SegmentAnswers → Space Page × Option Tables :=
  mapSegmentPages ld.slid.slide ld.fileSize

def loaded : Space Page × Option Tables := ld.cmds.foldl ld.step ld.start

/-- Neither the reservation nor a segment disturbs anything, and if all segments are loaded, they lie inside
    of the reserved range. -/
def DisturbsNothing : Prop :=
  Undisturbed ld.before ld.start.1 ∧
  Along ld.step (fun s c => Undisturbed ld.before (ld.step s c).1) ld.start ld.cmds ∧
  (ld.loaded.2.isSome = true → ∀ c ∈ ld.cmds, needsMemory c.1 = true → InRange ld.slid c.1)

end Load

/-- `mprotect` reaches only pages with these rights; if not all, `mmap` replaces only free pages. -/
def SparesOthers (before : Space W32) (slide : W64) (m : Space Page) (c : SegmentCommand × SegmentAnswers) : Prop :=
  let p := pageOf (c.1.vmaddr + slide)
  let n := pagesOf (mapSize c.1)
  (∀ q rights, Within p (m.reached p n c.2.limit) q → before q = some rights → rights = initialProt c.1) ∧
    (m.reached p n c.2.limit ≠ n → c.2.fixed = true → ∀ q, Within p n q → before q = none)

section Scan

variable {cmds : List SegmentCommand} {seg : SegmentCommand} {s : Span}

structure Span.Covers (s : Span) (cmds : List SegmentCommand) : Prop where
  lower : ∀ seg ∈ cmds, needsMemory seg = true → s.minVmaddr ≤ seg.vmaddr
  upper : ∀ seg ∈ cmds, needsMemory seg = true → seg.vmaddr + seg.vmsize ≤ s.maxVmend

lemma scanSegment_le : (scanSegment s seg).minVmaddr ≤ s.minVmaddr ∧ s.maxVmend ≤ (scanSegment s seg).maxVmend := by
  unfold scanSegment
  split
  next =>
    constructor
    · dsimp only
      split
      next lt => exact BitVec.le_of_lt lt
      next => exact BitVec.le_refl _
    · dsimp only
      split
      next lt => exact BitVec.le_of_lt lt
      next => exact BitVec.le_refl _
  next => exact ⟨BitVec.le_refl _, BitVec.le_refl _⟩

lemma foldl_scanSegment_le :
    (cmds.foldl scanSegment s).minVmaddr ≤ s.minVmaddr ∧ s.maxVmend ≤ (cmds.foldl scanSegment s).maxVmend := by
  induction cmds generalizing s with
  | nil => exact ⟨BitVec.le_refl _, BitVec.le_refl _⟩
  | cons seg cmds ih =>
    have first := @scanSegment_le seg s
    have rest := @ih (scanSegment s seg)
    exact ⟨BitVec.le_trans rest.1 first.1, BitVec.le_trans first.2 rest.2⟩

lemma scanSegment_here (needs : needsMemory seg = true) :
    (scanSegment s seg).minVmaddr ≤ seg.vmaddr ∧ seg.vmaddr + seg.vmsize ≤ (scanSegment s seg).maxVmend := by
  rw [scanSegment, if_pos needs]
  constructor
  · dsimp only
    split
    next => exact BitVec.le_refl _
    next ge => exact BitVec.not_lt.mp ge
  · dsimp only
    split
    next => exact BitVec.le_refl _
    next ge => exact BitVec.not_lt.mp ge

lemma foldl_scanSegment_covers : (cmds.foldl scanSegment s).Covers cmds := by
  induction cmds generalizing s with
  | nil => exact ⟨fun _ mem => absurd mem List.not_mem_nil, fun _ mem => absurd mem List.not_mem_nil⟩
  | cons seg cmds ih =>
    have rest := @ih (scanSegment s seg)
    have bounds := @foldl_scanSegment_le cmds (scanSegment s seg)
    constructor
    · rintro seg' mem needs
      rcases List.mem_cons.mp mem with rfl | mem
      · exact BitVec.le_trans bounds.1 (scanSegment_here needs).1
      · exact rest.lower seg' mem needs
    · rintro seg' mem needs
      rcases List.mem_cons.mp mem with rfl | mem
      · exact BitVec.le_trans (scanSegment_here needs).2 bounds.2
      · exact rest.upper seg' mem needs

lemma foldl_scanSegment_min :
    (cmds.foldl scanSegment s).minVmaddr = s.minVmaddr ∨
      ∃ seg ∈ cmds, needsMemory seg = true ∧ (cmds.foldl scanSegment s).minVmaddr = seg.vmaddr := by
  induction cmds generalizing s with
  | nil => exact .inl rfl
  | cons seg cmds ih =>
    rcases @ih (scanSegment s seg) with same | ⟨seg', mem, needs, eq⟩
    · rw [List.foldl_cons, same, scanSegment]
      split
      next needs =>
        dsimp only
        split
        next => exact .inr ⟨seg, List.mem_cons_self, needs, rfl⟩
        next => exact .inl rfl
      next => exact .inl rfl
    · exact .inr ⟨seg', List.mem_cons_of_mem seg mem, needs, eq⟩

lemma scanSegments_of_none (none : ∀ seg ∈ cmds, needsMemory seg = false) :
    scanSegments cmds = ⟨BitVec.allOnes 64, 0⟩ := by
  unfold scanSegments
  induction cmds with
  | nil => rfl
  | cons seg cmds ih =>
    have skip : needsMemory seg ≠ true := by
      rw [none seg List.mem_cons_self]
      exact Bool.false_ne_true
    rw [List.foldl_cons, scanSegment, if_neg skip]
    exact ih fun seg' mem => none seg' (List.mem_cons_of_mem seg mem)

lemma needsMemory_pos (needs : needsMemory seg = true) : 0 < seg.vmsize.toNat := by
  unfold needsMemory at needs
  rw [Bool.and_eq_true, decide_eq_true_eq, BitVec.lt_def] at needs
  exact needs.2

structure Span.Proper (s : Span) (cmds : List SegmentCommand) : Prop where
  aligned : s.minVmaddr.toNat % 4096 = 0
  nonempty : s.minVmaddr.toNat < s.maxVmend.toNat
  covers : ∀ seg ∈ cmds, needsMemory seg = true →
    s.minVmaddr.toNat ≤ seg.vmaddr.toNat ∧ seg.vmaddr.toNat + seg.vmsize.toNat ≤ s.maxVmend.toNat

lemma scanSegments_proper (aligned : Aligned cmds) (mem : seg ∈ cmds) (needs : needsMemory seg = true) :
    (scanSegments cmds).Proper cmds := by
  have covers : (scanSegments cmds).Covers cmds := foldl_scanSegment_covers
  have bounds : ∀ seg ∈ cmds, needsMemory seg = true →
      (scanSegments cmds).minVmaddr.toNat ≤ seg.vmaddr.toNat ∧
        seg.vmaddr.toNat + seg.vmsize.toNat ≤ (scanSegments cmds).maxVmend.toNat := by
    intro seg mem needs
    have lower := covers.lower seg mem needs
    have upper := covers.upper seg mem needs
    have room := (aligned seg mem needs).2
    rw [BitVec.le_def] at lower upper
    rw [BitVec.toNat_add, Nat.mod_eq_of_lt (by omega)] at upper
    exact ⟨lower, upper⟩
  have here := bounds seg mem needs
  have positive := needsMemory_pos needs
  refine ⟨?_, by omega, bounds⟩
  rcases @foldl_scanSegment_min cmds ⟨BitVec.allOnes 64, 0⟩ with ones | ⟨seg', mem', needs', eq⟩
  · -- the first segment starts before the last address
    have room := (aligned seg mem needs).2
    have last : (scanSegments cmds).minVmaddr.toNat = 2 ^ 64 - 1 := by
      show (cmds.foldl scanSegment _).minVmaddr.toNat = _
      rw [ones]
      rfl
    omega
  · show (cmds.foldl scanSegment _).minVmaddr.toNat % 4096 = 0
    rw [eq]
    exact (aligned seg' mem' needs').1

end Scan

section Range

variable {pie : Bool} {cmds : List SegmentCommand} {ans : SpaceAnswers} {m : Space Page} {seg : SegmentCommand}
  {p n : ℕ}

inductive Outcome (cmds : List SegmentCommand) (ans : SpaceAnswers) (m : Space Page) : Slid → Prop where
  | nothing : Outcome cmds ans m ⟨0, m, none⟩
  | chosen (p : ℕ) (place : ans.place = some p) :
    Outcome cmds ans m ⟨BitVec.ofNat 64 (p * 4096) - (scanSegments cmds).minVmaddr,
      m.map p (scanSegments cmds).pages ⟨true, PROT_NONE⟩, some (p, (scanSegments cmds).pages)⟩
  | fixed :
    Outcome cmds ans m ⟨0, m.map (pageOf (scanSegments cmds).minVmaddr) (scanSegments cmds).pages ⟨true, PROT_NONE⟩,
      some (pageOf (scanSegments cmds).minVmaddr, (scanSegments cmds).pages)⟩

lemma reserveAnywhere_outcome : Outcome cmds ans m (reserveAnywhere (scanSegments cmds) ans.place m) := by
  unfold reserveAnywhere
  split
  next => exact .nothing
  next p place => exact .chosen p place

lemma computeSlide_outcome : Outcome cmds ans m (computeSlide pie cmds ans m) := by
  unfold computeSlide
  dsimp only
  split_ifs
  · exact reserveAnywhere_outcome
  · exact .fixed
  · exact reserveAnywhere_outcome
  · exact .nothing

lemma pagesOf_mapSize (room : seg.vmsize.toNat ≤ 2 ^ 64 - 4096) : pagesOf (mapSize seg) = pagesOf seg.vmsize := by
  have size : (mapSize seg).toNat = (seg.vmsize + 4095).toNat / 4096 * 4096 := toNat_clear 12
  have sum : (seg.vmsize + 4095).toNat = seg.vmsize.toNat + 4095 := by
    rw [BitVec.toNat_add]
    exact Nat.mod_eq_of_lt (show seg.vmsize.toNat + 4095 < 2 ^ 64 by omega)
  unfold pagesOf
  rw [size, sum]
  omega

lemma Span.Proper.size {s : Span} (proper : s.Proper cmds) :
    s.pages = (s.maxVmend.toNat - s.minVmaddr.toNat + 4095) / 4096 := by
  have nonempty := proper.nonempty
  rw [Span.pages, pagesOf, BitVec.toNat_sub_of_le (BitVec.le_def.mpr (by omega))]

lemma pageOf_slid {s : Span} (proper : s.Proper cmds) (room : p + s.pages < 2 ^ 52)
    (start : seg.vmaddr.toNat % 4096 = 0) (lower : s.minVmaddr.toNat ≤ seg.vmaddr.toNat)
    (upper : seg.vmaddr.toNat < s.maxVmend.toNat) :
    pageOf (seg.vmaddr + (BitVec.ofNat 64 (p * 4096) - s.minVmaddr)) =
      p + (seg.vmaddr.toNat - s.minVmaddr.toNat) / 4096 := by
  have base := proper.aligned
  have inside : (seg.vmaddr.toNat - s.minVmaddr.toNat) / 4096 ≤ s.pages := by
    rw [proper.size]
    exact Nat.div_le_div_right (by omega)
  generalize s.pages = n at room inside
  have small : p * 4096 < 2 ^ 64 := by omega
  have place : (BitVec.ofNat 64 (p * 4096)).toNat = p * 4096 := by
    rw [BitVec.toNat_ofNat]
    exact Nat.mod_eq_of_lt small
  have sum : (seg.vmaddr + (BitVec.ofNat 64 (p * 4096) - s.minVmaddr)).toNat =
      seg.vmaddr.toNat - s.minVmaddr.toNat + p * 4096 := by
    have low := s.minVmaddr.isLt
    rw [BitVec.toNat_add, BitVec.toNat_sub, place]
    omega
  rw [pageOf, sum]
  omega

lemma Outcome.inRange {s : Slid} (outcome : Outcome cmds ans m s) (aligned : Aligned cmds)
    (room : ∀ p, ans.place = some p → p + (scanSegments cmds).pages < 2 ^ 52)
    (reserved : s.range.isSome = true) (mem : seg ∈ cmds) (needs : needsMemory seg = true) : InRange s seg := by
  have proper := scanSegments_proper aligned mem needs
  have bounds := proper.covers seg mem needs
  have positive := needsMemory_pos needs
  have start := (aligned seg mem needs).1
  have base := proper.aligned
  have size := proper.size
  cases outcome with
  | nothing => exact absurd reserved Bool.false_ne_true
  | chosen p place =>
    refine ⟨p, _, rfl, fun q within => ?_⟩
    rw [pageOf_slid proper (room p place) start bounds.1 (by omega)] at within
    rw [size]
    unfold Within pagesOf at *
    omega
  | fixed =>
    refine ⟨_, _, rfl, fun q within => ?_⟩
    dsimp only at within
    rw [show seg.vmaddr + 0 = seg.vmaddr from BitVec.add_zero _] at within
    rw [size]
    unfold Within pageOf pagesOf at *
    omega

end Range

section Pages

variable {before : Space W32} {m : Space Page} {slide : W64} {seg : SegmentCommand}
  {a : SegmentAnswers} {p n q : ℕ} {rights : W32}

lemma undisturbed_existing : Undisturbed before (existing before) := by
  intro q rights mapped
  rw [existing, mapped]
  rfl

lemma undisturbed_map_iff (undisturbed : Undisturbed before m) :
    Undisturbed before (m.map p n ⟨true, rights⟩) ↔ ∀ q, Within p n q → before q = none := by
  constructor
  · intro after q within
    cases mapped : before q with
    | none => rfl
    | some old =>
      have kept := after q old mapped
      rw [Space.map_within within] at kept
      exact absurd (congrArg Page.own (Option.some.inj kept)).symm Bool.false_ne_true
  · intro free q old mapped
    have outside : ¬Within p n q := fun within => by
      rw [free q within] at mapped
      cases mapped
    rw [Space.map_outside outside]
    exact undisturbed q old mapped

lemma undisturbed_change_iff (undisturbed : Undisturbed before m) :
    Undisturbed before (m.change p n fun page => { page with rights := rights }) ↔
      ∀ q old, Within p n q → before q = some old → old = rights := by
  constructor
  · intro after q old within mapped
    have kept := after q old mapped
    rw [Space.change_within within, undisturbed q old mapped] at kept
    exact (congrArg Page.rights (Option.some.inj kept)).symm
  · intro same q old mapped
    by_cases within : Within p n q
    · rw [Space.change_within within, undisturbed q old mapped, same q old within mapped]
      rfl
    · rw [Space.change_outside within]
      exact undisturbed q old mapped

lemma accessPages_undisturbed_iff (undisturbed : Undisturbed before m) :
    Undisturbed before (accessPages slide m seg a).1 ↔ SparesOthers before slide m (seg, a) := by
  unfold accessPages SparesOthers Space.mprotect
  dsimp only
  generalize pageOf (seg.vmaddr + slide) = p
  generalize pagesOf (mapSize seg) = n
  by_cases all : m.reached p n a.limit = n
  · rw [if_pos (beq_iff_eq.mpr all), undisturbed_change_iff undisturbed]
    exact ⟨fun same => ⟨fun q old => same q old, fun some => absurd all some⟩, fun spares => spares.1⟩
  · rw [if_neg fun eq => all (beq_iff_eq.mp eq)]
    cases fixed : a.fixed with
    | false =>
      rw [if_neg Bool.false_ne_true, undisturbed_change_iff undisturbed]
      exact ⟨fun same => ⟨same, fun _ granted => absurd granted Bool.false_ne_true⟩, fun spares => spares.1⟩
    | true =>
      rw [if_pos rfl, Space.map_change Space.reached_le, undisturbed_map_iff undisturbed]
      refine ⟨fun free => ⟨fun q old within mapped => ?_, fun _ _ => free⟩, fun spares => spares.2 all rfl⟩
      rw [free q (within.mono Space.reached_le)] at mapped
      cases mapped

lemma accessPages_outside (outside : ¬Within (pageOf (seg.vmaddr + slide)) (pagesOf (mapSize seg)) q) :
    (accessPages slide m seg a).1 q = m q := by
  have changed : m.change (pageOf (seg.vmaddr + slide))
      (m.reached (pageOf (seg.vmaddr + slide)) (pagesOf (mapSize seg)) a.limit)
      (fun page => { page with rights := initialProt seg }) q = m q :=
    Space.change_outside fun inside => outside (inside.mono Space.reached_le)
  unfold accessPages
  dsimp only
  split_ifs
  · exact changed
  · exact (Space.map_outside outside).trans changed
  · exact changed

end Pages

section Loads

variable {ld : Load} {s : Space Page × Option Tables} {c : SegmentCommand × SegmentAnswers}

def Reaches (s : Space Page × Option Tables) (c : SegmentCommand × SegmentAnswers) : Prop :=
  ∃ t, s.2 = some t ∧ t.segments.length < maxSegments ∧ needsMemory c.1 = true

lemma step_pages :
    (Reaches s c → (ld.step s c).1 = (accessPages ld.slid.slide s.1 c.1 c.2).1) ∧
    (¬Reaches s c → (ld.step s c).1 = s.1) := by
  obtain ⟨m, tables⟩ := s
  cases tables with
  | none =>
    refine ⟨?_, fun _ => rfl⟩
    rintro ⟨t, eq, -⟩
    exact absurd eq.symm (Option.some_ne_none t)
  | some t =>
    by_cases skip : maxSegments ≤ t.segments.length ∨ needsMemory c.1 = false
    · have pages : (ld.step (m, some t) c).1 = m := by
        show (if maxSegments ≤ t.segments.length ∨ needsMemory c.1 = false then (m, true) else _).1 = m
        rw [if_pos skip]
      refine ⟨?_, fun _ => pages⟩
      rintro ⟨t', eq, room, needs⟩
      obtain rfl := Option.some.inj eq
      rcases skip with full | none
      · omega
      · exact absurd (none.symm.trans needs) Bool.false_ne_true
    · have pages : (ld.step (m, some t) c).1 = (accessPages ld.slid.slide m c.1 c.2).1 := by
        show (if maxSegments ≤ t.segments.length ∨ needsMemory c.1 = false then (m, true) else _).1 = _
        rw [if_neg skip]
      refine ⟨fun _ => pages, fun not => absurd ⟨t, rfl, ?_, ?_⟩ not⟩
      · omega
      · exact Bool.eq_true_of_not_eq_false fun none => skip (.inr none)

lemma step_undisturbed_iff (undisturbed : Undisturbed ld.before s.1) :
    Undisturbed ld.before (ld.step s c).1 ↔ (Reaches s c → SparesOthers ld.before ld.slid.slide s.1 c) := by
  by_cases reaches : Reaches s c
  · rw [step_pages.1 reaches, accessPages_undisturbed_iff undisturbed]
    exact ⟨fun spares _ => spares, fun spares => spares reaches⟩
  · rw [step_pages.2 reaches]
    exact ⟨fun _ here => absurd here reaches, fun _ => undisturbed⟩

lemma InRange.outside {sl : Slid} {seg : SegmentCommand} {p n q : ℕ} (inRange : InRange sl seg)
    (range : sl.range = some (p, n)) (room : seg.vmsize.toNat ≤ 2 ^ 64 - 4096) (outside : ¬Within p n q) :
    ¬Within (pageOf (seg.vmaddr + sl.slide)) (pagesOf (mapSize seg)) q := by
  obtain ⟨p', n', range', inside⟩ := inRange
  rw [range] at range'
  obtain ⟨rfl, rfl⟩ := Prod.mk.inj (Option.some.inj range')
  rw [pagesOf_mapSize room]
  exact fun within => outside (inside q within)

lemma step_undisturbed {p n : ℕ} (range : ld.slid.range = some (p, n))
    (free : ∀ q, Within p n q → ld.before q = none) (aligned : Aligned ld.segments) (mem : c ∈ ld.cmds)
    (inRange : needsMemory c.1 = true → InRange ld.slid c.1) (undisturbed : Undisturbed ld.before s.1) :
    Undisturbed ld.before (ld.step s c).1 := by
  by_cases reaches : Reaches s c
  · rw [step_pages.1 reaches]
    obtain ⟨-, -, -, needs⟩ := reaches
    have room := (aligned c.1 (List.mem_map_of_mem mem) needs).2
    intro q rights mapped
    have outside : ¬Within p n q := fun within => by
      rw [free q within] at mapped
      cases mapped
    rw [accessPages_outside ((inRange needs).outside range (by omega) outside)]
    exact undisturbed q rights mapped
  · rw [step_pages.2 reaches]
    exact undisturbed

lemma along_undisturbed {l : List (SegmentCommand × SegmentAnswers)} {f : Space Page × Option Tables →
      SegmentCommand × SegmentAnswers → Space Page × Option Tables}
    (step : ∀ s, ∀ c ∈ l, Undisturbed ld.before s.1 → Undisturbed ld.before (f s c).1)
    (undisturbed : Undisturbed ld.before s.1) : Along f (fun s c => Undisturbed ld.before (f s c).1) s l := by
  induction l generalizing s with
  | nil => trivial
  | cons c l ih =>
    have first := step s c List.mem_cons_self undisturbed
    exact ⟨first, ih (fun s c mem => step s c (List.mem_cons_of_mem _ mem)) first⟩

lemma disturbsNothing_of_none (none : ∀ c ∈ ld.cmds, needsMemory c.1 = false) : ld.DisturbsNothing := by
  have first : Undisturbed ld.before ld.start.1 := by
    have span := @scanSegments_of_none ld.segments fun seg mem => by
      obtain ⟨c, here, rfl⟩ := List.mem_map.mp mem
      exact none c here
    have pages : ld.slid.pages = existing ld.before := by
      rw [Load.slid, computeSlide, span]
      rfl
    rw [Load.start, pages]
    exact undisturbed_existing
  refine ⟨first, along_undisturbed (fun s c mem undisturbed => ?_) first, fun _ c mem needs => ?_⟩
  · rw [step_pages.2 fun reaches => ?_]
    · exact undisturbed
    · obtain ⟨-, -, -, needs⟩ := reaches
      exact Bool.false_ne_true ((none c mem).symm.trans needs)
  · exact absurd ((none c mem).symm.trans needs) Bool.false_ne_true

lemma disturbsNothing_iff_free {p n : ℕ} (aligned : Aligned ld.segments)
    (picks : PicksFree ld.before ld.segments ld.ans.place) (range : ld.slid.range = some (p, n)) :
    ld.DisturbsNothing ↔ ∀ q, Within p n q → ld.before q = none := by
  have outcome : Outcome ld.segments ld.ans (existing ld.before) ld.slid := computeSlide_outcome
  have pages : ld.slid.pages = (existing ld.before).map p n ⟨true, PROT_NONE⟩ := by
    generalize ld.slid = sl at outcome range
    cases outcome with
    | nothing => exact absurd range.symm (Option.some_ne_none _)
    | chosen p' place | fixed =>
      obtain ⟨rfl, rfl⟩ := Prod.mk.inj (Option.some.inj range)
      rfl
  have inRange : ∀ c ∈ ld.cmds, needsMemory c.1 = true → InRange ld.slid c.1 :=
    fun c mem needs => outcome.inRange aligned (fun p place => (picks p place).2) (by rw [range]; rfl)
      (List.mem_map_of_mem mem) needs
  have first := @undisturbed_map_iff ld.before (existing ld.before) p n PROT_NONE undisturbed_existing
  constructor
  · intro nothing
    have undisturbed := nothing.1
    rw [Load.start, pages] at undisturbed
    exact first.mp undisturbed
  · intro free
    have undisturbed : Undisturbed ld.before ld.start.1 := by
      rw [Load.start, pages]
      exact first.mpr free
    refine ⟨undisturbed, along_undisturbed (fun s c mem => ?_) undisturbed, fun _ => inRange⟩
    exact step_undisturbed range free aligned mem (inRange c mem)

lemma disturbsNothing_iff_unreserved (mem : c ∈ ld.cmds) (needs : needsMemory c.1 = true)
    (range : ld.slid.range = none) :
    ld.DisturbsNothing ↔ ld.loaded.2 = none ∧
      Along ld.step (fun s c => Reaches s c → SparesOthers ld.before ld.slid.slide s.1 c) ld.start ld.cmds := by
  have outcome : Outcome ld.segments ld.ans (existing ld.before) ld.slid := computeSlide_outcome
  have first : Undisturbed ld.before ld.start.1 := by
    rw [Load.start]
    generalize ld.slid = sl at outcome range
    cases outcome with
    | nothing => exact undisturbed_existing
    | chosen p place | fixed => exact absurd range (Option.some_ne_none _)
  have steps := along_invariant_iff (l := ld.cmds) (fun s : Space Page × Option Tables => Undisturbed ld.before s.1)
    (fun s c undisturbed => @step_undisturbed_iff ld s c undisturbed) first
  constructor
  · rintro ⟨-, during, placed⟩
    refine ⟨Option.not_isSome_iff_eq_none.mp fun success => ?_, steps.mp during⟩
    obtain ⟨p, n, some, -⟩ := placed success c mem needs
    exact Option.some_ne_none _ (some.symm.trans range)
  · rintro ⟨fails, spares⟩
    refine ⟨first, steps.mpr spares, fun success => ?_⟩
    rw [fails] at success
    exact absurd success Bool.false_ne_true

/-- There is no segment to map, the range was free, or none could be reserved, the load fails, and until then
    every segment spares what it finds. -/
theorem reservation_disturbs_nothing_iff (ld : Load) (aligned : Aligned ld.segments)
    (picks : PicksFree ld.before ld.segments ld.ans.place) :
    ld.DisturbsNothing ↔
      (∀ c ∈ ld.cmds, needsMemory c.1 = false) ∨
      (∃ p n, ld.slid.range = some (p, n) ∧ ∀ q, Within p n q → ld.before q = none) ∨
      ld.slid.range = none ∧ ld.loaded.2 = none ∧
        Along ld.step (fun s c => Reaches s c → SparesOthers ld.before ld.slid.slide s.1 c) ld.start ld.cmds := by
  by_cases none : ∀ c ∈ ld.cmds, needsMemory c.1 = false
  · exact ⟨fun _ => .inl none, fun _ => disturbsNothing_of_none none⟩
  · simp only [none, false_or]
    push Not at none
    obtain ⟨c, mem, needs⟩ := none
    cases range : ld.slid.range with
    | none =>
      rw [disturbsNothing_iff_unreserved mem (Bool.eq_true_of_not_eq_false needs) range]
      simp only [reduceCtorEq, false_and, exists_false, false_or, true_and]
    | some r =>
      obtain ⟨p, n⟩ := r
      rw [disturbsNothing_iff_free aligned picks range]
      simp only [Option.some.injEq, Prod.mk.injEq, reduceCtorEq, false_and, or_false]
      constructor
      · exact fun free => ⟨p, n, ⟨rfl, rfl⟩, free⟩
      · rintro ⟨p', n', ⟨rfl, rfl⟩, free⟩
        exact free

end Loads

def onePage : List (SegmentCommand × SegmentAnswers) :=
  [(⟨ascii "__TEXT", 0x100000000, 0x1000, 0, 0, 5, []⟩, ⟨1, true⟩)]

def taken : Space W32 := fun q => if q = 0x100000 then some 5 else none

def moved : Load := ⟨true, 0, taken, ⟨true, some 0x10⟩, onePage⟩

def notMoved : Load := ⟨false, 0, taken, ⟨true, none⟩, onePage⟩

lemma onePage_aligned : Aligned (onePage.map Prod.fst) := by
  intro seg mem _
  obtain rfl := List.mem_singleton.mp mem
  decide

lemma onePage_pages : (scanSegments (onePage.map Prod.fst)).pages = 1 := by decide +kernel

theorem reservation_disturbs_nothing_moved :
    Aligned moved.segments ∧ PicksFree taken moved.segments (some 0x10) ∧ moved.DisturbsNothing := by
  have picks : PicksFree taken moved.segments (some 0x10) := by
    intro p place
    obtain rfl := Option.some.inj place
    rw [show (scanSegments moved.segments).pages = 1 from onePage_pages]
    refine ⟨fun q within => if_neg ?_, by decide⟩
    unfold Within at within
    omega
  have range : moved.slid.range = some (0x10, 1) := by decide +kernel
  refine ⟨onePage_aligned, picks, (reservation_disturbs_nothing_iff moved onePage_aligned picks).mpr
    (.inr (.inl ⟨0x10, 1, range, fun q within => if_neg ?_⟩))⟩
  unfold Within at within
  omega

/-- An image that may not be moved is put in the place of a library. -/
theorem reservation_replaces_library :
    taken 0x100000 = some 5 ∧ notMoved.start.1 0x100000 = some ⟨true, 0⟩ ∧ ¬notMoved.DisturbsNothing := by
  have replaced : notMoved.start.1 0x100000 = some ⟨true, 0⟩ := by decide +kernel
  refine ⟨rfl, replaced, fun nothing => ?_⟩
  exact absurd ((nothing.1 0x100000 5 rfl).symm.trans replaced) (by decide)

end Macify.Image.Placement
