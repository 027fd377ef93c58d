import Macify.Dylib.Registry
import Macify.Dylib.ExportNames

/-!
# Where a dylib lands

The kernel maps a dylib at any distance from its preferred address. The caller of `map_dylib_segments` takes a
negative slide for a failure. The exports are published with the slide in the slot, to which the loads of the
dependencies write as well (`Settles`), up to a limit. `dylib_lands_iff` puts this together.
-/

namespace Macify.Dylib
open Lib Image

abbrev Slot := W64 × List Export

def Loader.slotAt (st : Loader) (i : ℕ) : Slot := ((st.slots i).slide, (st.slots i).exports)

def mapsAfter (maps : ℕ) (g : DylibFile) : ℕ := if lowAddr g.segments = -1 then maps else maps + 1

/-- What loading dependencies makes of the caller's slot. The first one that is mapped keeps it. -/
inductive Settles (env : LoadEnv) (known : Buf → Bool) : List Buf → ℕ → Slot → Slot → Prop where
  | nil {maps slot} : Settles env known [] maps slot slot
  | idle {q qs maps slot slot'} :
    (known q = true ∨ ∀ g, env.fs.load q = some g → g.isDylib = false) →
    Settles env known qs maps slot slot' →
    Settles env known (q :: qs) maps slot slot'
  | failed {q qs g maps slot slot'} :
    known q = false →
    env.fs.load q = some g →
    g.isDylib = true →
    mapDylibSegments (env.mmap maps) g = none →
    Settles env known qs (mapsAfter maps g) (0, []) slot' →
    Settles env known (q :: qs) maps slot slot'
  | loaded {q qs g slide maps slot slot'} :
    known q = false →
    env.fs.load q = some g →
    g.isDylib = true →
    mapDylibSegments (env.mmap maps) g = some slide →
    Settles env known (env.requested q g) (mapsAfter maps g) (slide, []) slot' →
    Settles env known (q :: qs) maps slot (slot'.1, parseExports slot'.1 g.symtab slot'.2)

section Slot

variable {st : Loader} {p : Buf} {f : DylibFile} {slide : W64} {i : ℕ}

lemma names_failed : ((st.reserve p).countMap f).registered = st.registered :=
  funext fun _ => registered_failed

lemma names_opened : (st.opened p f slide).registered = st.registered :=
  funext fun _ => registered_opened

lemma slotAt_failed : ((st.reserve p).countMap f).slotAt st.count = (0, []) := by
  rw [Loader.slotAt, countMap_slots, reserve_slots, if_pos rfl]

lemma slotAt_opened : (st.opened p f slide).slotAt st.count = (slide, []) := by
  rw [Loader.slotAt, opened_slots, if_pos rfl]

lemma slotAt_publish : (st.publish i f).slotAt i =
    ((st.slotAt i).1, parseExports (st.slotAt i).1 f.symtab (st.slotAt i).2) := by
  rw [Loader.slotAt, publish_slots, if_pos rfl]
  rfl

end Slot

section Settles

variable {env : LoadEnv} {known : Buf → Bool} {ps : List Buf} {maps : ℕ} {slot slot₁ slot₂ : Slot}
  {st st' : Loader}

lemma not_idle {q g} (new : known q = false) (file : env.fs.load q = some g) (dylib : g.isDylib = true) :
    ¬(known q = true ∨ ∀ g, env.fs.load q = some g → g.isDylib = false) := by
  rintro (old | other)
  · cases old.symm.trans new
  · cases dylib.symm.trans (other g file)

lemma Settles.unique (fst : Settles env known ps maps slot slot₁)
    (snd : Settles env known ps maps slot slot₂) : slot₁ = slot₂ := by
  induction fst generalizing slot₂ with
  | nil =>
    cases snd
    rfl
  | idle idle _ ih =>
    cases snd with
    | idle _ snd => exact ih snd
    | failed new file dylib _ _ | loaded new file dylib _ _ => exact absurd idle (not_idle new file dylib)
  | failed new file dylib fails _ ih =>
    cases snd with
    | idle idle _ => exact absurd idle (not_idle new file dylib)
    | failed _ file' _ _ snd =>
      cases file.symm.trans file'
      exact ih snd
    | loaded _ file' _ maps _ =>
      cases file.symm.trans file'
      cases fails.symm.trans maps
  | loaded new file dylib mapped _ ih =>
    cases snd with
    | idle idle _ => exact absurd idle (not_idle new file dylib)
    | failed _ file' _ fails _ =>
      cases file.symm.trans file'
      cases mapped.symm.trans fails
    | loaded _ file' _ mapped' snd =>
      cases file.symm.trans file'
      cases mapped.symm.trans mapped'
      rw [ih snd]

lemma length_parseExports {slide syms acc} (room : acc.length ≤ maxDylibSyms) :
    (parseExports slide syms acc).length ≤ maxDylibSyms := by
  rw [parseExports_eq room]
  exact List.length_take_le _ _

lemma Settles.room (run : Settles env known ps maps slot slot₁) (room : slot.2.length ≤ maxDylibSyms) :
    slot₁.2.length ≤ maxDylibSyms := by
  induction run with
  | nil => exact room
  | idle _ _ ih => exact ih room
  | failed _ _ _ _ _ ih => exact ih (Nat.zero_le _)
  | loaded _ _ _ _ _ ih => exact length_parseExports (ih (Nat.zero_le _))

lemma Loads.settles (run : Loads env ps st st') (room : st.count < maxMachoDylibs) :
    Settles env st.registered ps st.maps (st.slotAt st.count) (st'.slotAt st.count) := by
  induction run with
  | nil => exact .nil
  | inert inert _ ih => exact .idle (inert.resolve_left (Nat.not_le.mpr room)) (ih room)
  | @failed p ps st st' f active file fails _ ih =>
    have new : st.registered p = false :=
      Bool.eq_false_iff.mpr fun reg => active (.inr (.inl reg))
    have rest := ih (by simpa using room)
    rw [names_failed, countMap_count, reserve_count, countMap_maps, reserve_maps, slotAt_failed] at rest
    exact .failed new file (isDylib_of_active active file) fails rest
  | @loaded p ps st st₁ st' f slide active file maps deps rest ihd _ =>
    have new : st.registered p = false :=
      Bool.eq_false_iff.mpr fun reg => active (.inr (.inl reg))
    have nested := ihd (by simpa using room)
    rw [names_opened, opened_count, opened_maps, slotAt_opened] at nested
    -- once the dependency is published, the slot is below the count and stays as it is
    have below : st.count < (st₁.publish st.count f).count := by
      have := deps.extends.count
      rw [opened_count] at this
      rw [publish_count]
      omega
    have kept : st'.slotAt st.count = (st₁.publish st.count f).slotAt st.count := by
      rw [Loader.slotAt, rest.extends.slots _ below]
      rfl
    rw [kept, slotAt_publish]
    exact .loaded new file (isDylib_of_active active file) maps nested

end Settles

/-- The call returns 0, and adds to its slot the exported symbols of the file at their slid addresses. -/
def Lands (env : LoadEnv) (st : Loader) (path : Buf) (f : DylibFile) (slide : W64) : Prop :=
  ∃ fuel st₁, Loads env (env.requested path f) (st.opened path f slide) st₁ ∧
    machoLoadDylib env fuel path st = some (true, st₁.publish st.count f) ∧
    ((st₁.publish st.count f).slots st.count).exports =
      (st₁.slots st.count).exports ++ f.symtab.filterMap (exportOf slide)

section Published

variable {slide other : W64} {syms : List Nlist} {acc : List Export}

lemma exportOf_slid {s : Nlist} : exportOf slide s = (exportOf 0 s).map fun e => ⟨e.name, e.addr + slide⟩ := by
  unfold exportOf
  split_ifs
  · rfl
  · rfl
  · rfl
  · cases s.name with
    | none => rfl
    | some name =>
      cases name with
      | nil => rfl
      | cons c name =>
        show some (Export.mk _ (s.value + slide)) = some (Export.mk _ (s.value + 0 + slide))
        rw [show s.value + 0 = s.value from BitVec.add_zero _]

lemma exports_slid : syms.filterMap (exportOf slide) =
    (syms.filterMap (exportOf 0)).map fun e => ⟨e.name, e.addr + slide⟩ := by
  rw [List.map_filterMap]
  exact List.filterMap_congr fun s _ => exportOf_slid

lemma exports_eq_nil_iff : syms.filterMap (exportOf other) = [] ↔ syms.filterMap (exportOf slide) = [] := by
  rw [exports_slid, List.map_eq_nil_iff, @exports_slid slide, List.map_eq_nil_iff]

/-- There are none, or they are slid by the slide of the slot and fit. -/
lemma parseExports_iff (room : acc.length ≤ maxDylibSyms) :
    parseExports other syms acc = acc ++ syms.filterMap (exportOf slide) ↔
      syms.filterMap (exportOf slide) = [] ∨
        other = slide ∧ acc.length + (syms.filterMap (exportOf slide)).length ≤ maxDylibSyms := by
  rw [parseExports_eq room]
  constructor
  · intro all
    by_cases none : syms.filterMap (exportOf slide) = []
    · exact .inl none
    right
    have length := congrArg List.length all
    rw [List.length_take, List.length_append, List.length_append, @exports_slid other, @exports_slid slide,
      List.length_map, List.length_map] at length
    have fits : acc.length + (syms.filterMap (exportOf 0)).length ≤ maxDylibSyms := by omega
    refine ⟨?_, by rw [exports_slid, List.length_map]; exact fits⟩
    rw [List.take_of_length_le (by rw [List.length_append, exports_slid, List.length_map]; exact fits)] at all
    have same := List.append_cancel_left all
    rw [exports_slid] at none
    rw [@exports_slid other, @exports_slid slide] at same
    cases first : syms.filterMap (exportOf 0) with
    | nil => exact absurd (by rw [first]; rfl) none
    | cons e es =>
      rw [first, List.map_cons, List.map_cons] at same
      have addr := congrArg Export.addr (List.cons.inj same).1
      exact (BitVec.add_right_inj _).mp addr
  · rintro (none | ⟨rfl, fits⟩)
    · rw [none, exports_eq_nil_iff.mpr none, List.append_nil, List.take_of_length_le room]
    · exact List.take_of_length_le (by rwa [List.length_append])

end Published

section Landing

variable {env : LoadEnv} {st : Loader} {path : Buf} {f : DylibFile} {base : W64}

lemma mapDylibSegments_some (span : lowAddr f.segments ≠ -1) :
    mapDylibSegments (some base) f =
      if (base - lowAddr f.segments).slt 0 then none else some (base - lowAddr f.segments) :=
  if_neg span

lemma Loads.settles_opened {ps slide st₁} (deps : Loads env ps (st.opened path f slide) st₁)
    (active : ¬Inert env st path) (span : lowAddr f.segments ≠ -1) :
    Settles env st.registered ps (st.maps + 1) (slide, []) (st₁.slotAt st.count) := by
  have room : st.count < maxMachoDylibs := Nat.not_le.mp fun full => active (.inl full)
  have run := deps.settles (by simpa using room)
  rw [names_opened, opened_count, opened_maps, if_neg span, slotAt_opened] at run
  exact run

lemma exports_publish_iff {known ps maps i slide own st₁}
    (slot : Settles env known ps maps (slide, []) (Loader.slotAt st₁ i)) :
    ((st₁.publish i f).slots i).exports = (st₁.slots i).exports ++ f.symtab.filterMap (exportOf own) ↔
      f.symtab.filterMap (exportOf own) = [] ∨ (st₁.slots i).slide = own ∧
        (st₁.slots i).exports.length + (f.symtab.filterMap (exportOf own)).length ≤ maxDylibSyms := by
  have free : (st₁.slots i).exports.length ≤ maxDylibSyms := slot.room (Nat.zero_le _)
  rw [publish_slots, if_pos rfl]
  exact parseExports_iff free

/-- A dylib mapped at `base` publishes its exports exactly when the slide is not negative, the loads of its
    dependencies end, and it has no exports, or these loads leave its slide in the slot, and room. -/
theorem dylib_lands_iff (active : ¬Inert env st path) (file : env.fs.load path = some f)
    (span : lowAddr f.segments ≠ -1) (mapped : env.mmap st.maps = some base) :
    Lands env st path f (base - lowAddr f.segments) ↔
      (base - lowAddr f.segments).slt 0 = false ∧
      (∃ st₁, Loads env (env.requested path f) (st.opened path f (base - lowAddr f.segments)) st₁) ∧
      (f.symtab.filterMap (exportOf (base - lowAddr f.segments)) = [] ∨
        ∃ exports, Settles env st.registered (env.requested path f) (st.maps + 1)
            (base - lowAddr f.segments, []) (base - lowAddr f.segments, exports) ∧
          exports.length + (f.symtab.filterMap (exportOf (base - lowAddr f.segments))).length ≤
            maxDylibSyms) := by
  constructor
  · rintro ⟨fuel, st₁, deps, call, exports⟩
    have slot := deps.settles_opened active span
    refine ⟨?_, ⟨st₁, deps⟩, ?_⟩
    · by_contra negative
      have fails : mapDylibSegments (env.mmap st.maps) f = none := by
        rw [mapped, mapDylibSegments_some span, if_pos (by simpa using negative)]
      cases fuel with
      | zero => cases call
      | succ fuel => cases call.symm.trans (machoLoadDylib_failed active file fails)
    · rw [exports_publish_iff slot] at exports
      refine exports.imp_right fun ⟨same, fits⟩ => ⟨(st₁.slots st.count).exports, ?_, fits⟩
      rw [Loader.slotAt, same] at slot
      exact slot
  · rintro ⟨positive, ⟨st₁, deps⟩, exports⟩
    have slot := deps.settles_opened active span
    have maps : mapDylibSegments (env.mmap st.maps) f = some (base - lowAddr f.segments) := by
      rw [mapped, mapDylibSegments_some span, positive]
      rfl
    obtain ⟨fuel, run⟩ := deps.loadDeps
    refine ⟨fuel + 1, st₁, deps, ?_, ?_⟩
    · rw [machoLoadDylib_loaded active file maps, run fuel le_rfl]
      rfl
    · rw [exports_publish_iff slot]
      refine exports.imp_right fun ⟨left, settled, fits⟩ => ?_
      obtain ⟨same, rfl⟩ := Prod.mk.inj (slot.unique settled)
      exact ⟨same, fits⟩

end Landing

def dylibLinkedAt (lo : W64) : DylibFile :=
  { smallDylib [] (ascii "_f") with segments := [⟨ascii "__TEXT", lo, 0x1000, 0, 0x1000, 5, []⟩] }

def landingEnv (lo : W64) : LoadEnv :=
  ⟨.ofList [(ascii "/f.dylib", dylibLinkedAt lo)] rfl, [], fun _ => some 0x7F0000000000⟩

lemma landing_active {lo : W64} : ¬Inert (landingEnv lo) .init (ascii "/f.dylib") := by
  rintro (full | known | other)
  · cases full
  · cases known
  · cases other _ rfl

theorem dylib_lands_iff_low :
    Lands (landingEnv 0x10000) .init (ascii "/f.dylib") (dylibLinkedAt 0x10000)
      (0x7F0000000000 - lowAddr (dylibLinkedAt 0x10000).segments) :=
  (dylib_lands_iff landing_active rfl (by decide) rfl).mpr
    ⟨by decide, ⟨_, .nil⟩, .inr ⟨[], .nil, by decide⟩⟩

/-- The dylib is linked at `0x7FFF00000000` and lands at `0x7F0000000000`. The call fails at the mapping step. -/
theorem dylib_not_landed :
    machoLoadDylib (landingEnv 0x7FFF00000000) 1 (ascii "/f.dylib") .init =
        some (false, (Loader.init.reserve (ascii "/f.dylib")).countMap (dylibLinkedAt 0x7FFF00000000)) ∧
      ¬Lands (landingEnv 0x7FFF00000000) .init (ascii "/f.dylib") (dylibLinkedAt 0x7FFF00000000)
        (0x7F0000000000 - lowAddr (dylibLinkedAt 0x7FFF00000000).segments) := by
  have fails : mapDylibSegments ((landingEnv 0x7FFF00000000).mmap Loader.init.maps)
      (dylibLinkedAt 0x7FFF00000000) = none := by decide
  refine ⟨machoLoadDylib_failed landing_active rfl fails, ?_⟩
  rintro ⟨fuel, st₁, _, call, _⟩
  cases fuel with
  | zero => cases call
  | succ fuel => cases call.symm.trans (machoLoadDylib_failed landing_active rfl fails)

end Macify.Dylib
