import Macify.Dylib.Registry

/-!
# Termination of recursive loading

Whether the recursive loads end and map no file twice, for arbitrary dependency graphs. The measure is a depth-first
walk that enters every library once and keeps the names under which the loader would find it again (`walk`). Main
result: `load_once_iff`.
-/

namespace Macify.Dylib
open Lib Image

def dylibAt (env : LoadEnv) (p : Buf) : Option DylibFile :=
  (env.fs.load p).filter DylibFile.isDylib

/-- The names shown, that of the next library, those entered, the `mmap` calls, and whether each library met
    again could be found. -/
structure Walk where
  names : List Buf
  next : Buf
  entered : List Buf
  maps : ℕ
  good : Bool

def Walk.start : Walk := ⟨[], [], [], 0, true⟩

def Walk.attempt (w : Walk) (p : Buf) (f : DylibFile) : Walk :=
  { w with next := p.take 255, maps := if lowAddr f.segments = -1 then w.maps else w.maps + 1 }

def Walk.enter (w : Walk) (p : Buf) (f : DylibFile) : Walk :=
  { w.attempt p f with entered := w.entered ++ [p] }

def Walk.leave (w : Walk) : Walk := { w with names := w.names ++ [w.next], next := [] }

def walk (env : LoadEnv) : ℕ → Buf → Walk → Walk
  | 0, _, w => w
  | fuel + 1, p, w =>
    if maxMachoDylibs ≤ w.names.length then w
    else if p ∈ w.names then w
    else
      match dylibAt env p with
      | none => w
      | some f =>
        if (mapDylibSegments (env.mmap w.maps) f).isNone then w.attempt p f
        -- the loader would map the file again here, or not come to an end
        else if p ∈ w.entered then { w with good := false }
        else ((env.requested p f).foldl (fun w q => walk env fuel q w) (w.enter p f)).leave

def walkAll (env : LoadEnv) (fuel : ℕ) (ps : List Buf) (w : Walk) : Walk :=
  ps.foldl (fun w q => walk env fuel q w) w

section Walk

variable {env : LoadEnv} {fuel : ℕ} {p : Buf} {ps : List Buf} {w : Walk}

lemma dylibAt_eq_none : dylibAt env p = none ↔ ∀ f, env.fs.load p = some f → f.isDylib = false := by
  unfold dylibAt
  cases env.fs.load p with
  | none => simp
  | some f => simp [Option.filter_some]

lemma walkAll_cons : walkAll env fuel (p :: ps) w = walkAll env fuel ps (walk env fuel p w) := rfl

lemma walk_over (idle : maxMachoDylibs ≤ w.names.length ∨ p ∈ w.names ∨ dylibAt env p = none) :
    walk env fuel p w = w := by
  cases fuel with
  | zero => rfl
  | succ fuel =>
    rw [walk]
    split
    · rfl
    split
    · rfl
    next room unfound =>
      rw [(idle.resolve_left room).resolve_left unfound]

lemma walkAll_good_of (step : ∀ p w, (walk env fuel p w).good = true → w.good = true)
    (good : (walkAll env fuel ps w).good = true) : w.good = true := by
  induction ps generalizing w with
  | nil => exact good
  | cons p ps ih => exact step p w (ih good)

lemma walk_good (good : (walk env fuel p w).good = true) : w.good = true := by
  induction fuel generalizing p w with
  | zero => exact good
  | succ fuel ih =>
    rw [walk] at good
    split at good
    · exact good
    split at good
    · exact good
    split at good
    · exact good
    split at good
    · exact good
    split at good
    · cases good
    next f _ _ _ => exact walkAll_good_of (w := w.enter p f) (fun _ _ => ih) good

lemma walkAll_good (good : (walkAll env fuel ps w).good = true) : w.good = true :=
  walkAll_good_of (fun _ _ => walk_good) good

end Walk

section Names

variable (st : Loader) (p : Buf) (f : DylibFile) (slide : W64) (md i : ℕ)

lemma failed_name :
    (((st.reserve p).countMap f).slots i).name =
      if i = st.count then p.take 255 else (st.slots i).name := by
  rw [countMap_slots, reserve_slots]
  split <;> rfl

lemma opened_name :
    ((st.opened p f slide).slots i).name =
      if i = st.count then p.take 255 else (st.slots i).name := by
  rw [opened_slots]
  split <;> rfl

lemma publish_name : ((st.publish md f).slots i).name = (st.slots i).name := by
  rw [publish_slots]
  split
  · next e => rw [e]
  · rfl

end Names

structure Tracks (files : List Buf) (st : Loader) (w : Walk) : Prop where
  names : (List.range st.count).map (fun i => (st.slots i).name) = w.names
  next : (st.slots st.count).name = w.next
  blank : ∀ i, st.count < i → (st.slots i).name = []
  loaded : st.loaded.map Mapping.path = w.entered
  maps : st.maps = w.maps
  once : w.entered.Nodup
  known : w.entered ⊆ files

section Tracks

variable {env : LoadEnv} {files : List Buf} {st st' : Loader} {w : Walk} {p : Buf} {f : DylibFile}

lemma tracks_start : Tracks files .init .start :=
  ⟨rfl, rfl, fun _ _ => rfl, rfl, rfl, List.nodup_nil, List.nil_subset _⟩

variable (t : Tracks files st w)
include t

lemma Tracks.count : w.names.length = st.count := by
  rw [← t.names, List.length_map, List.length_range]

lemma Tracks.entered_le : w.entered.length ≤ files.length :=
  (t.once.subperm t.known).length_le

lemma Tracks.registered : st.registered p = true ↔ p ∈ w.names := by
  rw [registered_iff, ← t.names]
  simp

lemma Tracks.inert_iff :
    Inert env st p ↔ maxMachoDylibs ≤ w.names.length ∨ p ∈ w.names ∨ dylibAt env p = none := by
  unfold Inert Idle
  rw [t.count, t.registered, dylibAt_eq_none]

lemma Tracks.attempt (p : Buf) (f : DylibFile) : Tracks files ((st.reserve p).countMap f) (w.attempt p f) := by
  refine ⟨?_, ?_, fun i gt => ?_, ?_, ?_, t.once, t.known⟩
  · rw [countMap_count, reserve_count]
    refine Eq.trans (List.map_congr_left fun i mem => ?_) t.names
    rw [failed_name, if_neg (List.mem_range.mp mem).ne]
  · rw [failed_name, countMap_count, reserve_count, if_pos rfl]
    rfl
  · rw [countMap_count, reserve_count] at gt
    rw [failed_name, if_neg gt.ne', t.blank i gt]
  · rw [countMap_loaded, reserve_loaded, t.loaded]
    rfl
  · rw [countMap_maps, reserve_maps, t.maps]
    rfl

lemma Tracks.enter (new : p ∉ w.entered) (known : p ∈ files) (f : DylibFile) (slide : W64) :
    Tracks files (st.opened p f slide) (w.enter p f) := by
  refine ⟨?_, ?_, fun i gt => ?_, ?_, ?_, ?_, ?_⟩
  · rw [opened_count]
    refine Eq.trans (List.map_congr_left fun i mem => ?_) t.names
    rw [opened_name, if_neg (List.mem_range.mp mem).ne]
  · rw [opened_name, opened_count, if_pos rfl]
    rfl
  · rw [opened_count] at gt
    rw [opened_name, if_neg gt.ne', t.blank i gt]
  · rw [opened_loaded, List.map_append, t.loaded]
    rfl
  · rw [opened_maps, t.maps]
    rfl
  · exact List.nodup_append.mpr
      ⟨t.once, List.nodup_singleton p, fun a mem b mem' e =>
        new (List.mem_singleton.mp mem' ▸ e ▸ mem)⟩
  · exact List.append_subset.mpr ⟨t.known, List.cons_subset.mpr ⟨known, List.nil_subset _⟩⟩

lemma Tracks.leave (md : ℕ) (f : DylibFile) : Tracks files (st.publish md f) w.leave := by
  refine ⟨?_, ?_, fun i gt => ?_, t.loaded, t.maps, t.once, t.known⟩
  · rw [publish_count, List.range_succ, List.map_append]
    simp only [publish_name, t.names, List.map_singleton, t.next]
    rfl
  · rw [publish_name, publish_count]
    exact t.blank _ (Nat.lt_succ_self _)
  · rw [publish_count] at gt
    rw [publish_name, t.blank i (by omega)]

lemma Tracks.walk_active {fuel} (active : ¬Inert env st p) (file : env.fs.load p = some f) :
    walk env (fuel + 1) p w =
      if (mapDylibSegments (env.mmap st.maps) f).isNone then w.attempt p f
      else if p ∈ w.entered then { w with good := false }
      else (walkAll env fuel (env.requested p f) (w.enter p f)).leave := by
  have dylib : dylibAt env p = some f := by
    rw [dylibAt, file, Option.filter_some, isDylib_of_active active file]
    rfl
  rw [t.inert_iff] at active
  push Not at active
  obtain ⟨room, unfound, _⟩ := active
  rw [walk, if_neg (Nat.not_le.mpr room), if_neg unfound, dylib, t.maps]
  rfl

lemma Tracks.entered_mono {w'} (t' : Tracks files st' w')
    (ext : Extends st st') : w.entered.length ≤ w'.entered.length := by
  rw [← t.loaded, ← t'.loaded, List.length_map, List.length_map]
  exact ext.loaded.length_le

end Tracks

section Once

variable {env : LoadEnv} {files : List Buf} {st st' : Loader} {w : Walk} {ps : List Buf} {fuel : ℕ}

lemma Loads.tracked (finite : ∀ p f, env.fs.load p = some f → p ∈ files) (run : Loads env ps st st')
    (t : Tracks files st w) (good : w.good = true) (once : (st'.loaded.map Mapping.path).Nodup)
    (enough : files.length < fuel + w.entered.length) :
    Tracks files st' (walkAll env fuel ps w) ∧ (walkAll env fuel ps w).good = true := by
  induction run generalizing w fuel with
  | nil => exact ⟨t, good⟩
  | inert inert _ ih =>
    rw [walkAll_cons, walk_over (t.inert_iff.mp inert)]
    exact ih t good once enough
  | failed active file fails _ ih =>
    have some_fuel := t.entered_le
    obtain ⟨fuel, rfl⟩ : ∃ k, fuel = k + 1 := ⟨fuel - 1, by omega⟩
    rw [walkAll_cons, t.walk_active active file, fails]
    exact ih (t.attempt _ _) good once enough
  | @loaded p ps st st₁ st' f slide active file maps deps rest ihd ih =>
    have some_fuel := t.entered_le
    obtain ⟨fuel, rfl⟩ : ∃ k, fuel = k + 1 := ⟨fuel - 1, by omega⟩
    have later : st₁.loaded <+: st'.loaded := rest.extends.loaded
    -- `p` is mapped now, so it was not mapped before
    have new : p ∉ w.entered := by
      have sub := (deps.extends.loaded.trans later).sublist.map Mapping.path
      have nodup := once.sublist sub
      rw [opened_loaded, List.map_append, t.loaded, List.nodup_append] at nodup
      exact fun mem => nodup.2.2 p mem p (List.mem_singleton.mpr rfl) rfl
    have opened := t.enter new (finite p f file) f slide
    have once₁ := once.sublist (later.sublist.map Mapping.path)
    have enough₁ : files.length < fuel + (w.enter p f).entered.length := by simp [Walk.enter]; omega
    obtain ⟨t₁, good₁⟩ := ihd opened good once₁ enough₁
    have left := t₁.leave st.count f
    rw [walkAll_cons, t.walk_active active file, maps, if_neg (by simp), if_neg new]
    refine ih left good₁ once ?_
    have mono := t.entered_mono left (extends_publish (extends_opened.trans deps.extends))
    omega

lemma walkAll_loads (finite : ∀ p f, env.fs.load p = some f → p ∈ files) (ps : List Buf)
    (t : Tracks files st w) (enough : files.length < fuel + w.entered.length)
    (good : (walkAll env fuel ps w).good = true) :
    ∃ st', Loads env ps st st' ∧ Tracks files st' (walkAll env fuel ps w) := by
  -- every level of the recursion enters a new file, so the fuel outlasts the files not entered yet
  induction fuel generalizing ps st w with
  | zero => exact absurd t.entered_le (by omega)
  | succ fuel ih =>
    induction ps generalizing st w with
    | nil => exact ⟨st, .nil, t⟩
    | cons p ps ihps =>
      rw [walkAll_cons] at good ⊢
      by_cases act : Inert env st p
      · rw [walk_over (t.inert_iff.mp act)] at good ⊢
        obtain ⟨st', rest, t'⟩ := ihps t enough good
        exact ⟨st', .inert act rest, t'⟩
      obtain ⟨f, file, _⟩ := exists_file act
      rw [t.walk_active act file] at good ⊢
      cases maps : mapDylibSegments (env.mmap st.maps) f with
      | none =>
        rw [maps] at good
        obtain ⟨st', rest, t'⟩ := ihps (t.attempt p f) enough good
        exact ⟨st', .failed act file maps rest, t'⟩
      | some slide =>
        rw [maps, if_neg (by simp)] at good
        rw [if_neg (by simp)]
        by_cases again : p ∈ w.entered
        · rw [if_pos again] at good
          cases walkAll_good good
        rw [if_neg again] at good ⊢
        have opened := t.enter again (finite p f file) f slide
        have good₁ : (walkAll env fuel (env.requested p f) (w.enter p f)).good = true :=
          walkAll_good (w := Walk.leave _) good
        have enough₁ : files.length < fuel + (w.enter p f).entered.length := by
          simp [Walk.enter]; omega
        obtain ⟨st₁, deps, t₁⟩ := ih _ opened enough₁ good₁
        have left := t₁.leave st.count f
        have mono := t.entered_mono left (extends_publish (extends_opened.trans deps.extends))
        obtain ⟨st', rest, t'⟩ := ihps left (by omega) good
        exact ⟨st', .loaded act file maps deps rest, t'⟩

/-- The loads from `root` end and map no file twice exactly when every library that the depth-first walk
    meets again can be found by its name. -/
theorem load_once_iff (finite : ∀ p f, env.fs.load p = some f → p ∈ files) (root : Buf) :
    (∃ fuel ok st', machoLoadDylib env fuel root .init = some (ok, st') ∧
        (st'.loaded.map Mapping.path).Nodup) ↔
      (walk env (files.length + 1) root .start).good = true := by
  have enough : files.length < files.length + 1 + Walk.start.entered.length := by simp [Walk.start]
  constructor
  · rintro ⟨fuel, ok, st', run, once⟩
    have run := loads_iff.mpr ⟨fuel, ok, run⟩
    exact (run.tracked finite tracks_start rfl once enough).2
  · intro good
    obtain ⟨st', run, t⟩ := walkAll_loads finite [root] tracks_start enough good
    obtain ⟨fuel, ok, run⟩ := loads_iff.mp run
    refine ⟨fuel, ok, st', run, ?_⟩
    rw [t.loaded]
    exact t.once

lemma self_dependent_diverges {p f rest} (file : env.fs.load p = some f)
    (all : ∀ n, (mapDylibSegments (env.mmap n) f).isSome = true)
    (self : env.requested p f = p :: rest) (active : ¬Inert env st p) :
    machoLoadDylib env fuel p st = none := by
  induction fuel generalizing st with
  | zero => rfl
  | succ fuel ih =>
    obtain ⟨slide, maps⟩ := Option.isSome_iff_exists.mp (all st.maps)
    have again : ¬Inert env (st.opened p f slide) p := by
      rw [inert_opened active]
      exact fun idle => active (.inr idle)
    rw [machoLoadDylib_loaded active file maps, self, loadDeps_cons, ih again]
    rfl

end Once

/-- `/r.dylib` needs `/a.dylib` and `/c.dylib`, which needs `/a.dylib` as well; `/a.dylib` needs
    `/b.dylib`; `/s.dylib` needs itself. -/
def graphFiles : List (Buf × DylibFile) :=
  [(ascii "/r.dylib", smallDylib [ascii "/a.dylib", ascii "/c.dylib"] (ascii "_fr")),
    (ascii "/a.dylib", smallDylib [ascii "/b.dylib"] (ascii "_fa")),
    (ascii "/b.dylib", smallDylib [] (ascii "_fb")),
    (ascii "/c.dylib", smallDylib [ascii "/a.dylib"] (ascii "_fc")),
    (ascii "/s.dylib", smallDylib [ascii "/s.dylib"] (ascii "_fs"))]

def graphEnv : LoadEnv :=
  ⟨.ofList graphFiles (by decide), [], fun n => some (BitVec.ofNat 64 (0x10000 * (n % 64 + 1)))⟩

lemma graphEnv_finite {p f} (file : graphEnv.fs.load p = some f) : p ∈ graphFiles.map Prod.fst :=
  List.mem_map.mpr ⟨(p, f), mem_of_lookup file, rfl⟩

lemma graphEnv_maps (deps : List Buf) (symbol : Buf) (n : ℕ) :
    (mapDylibSegments (graphEnv.mmap n) (smallDylib deps symbol)).isSome = true := by
  have low : ∀ k < 64, (mapDylibSegments (some (BitVec.ofNat 64 (0x10000 * (k + 1))))
      (smallDylib [] [])).isSome = true := by
    decide +kernel
  exact low (n % 64) (Nat.mod_lt n (by decide))

theorem load_once_iff_graph :
    (∃ fuel ok st', machoLoadDylib graphEnv fuel (ascii "/a.dylib") .init = some (ok, st') ∧
        (st'.loaded.map Mapping.path).Nodup) ∧
      (walk graphEnv 6 (ascii "/a.dylib") .start).good = true := by
  have good : (walk graphEnv 6 (ascii "/a.dylib") .start).good = true := by decide +kernel
  exact ⟨(load_once_iff (fun _ _ => graphEnv_finite) _).mpr good, good⟩

/-- `/s.dylib` is loaded forever, and loading `/r.dylib` maps `/a.dylib` twice. -/
theorem load_not_once :
    (∀ fuel, machoLoadDylib graphEnv fuel (ascii "/s.dylib") .init = none) ∧
      ∃ st', machoLoadDylib graphEnv 4 (ascii "/r.dylib") .init = some (true, st') ∧
        st'.loaded.map Mapping.path =
          [ascii "/r.dylib", ascii "/a.dylib", ascii "/b.dylib", ascii "/c.dylib",
            ascii "/a.dylib"] := by
  constructor
  · intro fuel
    have self : graphEnv.requested (ascii "/s.dylib") (smallDylib [ascii "/s.dylib"] (ascii "_fs")) =
        [ascii "/s.dylib"] := by decide +kernel
    refine self_dependent_diverges rfl (graphEnv_maps _ _) self ?_
    rintro (full | reg | no)
    · exact absurd full (by decide)
    · cases reg
    · cases no _ rfl
  · exact ⟨_, rfl, rfl⟩

end Macify.Dylib
