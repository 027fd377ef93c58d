import Macify.Lib.Loop
import Macify.Dylib.Load

/-!
# Runs of the dylib loader

The recursion of `machoLoadDylib` as a relation. `Loads env ps st st'` says that loading the paths `ps`
one after the other takes the registry from `st` to `st'` and comes to an end. A path is passed over
(`inert`), fails to map (`failed`), or is mapped and has its dependencies loaded (`loaded`). `loads_iff`
says that these are the runs of the code.
-/

namespace Macify.Dylib
open Lib Image

section Fields

variable (st : Loader) (path : Buf) (f : DylibFile) (md : ℕ) (slide : W64)

@[simp] lemma reserve_count : (st.reserve path).count = st.count := rfl
@[simp] lemma reserve_loaded : (st.reserve path).loaded = st.loaded := rfl
@[simp] lemma reserve_maps : (st.reserve path).maps = st.maps := rfl

lemma reserve_slots (i : ℕ) :
    (st.reserve path).slots i = if i = st.count then ⟨path.take 255, path, 0, []⟩ else st.slots i :=
  rfl

@[simp] lemma countMap_count : (st.countMap f).count = st.count := by
  unfold Loader.countMap
  split <;> rfl

@[simp] lemma countMap_loaded : (st.countMap f).loaded = st.loaded := by
  unfold Loader.countMap
  split <;> rfl

@[simp] lemma countMap_slots : (st.countMap f).slots = st.slots := by
  unfold Loader.countMap
  split <;> rfl

lemma countMap_maps : (st.countMap f).maps = if lowAddr f.segments = -1 then st.maps else st.maps + 1 := by
  unfold Loader.countMap
  split <;> rfl

@[simp] lemma publish_count : (st.publish md f).count = st.count + 1 := rfl
@[simp] lemma publish_loaded : (st.publish md f).loaded = st.loaded := rfl

lemma publish_slots (i : ℕ) :
    (st.publish md f).slots i =
      if i = md then
        { st.slots md with exports := parseExports (st.slots md).slide f.symtab (st.slots md).exports }
      else st.slots i :=
  rfl

def Loader.opened : Loader := ((st.reserve path).countMap f).mapped st.count path f slide

@[simp] lemma opened_count : (st.opened path f slide).count = st.count := by
  simp [Loader.opened, Loader.mapped, Loader.setSlot]

@[simp] lemma opened_loaded :
    (st.opened path f slide).loaded = st.loaded ++ [⟨path, lowAddr f.segments + slide, slide⟩] := by
  simp [Loader.opened, Loader.mapped, Loader.setSlot]

lemma opened_maps : (st.opened path f slide).maps = if lowAddr f.segments = -1 then st.maps else st.maps + 1 :=
  countMap_maps (st.reserve path) f

lemma opened_slots (i : ℕ) :
    (st.opened path f slide).slots i =
      if i = st.count then ⟨path.take 255, path, slide, []⟩ else st.slots i := by
  by_cases h : i = st.count
  · simp [h, Loader.opened, Loader.mapped, Loader.setSlot, reserve_slots]
  · simp [h, Loader.opened, Loader.mapped, Loader.setSlot, reserve_slots]

end Fields

lemma registered_iff {st : Loader} {path} :
    st.registered path = true ↔ ∃ i < st.count, (st.slots i).name = path := by
  simp [Loader.registered]

def Idle (env : LoadEnv) (st : Loader) (path : Buf) : Prop :=
  st.registered path = true ∨ ∀ f, env.fs.load path = some f → f.isDylib = false

def Inert (env : LoadEnv) (st : Loader) (path : Buf) : Prop :=
  maxMachoDylibs ≤ st.count ∨ Idle env st path

def loadDeps (env : LoadEnv) (fuel : ℕ) (deps : List Buf) (st : Loader) : Option Loader :=
  deps.foldlM (fun s dep => (machoLoadDylib env fuel dep s).map Prod.snd) st

section Calls

variable {env : LoadEnv} {fuel : ℕ} {path : Buf} {st st' : Loader} {ok : Bool}

lemma machoLoadDylib_inert (inert : Inert env st path) :
    ∃ ok, machoLoadDylib env (fuel + 1) path st = some (ok, st) ∧
      (ok = true → st.registered path = true) := by
  by_cases full : maxMachoDylibs ≤ st.count
  · exact ⟨false, by rw [machoLoadDylib, if_pos full], nofun⟩
  by_cases reg : st.registered path = true
  · exact ⟨true, by rw [machoLoadDylib, if_neg full, if_pos reg], fun _ => reg⟩
  have no := (inert.resolve_left full).resolve_left reg
  refine ⟨false, ?_, nofun⟩
  rw [machoLoadDylib, if_neg full, if_neg reg]
  cases file : env.fs.load path with
  | none => rfl
  | some f => simp [no f file]

section

variable (active : ¬Inert env st path)
include active

lemma exists_file : ∃ f, env.fs.load path = some f ∧ f.isDylib = true := by
  unfold Inert Idle at active
  push Not at active
  obtain ⟨_, _, f, file, dylib⟩ := active
  exact ⟨f, file, by simpa using dylib⟩

lemma isDylib_of_active {f} (file : env.fs.load path = some f) : f.isDylib = true := by
  obtain ⟨g, file', dylib⟩ := exists_file active
  cases file.symm.trans file'
  exact dylib

lemma machoLoadDylib_active {f} (file : env.fs.load path = some f) :
    machoLoadDylib env (fuel + 1) path st =
      match mapDylibSegments (env.mmap st.maps) f with
      | none => some (false, (st.reserve path).countMap f)
      | some slide =>
        (loadDeps env fuel (env.requested path f) (st.opened path f slide)).map fun s =>
          (true, s.publish st.count f) := by
  have dylib := isDylib_of_active active file
  unfold Inert Idle at active
  push Not at active
  obtain ⟨room, unreg, _⟩ := active
  rw [machoLoadDylib, if_neg (Nat.not_le.mpr room), if_neg unreg, file]
  simp only [dylib, Bool.not_true, Bool.false_eq_true, if_false]
  cases mapDylibSegments (env.mmap st.maps) f with
  | none => rfl
  | some slide => exact Option.map_eq_bind.symm

lemma machoLoadDylib_failed {f} (file : env.fs.load path = some f)
    (fails : mapDylibSegments (env.mmap st.maps) f = none) :
    machoLoadDylib env (fuel + 1) path st = some (false, (st.reserve path).countMap f) := by
  rw [machoLoadDylib_active active file, fails]

lemma machoLoadDylib_loaded {f slide} (file : env.fs.load path = some f)
    (maps : mapDylibSegments (env.mmap st.maps) f = some slide) :
    machoLoadDylib env (fuel + 1) path st =
      (loadDeps env fuel (env.requested path f) (st.opened path f slide)).map fun s =>
        (true, s.publish st.count f) := by
  rw [machoLoadDylib_active active file, maps]

end

lemma loadDeps_cons {deps} :
    loadDeps env fuel (path :: deps) st =
      (machoLoadDylib env fuel path st).bind fun r => loadDeps env fuel deps r.2 := by
  unfold loadDeps
  rw [List.foldlM_cons]
  cases machoLoadDylib env fuel path st with
  | none | some r => rfl

end Calls

inductive Loads (env : LoadEnv) : List Buf → Loader → Loader → Prop where
  | nil {st} : Loads env [] st st
  | inert {p ps st st'} :
    Inert env st p →
    Loads env ps st st' →
    Loads env (p :: ps) st st'
  | failed {p ps st st' f} :
    ¬Inert env st p →
    env.fs.load p = some f →
    mapDylibSegments (env.mmap st.maps) f = none →
    Loads env ps ((st.reserve p).countMap f) st' →
    Loads env (p :: ps) st st'
  | loaded {p ps st st₁ st' f slide} :
    ¬Inert env st p →
    env.fs.load p = some f →
    mapDylibSegments (env.mmap st.maps) f = some slide →
    Loads env (env.requested p f) (st.opened p f slide) st₁ →
    Loads env ps (st₁.publish st.count f) st' →
    Loads env (p :: ps) st st'

section Runs

variable {env : LoadEnv} {fuel : ℕ} {p : Buf} {ps qs : List Buf} {st st₁ st' : Loader} {ok : Bool}

lemma Loads.append (fst : Loads env ps st st₁) (snd : Loads env qs st₁ st') : Loads env (ps ++ qs) st st' := by
  induction fst with
  | nil => exact snd
  | inert inert _ ih => exact .inert inert (ih snd)
  | failed active file fails _ ih => exact .failed active file fails (ih snd)
  | loaded active file maps deps _ _ ih => exact .loaded active file maps deps (ih snd)

lemma loads_of_call (ih : ∀ {ps st st'}, loadDeps env fuel ps st = some st' → Loads env ps st st')
    (run : machoLoadDylib env (fuel + 1) p st = some (ok, st')) : Loads env [p] st st' := by
  by_cases act : Inert env st p
  · obtain ⟨b, run', _⟩ := @machoLoadDylib_inert env fuel p st act
    cases run.symm.trans run'
    exact .inert act .nil
  obtain ⟨f, file, _⟩ := exists_file act
  cases maps : mapDylibSegments (env.mmap st.maps) f with
  | none =>
    rw [machoLoadDylib_failed act file maps] at run
    cases run
    exact .failed act file maps .nil
  | some slide =>
    rw [machoLoadDylib_loaded act file maps] at run
    obtain ⟨s, deps, e⟩ := Option.map_eq_some_iff.mp run
    cases e
    exact .loaded act file maps (ih deps) .nil

lemma loads_of_loadDeps (run : loadDeps env fuel ps st = some st') : Loads env ps st st' := by
  induction fuel generalizing ps st st' with
  | zero =>
    cases ps with
    | nil => cases run; exact .nil
    | cons p ps => cases run
  | succ fuel ih =>
    -- the outer induction covers the calls below a path, this one the paths that follow it
    induction ps generalizing st with
    | nil => cases run; exact .nil
    | cons p ps ihps =>
      rw [loadDeps_cons] at run
      obtain ⟨r, one, rest⟩ := Option.bind_eq_some_iff.mp run
      exact (loads_of_call ih one).append (ihps rest)

lemma Loads.loadDeps (run : Loads env ps st st') :
    ∃ n, ∀ fuel, n ≤ fuel → loadDeps env fuel ps st = some st' := by
  induction run with
  | nil => exact ⟨0, fun _ _ => rfl⟩
  | inert inert _ ih =>
    obtain ⟨n, ih⟩ := ih
    refine ⟨n + 1, fun fuel le => ?_⟩
    obtain ⟨fuel, rfl⟩ := Nat.exists_eq_add_of_lt (Nat.lt_of_succ_le le)
    rw [loadDeps_cons, (machoLoadDylib_inert inert).choose_spec.1]
    exact ih _ (by omega)
  | failed active file fails _ ih =>
    obtain ⟨n, ih⟩ := ih
    refine ⟨n + 1, fun fuel le => ?_⟩
    obtain ⟨fuel, rfl⟩ := Nat.exists_eq_add_of_lt (Nat.lt_of_succ_le le)
    rw [loadDeps_cons, machoLoadDylib_failed active file fails]
    exact ih _ (by omega)
  | loaded active file maps _ _ ihd ih =>
    obtain ⟨n, ihd⟩ := ihd
    obtain ⟨m, ih⟩ := ih
    refine ⟨n + m + 1, fun fuel le => ?_⟩
    obtain ⟨fuel, rfl⟩ := Nat.exists_eq_add_of_lt (Nat.lt_of_succ_le le)
    rw [loadDeps_cons, machoLoadDylib_loaded active file maps, ihd _ (by omega)]
    exact ih _ (by omega)

lemma loads_iff : Loads env [p] st st' ↔ ∃ fuel ok, machoLoadDylib env fuel p st = some (ok, st') := by
  constructor
  · intro run
    obtain ⟨n, run⟩ := run.loadDeps
    have run := run n le_rfl
    rw [loadDeps_cons] at run
    obtain ⟨⟨ok, s⟩, call, rest⟩ := Option.bind_eq_some_iff.mp run
    cases rest
    exact ⟨n, ok, call⟩
  · rintro ⟨fuel, ok, call⟩
    cases fuel with
    | zero => cases call
    | succ fuel => exact loads_of_call loads_of_loadDeps call

end Runs

end Macify.Dylib
