import Macify.Dylib.Registry

/-!
# The bound of the dylib table

The table has room for 64 dylibs. `macho_load_dylib` tests for room when it is called and raises the count after its
dependencies, so all open calls may have found the same last free entry. Main result: `table_bounded_iff`.
-/

namespace Macify.Dylib
open Lib Image

inductive Unlimited (env : LoadEnv) : List Buf → Loader → Loader → Prop where
  | nil {st} : Unlimited env [] st st
  | idle {p ps st st'} :
    Idle env st p →
    Unlimited env ps st st' →
    Unlimited env (p :: ps) st st'
  | failed {p ps st st' f} :
    ¬Idle env st p →
    env.fs.load p = some f →
    mapDylibSegments (env.mmap st.maps) f = none →
    Unlimited env ps ((st.reserve p).countMap f) st' →
    Unlimited env (p :: ps) st st'
  | loaded {p ps st st₁ st' f slide} :
    ¬Idle env st p →
    env.fs.load p = some f →
    mapDylibSegments (env.mmap st.maps) f = some slide →
    Unlimited env (env.requested p f) (st.opened p f slide) st₁ →
    Unlimited env ps (st₁.publish st.count f) st' →
    Unlimited env (p :: ps) st st'

lemma Unlimited.count_le {env : LoadEnv} {ps : List Buf} {st u : Loader} (run : Unlimited env ps st u) :
    st.count ≤ u.count := by
  induction run with
  | nil => exact le_rfl
  | idle _ _ ih => exact ih
  | failed _ _ _ _ ih =>
    rw [countMap_count, reserve_count] at ih
    exact ih
  | loaded _ _ _ _ _ ihd ih =>
    rw [opened_count] at ihd
    rw [publish_count] at ih
    exact ihd.trans (Nat.le_of_succ_le ih)

section Agreement

variable {env : LoadEnv} {p : Buf} {ps : List Buf} {st st₁ st' u : Loader}

lemma inert_iff_idle (room : st.count < maxMachoDylibs) : Inert env st p ↔ Idle env st p :=
  or_iff_right (Nat.not_le.mpr room)

lemma Loads.unlimited (run : Loads env ps st st') (room : st'.count < maxMachoDylibs) :
    Unlimited env ps st st' := by
  induction run with
  | nil => exact .nil
  | inert inert rest ih => exact .idle ((inert_iff_idle (rest.extends.count.trans_lt room)).mp inert) (ih room)
  | failed active file fails _ ih =>
    exact .failed (fun idle => active (.inr idle)) file fails (ih room)
  | loaded active file maps _ rest ihd ih =>
    have nested := rest.extends.count
    rw [publish_count] at nested
    exact .loaded (fun idle => active (.inr idle)) file maps (ihd (Nat.lt_of_succ_lt (nested.trans_lt room)))
      (ih room)

lemma Unlimited.loads (run : Unlimited env ps st u) (room : u.count < maxMachoDylibs) : Loads env ps st u := by
  induction run with
  | nil => exact .nil
  | idle idle _ ih => exact .inert (.inr idle) (ih room)
  | failed active file fails rest ih =>
    have count := rest.count_le
    rw [countMap_count, reserve_count] at count
    exact .failed (fun inert => active ((inert_iff_idle (count.trans_lt room)).mp inert)) file fails (ih room)
  | loaded active file maps deps rest ihd ih =>
    have nested := rest.count_le
    rw [publish_count] at nested
    have before := deps.count_le
    rw [opened_count] at before
    have free := Nat.lt_of_succ_lt (nested.trans_lt room)
    exact .loaded (fun inert => active ((inert_iff_idle (before.trans_lt free)).mp inert)) file maps (ihd free)
      (ih room)

lemma Loads.unique (fst : Loads env ps st st₁) (snd : Loads env ps st st') : st₁ = st' := by
  obtain ⟨n, fst⟩ := fst.loadDeps
  obtain ⟨m, snd⟩ := snd.loadDeps
  exact Option.some.inj ((fst (max n m) (le_max_left _ _)).symm.trans (snd (max n m) (le_max_right _ _)))

def FitsTable (env : LoadEnv) (st : Loader) (p : Buf) : Prop :=
  ∃ u, Unlimited env [p] st u ∧ u.count ≤ maxMachoDylibs

lemma call_bounded_iff (run : Loads env [p] st st') (room : st.count < maxMachoDylibs) :
    st'.count ≤ maxMachoDylibs ↔ FitsTable env st p := by
  constructor
  · intro bounded
    refine ⟨st', ?_, bounded⟩
    cases run with
    | inert inert rest =>
      cases rest
      exact .idle ((inert_iff_idle room).mp inert) .nil
    | failed active file fails rest =>
      cases rest
      exact .failed (fun idle => active (.inr idle)) file fails .nil
    | loaded active file maps deps rest =>
      cases rest
      exact .loaded (fun idle => active (.inr idle)) file maps (deps.unlimited bounded) .nil
  · rintro ⟨u, free, bounded⟩
    have same : Loads env [p] st u := by
      cases free with
      | idle idle rest =>
        cases rest
        exact .inert (.inr idle) .nil
      | failed active file fails rest =>
        cases rest
        exact .failed (fun inert => active ((inert_iff_idle room).mp inert)) file fails .nil
      | loaded active file maps deps rest =>
        cases rest
        exact .loaded (fun inert => active ((inert_iff_idle room).mp inert)) file maps (deps.loads bounded) .nil
    rw [run.unique same]
    exact bounded

end Agreement

section Sequences

variable {env : LoadEnv} {rank : Buf → ℕ} {p : Buf} {ps : List Buf} {st st' : Loader}

lemma loads_total (acyclic : Acyclic env rank) (ps : List Buf) (st : Loader) : ∃ st', Loads env ps st st' := by
  induction ps generalizing st with
  | nil => exact ⟨st, .nil⟩
  | cons p ps ih =>
    obtain ⟨r, call⟩ := machoLoadDylib_total acyclic (Nat.lt_succ_self (rank p)) st
    obtain ⟨st', rest⟩ := ih r.2
    exact ⟨st', (loads_iff.mpr ⟨_, r.1, call⟩).append rest⟩

lemma Loads.behind (run : Loads env ps st st') {i : ℕ} (ge : maxMachoDylibs ≤ i) : st'.slots i = st.slots i := by
  have ne : ∀ {st : Loader} {p}, ¬Inert env st p → i ≠ st.count := by
    rintro st p active rfl
    exact active (.inl ge)
  induction run with
  | nil => rfl
  | inert _ _ ih => exact ih
  | failed active _ _ _ ih => rw [ih, countMap_slots, reserve_slots, if_neg (ne active)]
  | loaded active _ _ _ _ ihd ih =>
    rw [ih, publish_slots, if_neg (ne active), ihd, opened_slots, if_neg (ne active)]

lemma loads_full (full : maxMachoDylibs ≤ st.count) (run : Loads env [p] st st') : st' = st :=
  run.eq_of_inert fun _ _ => .inl full

def AllFit (env : LoadEnv) (ps : List Buf) : Prop :=
  ∀ before p after, ps = before ++ p :: after → ∀ st, Loads env before .init st →
    maxMachoDylibs ≤ st.count ∨ FitsTable env st p

lemma bounded_of_allFit (acyclic : Acyclic env rank) (run : Loads env ps .init st') (fit : AllFit env ps) :
    st'.count ≤ maxMachoDylibs := by
  induction ps using List.reverseRecOn generalizing st' with
  | nil =>
    cases run
    exact Nat.zero_le _
  | append_singleton ps p ih =>
    obtain ⟨st, start⟩ := loads_total acyclic ps .init
    obtain ⟨st₁, last⟩ := loads_total acyclic [p] st
    have fit' : AllFit env ps := fun before q after eq =>
      fit before q (after ++ [p]) (by rw [eq, List.append_assoc]; rfl)
    rw [run.unique (start.append last)]
    by_cases room : st.count < maxMachoDylibs
    · have needed := (fit ps p [] rfl st start).resolve_left (Nat.not_le.mpr room)
      exact (call_bounded_iff last room).mpr needed
    · rw [loads_full (Nat.not_lt.mp room) last]
      exact ih start fit'

lemma allFit_of_bounded (acyclic : Acyclic env rank) (run : Loads env ps .init st')
    (bounded : st'.count ≤ maxMachoDylibs) : AllFit env ps := by
  rintro before p after rfl st start
  by_cases room : st.count < maxMachoDylibs
  · obtain ⟨st₁, call⟩ := loads_total acyclic [p] st
    obtain ⟨st₂, rest⟩ := loads_total acyclic after st₁
    have whole := start.append (call.append rest)
    rw [run.unique whole] at bounded
    exact .inr ((call_bounded_iff call room).mp (rest.extends.count.trans bounded))
  · exact .inl (Nat.not_lt.mp room)

end Sequences

/-- Without cycles the calls end and write nothing behind the table, and the count stays within it exactly when
    each call finds it full or needs no more than is left. -/
theorem table_bounded_iff {env : LoadEnv} {rank : Buf → ℕ} (acyclic : Acyclic env rank) (ps : List Buf) :
    ∃ n st, (∀ fuel, n ≤ fuel → loadDeps env fuel ps .init = some st) ∧
      (∀ i, maxMachoDylibs ≤ i → st.slots i = .blank) ∧
      ((∀ i < st.count, i < maxMachoDylibs) ↔ AllFit env ps) := by
  obtain ⟨st, run⟩ := loads_total acyclic ps .init
  obtain ⟨n, code⟩ := run.loadDeps
  refine ⟨n, st, code, fun i ge => run.behind ge, fun below => ?_, fun fit i lt => ?_⟩
  · refine allFit_of_bounded acyclic run (Nat.not_lt.mp fun beyond => ?_)
    exact Nat.lt_irrefl _ (below maxMachoDylibs beyond)
  · exact lt.trans_le (bounded_of_allFit acyclic run fit)

section Chain

variable {n : ℕ} {st : Loader}

def chainName (n : ℕ) : Buf := List.replicate n 0x61 ++ ascii ".dylib"

def chainPath (n : ℕ) : Buf := 0x2F :: chainName n

def chainFile (n : ℕ) : DylibFile :=
  smallDylib (if n = 0 then [] else [ascii "@loader_path/" ++ chainName (n - 1)]) (ascii "_f")

lemma length_chainPath : (chainPath n).length = n + 7 := by
  rw [chainPath, List.length_cons, chainName, List.length_append, List.length_replicate]
  rfl

def chainLoad (p : Buf) : Option DylibFile :=
  if p.length ≤ 71 ∧ p = chainPath (p.length - 7) then some (chainFile (p.length - 7)) else none

def chainFiles : FileSystem where
  access p := (chainLoad p).isSome
  load := chainLoad
  accessible p f file := by rw [file]; rfl
  nameless := rfl

def chainEnv : LoadEnv := ⟨chainFiles, [], fun _ => some 0x10000⟩

lemma chainLoad_path (le : n ≤ 64) : chainLoad (chainPath n) = some (chainFile n) := by
  rw [chainLoad, length_chainPath, Nat.add_sub_cancel, if_pos ⟨by omega, rfl⟩]

lemma of_chainLoad {p : Buf} {f : DylibFile} (file : chainLoad p = some f) :
    ∃ n ≤ 64, p = chainPath n ∧ f = chainFile n := by
  rw [chainLoad] at file
  split at file
  · next found =>
    refine ⟨p.length - 7, ?_, found.2, (Option.some.inj file).symm⟩
    omega
  · exact absurd file.symm (Option.some_ne_none f)

lemma dirOf_chainPath : dirOf (chainPath n) = [] := by
  have others : ∀ b ∈ (chainName n).take 4094, (b != 0x2F) = true := by
    intro b mem
    have mem := List.mem_of_mem_take mem
    rw [chainName, List.mem_append, List.mem_replicate] at mem
    rcases mem with ⟨-, rfl⟩ | mem
    · rfl
    · rw [show ascii ".dylib" = [0x2E, 0x64, 0x79, 0x6C, 0x69, 0x62] from by decide] at mem
      simp only [List.mem_cons, List.not_mem_nil, or_false] at mem
      rcases mem with rfl | rfl | rfl | rfl | rfl | rfl <;> rfl
  have slash : ((chainPath n).take 4095).reverse.dropWhile (· != 0x2F) = [0x2F] := by
    rw [chainPath, List.take_succ_cons, List.reverse_cons,
      List.dropWhile_append_of_pos fun b mem => others b (List.mem_reverse.mp mem)]
    rfl
  rw [dirOf, slash]
  rfl

lemma hasSubstring_append {a b : Buf} : hasSubstring b (a ++ b) = true := by
  rw [hasSubstring, List.any_eq_true]
  refine ⟨b, (List.mem_tails b (a ++ b)).mpr (List.suffix_append a b), ?_⟩
  exact List.isPrefixOf_iff_prefix.mpr List.prefix_rfl

lemma requested_chain (le : n ≤ 64) :
    chainEnv.requested (chainPath n) (chainFile n) = if n = 0 then [] else [chainPath (n - 1)] := by
  by_cases zero : n = 0
  · rw [zero]
    rfl
  · have names : (chainFile n).loadDylibs = [ascii "@loader_path/" ++ chainName (n - 1)] := if_neg zero
    have moves : chainEnv.stalls (chainPath n) (ascii "@loader_path/" ++ chainName (n - 1)) = false := by
      rw [LoadEnv.stalls]
      rfl
    have path : resolveDep chainEnv.macifyRoot (dirOf (chainPath n)) (ascii "@loader_path/" ++ chainName (n - 1)) =
        chainPath (n - 1) := by
      rw [resolveDep, if_pos (List.isPrefixOf_iff_prefix.mpr (List.prefix_append _ _)), dirOf_chainPath,
        List.drop_left' (by decide)]
      show (chainPath (n - 1)).take 4095 = chainPath (n - 1)
      exact List.take_of_length_le (by rw [length_chainPath]; omega)
    have there : chainEnv.fs.access (chainPath (n - 1)) = true := by
      show (chainLoad (chainPath (n - 1))).isSome = true
      rw [chainLoad_path (by omega)]
      rfl
    have dylib : hasSubstring (ascii ".dylib") (chainPath (n - 1)) = true :=
      hasSubstring_append (a := 0x2F :: List.replicate (n - 1) 0x61)
    rw [LoadEnv.requested, names, if_neg zero]
    simp only [List.takeWhile_cons, moves, Bool.not_false, if_true, List.takeWhile_nil, List.map_cons,
      List.map_nil, path, List.filter_cons, dylib, there, Bool.and_self, List.filter_nil]

lemma chain_active (le : n ≤ 64) (empty : st.count = 0) : ¬Inert chainEnv st (chainPath n) := by
  rintro (full | found | no)
  · rw [empty] at full
    exact absurd full (by decide)
  · rw [Loader.registered, empty] at found
    exact Bool.false_ne_true found
  · have dylib : (chainFile n).isDylib = true := rfl
    have no := no (chainFile n) (chainLoad_path le)
    rw [dylib] at no
    exact Bool.false_ne_true no.symm

lemma chain_maps (k : ℕ) : mapDylibSegments (chainEnv.mmap k) (chainFile n) = some 0x10000 := by
  have segments : (chainFile n).segments = (smallDylib [] []).segments := rfl
  show mapDylibSegments (some 0x10000) (chainFile n) = some 0x10000
  unfold mapDylibSegments
  rw [segments]
  decide

lemma chain_call {deps : List Buf} {st₁ : Loader} (le : n ≤ 64) (empty : st.count = 0)
    (asked : chainEnv.requested (chainPath n) (chainFile n) = deps)
    (nested : Loads chainEnv deps (st.opened (chainPath n) (chainFile n) 0x10000) st₁) :
    Loads chainEnv [chainPath n] st (st₁.publish st.count (chainFile n)) :=
  .loaded (chain_active le empty) (chainLoad_path le) (chain_maps st.maps) (asked ▸ nested) .nil

lemma chain_loads (le : n ≤ 64) (empty : st.count = 0) :
    ∃ st', Loads chainEnv [chainPath n] st st' ∧ st'.count = n + 1 := by
  induction n generalizing st with
  | zero =>
    refine ⟨_, chain_call le empty (requested_chain le) .nil, ?_⟩
    rw [publish_count, opened_count, empty]
  | succ n ih =>
    obtain ⟨st₁, nested, count⟩ := @ih (st.opened (chainPath (n + 1)) (chainFile (n + 1)) 0x10000)
      (Nat.le_of_succ_le le) ((opened_count ..).trans empty)
    refine ⟨_, chain_call le empty (requested_chain le) nested, ?_⟩
    rw [publish_count, count]

lemma chain_acyclic : Acyclic chainEnv List.length := by
  intro p f file _ q mem
  obtain ⟨n, le, rfl, rfl⟩ := of_chainLoad file
  rw [requested_chain le] at mem
  split at mem
  · exact absurd mem List.not_mem_nil
  · next ne =>
    rw [List.mem_singleton.mp mem, length_chainPath, length_chainPath]
    omega

end Chain

theorem table_bounded_nested :
    Acyclic chainEnv List.length ∧ ∃ n st,
      (∀ fuel, n ≤ fuel → loadDeps chainEnv fuel [chainPath 2] .init = some st) ∧
      (∀ i, maxMachoDylibs ≤ i → st.slots i = .blank) ∧
      ((∀ i < st.count, i < maxMachoDylibs) ↔ AllFit chainEnv [chainPath 2]) :=
  ⟨chain_acyclic, table_bounded_iff chain_acyclic [chainPath 2]⟩

/-- Loading the first of 65 dylibs, each of which asks for the next one, raises the count to 65. -/
theorem table_chain_overflows :
    Acyclic chainEnv List.length ∧ ∃ fuel ok st,
      machoLoadDylib chainEnv fuel (chainPath 64) .init = some (ok, st) ∧ st.count = maxMachoDylibs + 1 := by
  obtain ⟨st, run, count⟩ := @chain_loads 64 .init le_rfl rfl
  obtain ⟨fuel, ok, call⟩ := loads_iff.mp run
  exact ⟨chain_acyclic, fuel, ok, st, call, count⟩

end Macify.Dylib
