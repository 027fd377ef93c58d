import Macify.Dylib.Loads

/-!
# Integrity of the dylib registry

A registry is in order (`Integral`) when its entries and the mapped files correspond one to one, each with the path,
the slide and the exports of its file. Main result: `registry_integrity_iff`.
-/

namespace Macify.Dylib
open Lib Image

/-- The entry describes the mapped file. Its load base is the lowest address of its file, slid. -/
structure EntryOk (fs : FileSystem) (e : DylibEntry) (m : Mapping) : Prop where
  name : e.name = m.path
  source : e.source = m.path
  slide : e.slide = m.slide
  base : ∀ f, fs.load e.source = some f → lowAddr f.segments + e.slide = m.base
  exports : ∀ x ∈ e.exports, ∃ f s name, fs.load m.path = some f ∧ s ∈ f.symtab ∧
    s.name = some name ∧ x = ⟨exportName name, s.value + m.slide⟩

def Loader.entries (st : Loader) : List DylibEntry := (List.range st.count).map st.slots

structure Integral (fs : FileSystem) (st : Loader) : Prop where
  once : (st.loaded.map Mapping.path).Nodup
  entries : ∃ l, l.Perm st.loaded ∧ List.Forall₂ (EntryOk fs) st.entries l

lemma forall₂_exists_right {α β} {R : α → β → Prop} {l₁ l₂ a} (all : List.Forall₂ R l₁ l₂)
    (mem : a ∈ l₁) : ∃ b ∈ l₂, R a b := by
  induction all with
  | nil => cases mem
  | cons r _ ih =>
    cases mem with
    | head => exact ⟨_, List.mem_cons_self, r⟩
    | tail _ mem =>
      obtain ⟨b, mem, r⟩ := ih mem
      exact ⟨b, List.mem_cons_of_mem _ mem, r⟩

section Integral

variable {fs : FileSystem} {st : Loader} {m : Mapping} {path : Buf}

lemma integral_init (fs : FileSystem) : Integral fs .init :=
  ⟨List.nodup_nil, [], .refl [], .nil⟩

lemma mem_entries {e} : e ∈ st.entries ↔ ∃ i < st.count, st.slots i = e := by
  simp [Loader.entries]

lemma Integral.exists_entry (ok : Integral fs st) (mem : m ∈ st.loaded) :
    ∃ i < st.count, EntryOk fs (st.slots i) m := by
  obtain ⟨l, perm, all⟩ := ok.entries
  obtain ⟨e, mem, entry⟩ := forall₂_exists_right all.flip (perm.mem_iff.mpr mem)
  obtain ⟨i, lt, rfl⟩ := mem_entries.mp mem
  exact ⟨i, lt, entry⟩

lemma Integral.exists_mapping (ok : Integral fs st) {i} (lt : i < st.count) :
    ∃ m ∈ st.loaded, EntryOk fs (st.slots i) m := by
  obtain ⟨l, perm, all⟩ := ok.entries
  obtain ⟨m, mem, entry⟩ := forall₂_exists_right all (mem_entries.mpr ⟨i, lt, rfl⟩)
  exact ⟨m, perm.mem_iff.mp mem, entry⟩

lemma Integral.registered_iff_mem (ok : Integral fs st) :
    st.registered path = true ↔ path ∈ st.loaded.map Mapping.path := by
  rw [registered_iff, List.mem_map]
  constructor
  · rintro ⟨i, lt, rfl⟩
    obtain ⟨m, mem, entry⟩ := ok.exists_mapping lt
    exact ⟨m, mem, entry.name.symm⟩
  · rintro ⟨m, mem, rfl⟩
    obtain ⟨i, lt, entry⟩ := ok.exists_entry mem
    exact ⟨i, lt, entry.name⟩

end Integral

lemma exportOf_eq_some {slide s x} (e : exportOf slide s = some x) :
    ∃ name, s.name = some name ∧ x = ⟨exportName name, s.value + slide⟩ := by
  unfold exportOf at e
  split at e
  · cases e
  split at e
  · cases e
  split at e
  · cases e
  split at e
  · cases e
  · cases e
  · next name _ named =>
    cases e
    exact ⟨name, named, rfl⟩

lemma mem_parseExports {slide syms acc x} (mem : x ∈ parseExports slide syms acc) :
    x ∈ acc ∨ ∃ s ∈ syms, exportOf slide s = some x := by
  induction syms generalizing acc with
  | nil => exact .inl mem
  | cons s rest ih =>
    rw [parseExports] at mem
    split at mem
    · cases ih mem with
      | inl mem =>
        cases List.mem_append.mp mem with
        | inl mem => exact .inl mem
        | inr mem => exact .inr ⟨s, List.mem_cons_self, Option.mem_toList.mp mem⟩
      | inr h =>
        obtain ⟨s', mem', e⟩ := h
        exact .inr ⟨s', List.mem_cons_of_mem s mem', e⟩
    · exact .inl mem

structure Extends (st st' : Loader) : Prop where
  count : st.count ≤ st'.count
  slots : ∀ i < st.count, st'.slots i = st.slots i
  loaded : st.loaded <+: st'.loaded

lemma Extends.refl (st : Loader) : Extends st st := ⟨le_rfl, fun _ _ => rfl, List.prefix_rfl⟩

lemma Extends.trans {st₁ st₂ st₃} (fst : Extends st₁ st₂) (snd : Extends st₂ st₃) : Extends st₁ st₃ := by
  refine ⟨fst.count.trans snd.count, fun i lt => ?_, fst.loaded.trans snd.loaded⟩
  rw [snd.slots i (lt.trans_le fst.count), fst.slots i lt]

section Steps

variable {env : LoadEnv} {st st₁ st' : Loader} {p : Buf} {ps : List Buf} {f : DylibFile}
  {slide : W64}

lemma extends_failed : Extends st ((st.reserve p).countMap f) := by
  refine ⟨by simp, fun i lt => ?_, by simp⟩
  rw [countMap_slots, reserve_slots, if_neg lt.ne]

lemma extends_opened : Extends st (st.opened p f slide) := by
  refine ⟨by simp, fun i lt => ?_, by simp⟩
  rw [opened_slots, if_neg lt.ne]

lemma extends_publish (ext : Extends st st₁) : Extends st (st₁.publish st.count f) := by
  refine ⟨by simpa using ext.count.trans (Nat.le_succ _), fun i lt => ?_, ext.loaded⟩
  rw [publish_slots, if_neg lt.ne, ext.slots i lt]

lemma failed_source {i} :
    (((st.reserve p).countMap f).slots i).source =
      if i = st.count then p else (st.slots i).source := by
  rw [countMap_slots, reserve_slots]
  split <;> rfl

lemma opened_source {i} :
    ((st.opened p f slide).slots i).source = if i = st.count then p else (st.slots i).source := by
  rw [opened_slots]
  split <;> rfl

lemma publish_source {md i} : ((st.publish md f).slots i).source = (st.slots i).source := by
  rw [publish_slots]
  split
  · next e => rw [e]
  · rfl

lemma Loads.extends (run : Loads env ps st st') : Extends st st' := by
  induction run with
  | nil => exact .refl _
  | inert _ _ ih => exact ih
  | failed _ _ _ _ ih => exact extends_failed.trans ih
  | loaded _ _ _ _ _ ihd ih => exact (extends_publish (extends_opened.trans ihd)).trans ih

lemma Loads.eq_of_inert (run : Loads env ps st st') (inert : ∀ q ∈ ps, Inert env st q) : st' = st := by
  induction run with
  | nil => rfl
  | inert _ _ ih => exact ih fun q mem => inert q (List.mem_cons_of_mem _ mem)
  | failed active | loaded active => exact absurd (inert _ List.mem_cons_self) active

lemma Extends.registered_eq {q} (ext : Extends st st') (same : st'.count = st.count) :
    st'.registered q = st.registered q := by
  rw [Bool.eq_iff_iff, registered_iff, registered_iff, same]
  constructor
  · rintro ⟨i, lt, e⟩
    exact ⟨i, lt, ext.slots i lt ▸ e⟩
  · rintro ⟨i, lt, e⟩
    exact ⟨i, lt, (ext.slots i lt).symm ▸ e⟩

lemma registered_opened {q} : (st.opened p f slide).registered q = st.registered q :=
  extends_opened.registered_eq (opened_count ..)

lemma registered_failed {q} : ((st.reserve p).countMap f).registered q = st.registered q :=
  extends_failed.registered_eq (countMap_count ..)

end Steps

/-- The dependency graph has no cycle: a dylib has a higher rank than what it asks for. -/
def Acyclic (env : LoadEnv) (rank : Buf → ℕ) : Prop :=
  ∀ p f, env.fs.load p = some f → f.isDylib = true → ∀ q ∈ env.requested p f, rank q < rank p

section Ranks

variable {env : LoadEnv} {rank : Buf → ℕ} {st st' : Loader} {p : Buf} {ps : List Buf} {b : ℕ}

lemma Acyclic.deps_lt (acyclic : Acyclic env rank) {f} (active : ¬Inert env st p)
    (file : env.fs.load p = some f) (lt : rank p < b) : ∀ q ∈ env.requested p f, rank q < b := by
  intro q mem
  exact (acyclic p f file (isDylib_of_active active file) q mem).trans lt

lemma machoLoadDylib_total (acyclic : Acyclic env rank) {fuel} (enough : rank p < fuel)
    (st : Loader) : ∃ r, machoLoadDylib env fuel p st = some r := by
  induction fuel generalizing p st with
  | zero => exact absurd enough (Nat.not_lt_zero _)
  | succ fuel ih =>
    by_cases act : Inert env st p
    · obtain ⟨ok, run, _⟩ := @machoLoadDylib_inert env fuel p st act
      exact ⟨_, run⟩
    obtain ⟨f, file, dylib⟩ := exists_file act
    cases maps : mapDylibSegments (env.mmap st.maps) f with
    | none => exact ⟨_, machoLoadDylib_failed act file maps⟩
    | some slide =>
      have deps : ∃ s, loadDeps env fuel (env.requested p f) (st.opened p f slide) = some s ∧ True := by
        refine foldlM_total (fun _ => True) trivial fun q mem s _ => ?_
        have lt := (acyclic p f file dylib q mem).trans_le (Nat.le_of_lt_succ enough)
        obtain ⟨r, run⟩ := ih lt s
        exact ⟨r.2, by rw [run]; rfl, trivial⟩
      obtain ⟨s, deps, _⟩ := deps
      exact ⟨_, by rw [machoLoadDylib_loaded act file maps, deps]; rfl⟩

lemma Acyclic.ne_of_lt {rank : Buf → ℕ} {q root : Buf} (lt : rank q < rank root) : q ≠ root :=
  fun e => lt.ne (e ▸ rfl)

lemma Loads.source_ne {root} (acyclic : Acyclic env rank) (run : Loads env ps st st')
    (low : ∀ q ∈ ps, rank q < rank root) {i} (init : (st.slots i).source ≠ root) :
    (st'.slots i).source ≠ root := by
  induction run with
  | nil => exact init
  | inert _ _ ih => exact ih (List.forall_mem_cons.mp low).2 init
  | failed _ _ _ _ ih =>
    obtain ⟨lt, low⟩ := List.forall_mem_cons.mp low
    refine ih low ?_
    rw [failed_source]
    split
    · exact Acyclic.ne_of_lt lt
    · exact init
  | loaded active file _ _ _ ihd ih =>
    obtain ⟨lt, low⟩ := List.forall_mem_cons.mp low
    refine ih low ?_
    rw [publish_source]
    apply ihd (acyclic.deps_lt active file lt)
    rw [opened_source]
    split
    · exact Acyclic.ne_of_lt lt
    · exact init

lemma Loads.overwrites {root} (acyclic : Acyclic env rank) (run : Loads env ps st st')
    (low : ∀ q ∈ ps, rank q < rank root) (active : ∃ q ∈ ps, ¬Inert env st q) :
    (st'.slots st.count).source ≠ root := by
  induction run with
  | nil =>
    obtain ⟨q, mem, _⟩ := active
    cases mem
  | inert inert _ ih =>
    refine ih (List.forall_mem_cons.mp low).2 ?_
    obtain ⟨q, mem, active⟩ := active
    cases mem with
    | head => exact absurd inert active
    | tail _ mem => exact ⟨q, mem, active⟩
  | failed _ _ _ rest _ =>
    obtain ⟨lt, low⟩ := List.forall_mem_cons.mp low
    refine rest.source_ne acyclic low ?_
    rw [failed_source, if_pos rfl]
    exact Acyclic.ne_of_lt lt
  | loaded act file _ deps rest _ _ =>
    -- the first path that is loaded takes the slot, and neither its dependencies nor the paths after
    -- it give the slot back
    obtain ⟨lt, low⟩ := List.forall_mem_cons.mp low
    refine rest.source_ne acyclic low ?_
    rw [publish_source]
    refine deps.source_ne acyclic (acyclic.deps_lt act file lt) ?_
    rw [opened_source, if_pos rfl]
    exact Acyclic.ne_of_lt lt

end Ranks

section Integrity

variable {env : LoadEnv} {rank : Buf → ℕ} {st st₁ : Loader} {root : Buf} {f : DylibFile}
  {slide : W64}

lemma entries_alone :
    ((st.opened root f slide).publish st.count f).entries =
      st.entries ++ [⟨root.take 255, root, slide, parseExports slide f.symtab []⟩] := by
  unfold Loader.entries
  rw [publish_count, opened_count, List.range_succ, List.map_append]
  congr 1
  · apply List.map_congr_left
    intro i mem
    have lt := List.mem_range.mp mem
    rw [publish_slots, if_neg lt.ne, opened_slots, if_neg lt.ne]
  · simp [publish_slots, opened_slots]

lemma integral_alone (ok : Integral env.fs st) (unreg : ¬st.registered root = true)
    (file : env.fs.load root = some f) :
    Integral env.fs ((st.opened root f slide).publish st.count f) ↔ root.length ≤ 255 := by
  constructor
  · intro ok'
    obtain ⟨m, _, entry⟩ := ok'.exists_mapping (i := st.count) (by simp)
    have same : root.take 255 = root := by
      have e := entry.name.trans entry.source.symm
      simpa [publish_slots, opened_slots] using e
    simpa using same
  · intro fits
    refine ⟨?_, ?_⟩
    · rw [publish_loaded, opened_loaded, List.map_append, List.nodup_append]
      refine ⟨ok.once, List.nodup_singleton _, ?_⟩
      rintro a mem b (_ | ⟨_, ⟨⟩⟩) rfl
      exact unreg (ok.registered_iff_mem.mpr mem)
    · obtain ⟨l, perm, all⟩ := ok.entries
      refine ⟨l ++ [⟨root, lowAddr f.segments + slide, slide⟩], ?_, ?_⟩
      · rw [publish_loaded, opened_loaded]
        exact perm.append_right _
      · rw [entries_alone]
        refine List.rel_append all (.cons ?_ .nil)
        refine ⟨List.take_of_length_le fits, rfl, rfl, fun g file' => ?_, fun x mem => ?_⟩
        · cases file.symm.trans file'
          rfl
        · obtain ⟨s, symbol, e⟩ := (mem_parseExports mem).resolve_left List.not_mem_nil
          obtain ⟨name, named, rfl⟩ := exportOf_eq_some e
          exact ⟨f, s, name, file, symbol, named, rfl⟩

lemma not_integral_nested (acyclic : Acyclic env rank) (ok : Integral env.fs st)
    (fresh : ∀ i, st.count < i → st.slots i = .blank) (active : ¬Inert env st root)
    (file : env.fs.load root = some f)
    (deps : Loads env (env.requested root f) (st.opened root f slide) st₁)
    (nested : ∃ q ∈ env.requested root f, ¬Inert env (st.opened root f slide) q) :
    ¬Integral env.fs (st₁.publish st.count f) := by
  intro ok'
  have low := acyclic root f file (isDylib_of_active active file)
  have mem : ⟨root, lowAddr f.segments + slide, slide⟩ ∈ (st₁.publish st.count f).loaded := by
    apply deps.extends.loaded.subset
    simp
  obtain ⟨i, _, entry⟩ := ok'.exists_entry mem
  have source : (st₁.slots i).source = root := publish_source ▸ entry.source
  -- the slot of `root` was taken, the slots before it are as they were, those after it were blank
  rcases lt_trichotomy i st.count with lt | rfl | gt
  · rw [deps.extends.slots i (by simpa using lt), opened_slots, if_neg lt.ne] at source
    obtain ⟨m, _, entry'⟩ := ok.exists_mapping lt
    have name := entry'.name.trans (entry'.source.symm.trans source)
    exact active (.inr (.inl (registered_iff.mpr ⟨i, lt, name⟩)))
  · have ne := deps.overwrites acyclic low nested
    rw [opened_count] at ne
    exact ne source
  · refine deps.source_ne acyclic low ?_ source
    rw [opened_slots, if_neg gt.ne', fresh i gt]
    rintro rfl
    cases env.fs.nameless.symm.trans file

lemma inert_opened (active : ¬Inert env st root) {q} :
    Inert env (st.opened root f slide) q ↔ Idle env st q := by
  have room : ¬maxMachoDylibs ≤ st.count := fun full => active (.inl full)
  unfold Inert Idle
  rw [opened_count, registered_opened]
  exact or_iff_right room

/-- Without cycles the load ends, and after a success the registry is in order exactly when `root` was registered
    before, or its path fits a slot and no dependency had to be loaded. -/
theorem registry_integrity_iff (acyclic : Acyclic env rank) (ok : Integral env.fs st)
    (fresh : ∀ i, st.count < i → st.slots i = .blank) {fuel} (enough : rank root < fuel) :
    ∃ res st', machoLoadDylib env fuel root st = some (res, st') ∧
      (res = true →
        (Integral env.fs st' ↔
          st.registered root = true ∨
            root.length ≤ 255 ∧
              ∀ f, env.fs.load root = some f → ∀ q ∈ env.requested root f, Idle env st q)) := by
  obtain ⟨⟨res, st'⟩, run⟩ := machoLoadDylib_total acyclic enough st
  refine ⟨res, st', run, fun success => ?_⟩
  subst success
  cases fuel with
  | zero => cases run
  | succ fuel =>
    by_cases act : Inert env st root
    · obtain ⟨res, run', reg⟩ := @machoLoadDylib_inert env fuel root st act
      cases run.symm.trans run'
      exact ⟨fun _ => .inl (reg rfl), fun _ => ok⟩
    have unreg : ¬st.registered root = true := fun reg => act (.inr (.inl reg))
    obtain ⟨f, file, _⟩ := exists_file act
    cases maps : mapDylibSegments (env.mmap st.maps) f with
    | none => cases run.symm.trans (machoLoadDylib_failed act file maps)
    | some slide =>
      rw [machoLoadDylib_loaded act file maps] at run
      obtain ⟨st₁, deps, e⟩ := Option.map_eq_some_iff.mp run
      cases e
      have deps := loads_of_loadDeps deps
      rw [or_iff_right unreg]
      -- the dependencies are idle and the slot of `root` is left alone, or one of them takes it
      by_cases alone : ∀ q ∈ env.requested root f, Idle env st q
      · have e := deps.eq_of_inert fun q mem => (inert_opened act).mpr (alone q mem)
        rw [e, integral_alone ok unreg file]
        refine ⟨fun fits => ⟨fits, fun g file' => ?_⟩, And.left⟩
        cases file.symm.trans file'
        exact alone
      · refine iff_of_false ?_ fun h => alone (h.2 f file)
        push Not at alone
        obtain ⟨q, mem, busy⟩ := alone
        exact not_integral_nested acyclic ok fresh act file deps
          ⟨q, mem, fun inert => busy ((inert_opened act).mp inert)⟩

end Integrity

def FileSystem.ofList (files : List (Buf × DylibFile)) (nameless : files.lookup [] = none) : FileSystem where
  access p := (files.lookup p).isSome
  load p := files.lookup p
  accessible p f h := by rw [h]; rfl
  nameless := nameless

def smallDylib (deps : List Buf) (symbol : Buf) : DylibFile where
  magic := MH_MAGIC_64
  filetype := MH_DYLIB
  segments := [⟨ascii "__TEXT", 0, 0x1000, 0, 0x1000, 5, []⟩]
  loadDylibs := deps
  symtab := [⟨some symbol, 0x0F, 0x100⟩]

def twoDylibs : FileSystem :=
  .ofList
    [(ascii "/a.dylib", smallDylib [ascii "/b.dylib"] (ascii "_fa")),
      (ascii "/b.dylib", smallDylib [] (ascii "_fb"))]
    (by decide)

def twoDylibsEnv : LoadEnv := ⟨twoDylibs, [], fun n => some (BitVec.ofNat 64 (0x10000 * (n + 1)))⟩

def twoDylibsRank (p : Buf) : ℕ := if p = ascii "/a.dylib" then 1 else 0

lemma twoDylibs_acyclic : Acyclic twoDylibsEnv twoDylibsRank := by
  intro p f file _ q mem
  by_cases a : p = ascii "/a.dylib"
  · subst a
    cases file
    rw [show twoDylibsEnv.requested _ _ = [ascii "/b.dylib"] from by decide +kernel] at mem
    cases List.mem_singleton.mp mem
    decide
  by_cases b : p = ascii "/b.dylib"
  · subst b
    cases file
    cases mem
  · have none : twoDylibsEnv.fs.load p = none := by
      show List.lookup p _ = none
      simp [List.lookup_cons, beq_false_of_ne a, beq_false_of_ne b]
    cases none.symm.trans file

theorem registry_integrity_iff_twoDylibs :
    Integral twoDylibs .init ∧ ∃ res st',
      machoLoadDylib twoDylibsEnv 2 (ascii "/a.dylib") .init = some (res, st') ∧
        (res = true →
          (Integral twoDylibs st' ↔
            Loader.init.registered (ascii "/a.dylib") = true ∨
              (ascii "/a.dylib").length ≤ 255 ∧
                ∀ f, twoDylibs.load (ascii "/a.dylib") = some f →
                  ∀ q ∈ twoDylibsEnv.requested (ascii "/a.dylib") f,
                    Idle twoDylibsEnv .init q)) :=
  ⟨integral_init twoDylibs,
    registry_integrity_iff twoDylibs_acyclic (integral_init twoDylibs) (fun _ _ => rfl) (by decide)⟩

lemma twoDylibs_run : ∃ st',
    machoLoadDylib twoDylibsEnv 2 (ascii "/a.dylib") .init = some (true, st') ∧
      st'.loaded = [⟨ascii "/a.dylib", 0x10000, 0x10000⟩, ⟨ascii "/b.dylib", 0x20000, 0x20000⟩] ∧
      st'.entries =
        [⟨ascii "/b.dylib", ascii "/b.dylib", 0x20000,
            [⟨ascii "fb", 0x20100⟩, ⟨ascii "fa", 0x20100⟩]⟩,
          .blank] :=
  ⟨_, rfl, rfl, rfl⟩

theorem nested_load_not_integral : ∃ st',
    machoLoadDylib twoDylibsEnv 2 (ascii "/a.dylib") .init = some (true, st') ∧
      st'.loaded = [⟨ascii "/a.dylib", 0x10000, 0x10000⟩, ⟨ascii "/b.dylib", 0x20000, 0x20000⟩] ∧
      st'.entries =
        [⟨ascii "/b.dylib", ascii "/b.dylib", 0x20000,
            [⟨ascii "fb", 0x20100⟩, ⟨ascii "fa", 0x20100⟩]⟩,
          .blank] ∧
      ¬Integral twoDylibs st' := by
  obtain ⟨st', run, loaded, entries⟩ := twoDylibs_run
  refine ⟨st', run, loaded, entries, fun ok => ?_⟩
  have mem : DylibEntry.blank ∈ st'.entries := by simp [entries]
  obtain ⟨i, lt, e⟩ := mem_entries.mp mem
  obtain ⟨m, mem, entry⟩ := ok.exists_mapping lt
  have path : m.path = [] := entry.source.symm.trans (e ▸ rfl)
  rw [loaded] at mem
  cases mem with
  | head => exact absurd path (by decide)
  | tail _ mem =>
    cases List.mem_singleton.mp mem
    exact absurd path (by decide)

end Macify.Dylib
