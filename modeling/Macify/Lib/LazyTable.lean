import Macify.Lib.Interleaving
import Mathlib.Data.Set.Insert

/-!
# A table that its first users fill

Functions call through the pointers of a table. A function first looks at a flag; if it is not set it stores all
pointers of a group, one after another, and then sets the flag. `Wrapper.Safe` says that a function calls a pointer
only after it has passed the gate, stored the pointer, or seen it set, and `lazy_calls_right` that in any
interleaving of safe functions every call goes to the right address.
-/

namespace Macify.Lib

inductive Wrapper (κ : Type*)
  | done
  | gate (next : Wrapper κ)
  | call (f : κ) (next : Wrapper κ)
  | fill (f : κ) (next : Wrapper κ)
  | ifSet (f : κ) (yes no : Wrapper κ)
  | await (f : κ) (next : Wrapper κ)

namespace Wrapper

variable {κ : Type*}

/-- With the pointers in `known` set, no pointer is called that is not. -/
def Safe (group known : Set κ) : Wrapper κ → Prop
  | done => True
  | gate next => next.Safe group (known ∪ group)
  | call f next => f ∈ known ∧ next.Safe group known
  | fill f next => next.Safe group (insert f known)
  | ifSet f yes no => yes.Safe group (insert f known) ∧ no.Safe group known
  | await f next => next.Safe group (insert f known)

lemma Safe.mono {group known known' : Set κ} {w : Wrapper κ} (safe : w.Safe group known) (le : known ⊆ known') :
    w.Safe group known' := by
  induction w generalizing known known' with
  | done => trivial
  | gate next ih => exact ih safe (Set.union_subset_union_left group le)
  | call f next ih => exact ⟨le safe.1, ih safe.2 le⟩
  | fill f next ih => exact ih safe (Set.insert_subset_insert le)
  | ifSet f yes no ihYes ihNo => exact ⟨ihYes safe.1 (Set.insert_subset_insert le), ihNo safe.2 le⟩
  | await f next ih => exact ih safe (Set.insert_subset_insert le)

lemma Safe.ite {group known : Set κ} {p : Prop} [Decidable p] {yes no : Wrapper κ} (safe : yes.Safe group known)
    (safe' : no.Safe group known) : (if p then yes else no).Safe group known := by
  split
  · exact safe
  · exact safe'

def Calls (f : κ) : Wrapper κ → Prop
  | done => False
  | gate next => next.Calls f
  | call f' next => f' = f ∨ next.Calls f
  | fill _ next => next.Calls f
  | ifSet _ yes no => yes.Calls f ∨ no.Calls f
  | await _ next => next.Calls f

end Wrapper

variable {ι κ α ω : Type*}

structure LazyCall (κ α ω : Type*) where
  wrapper : ω
  pointer : κ
  address : α

structure LazyShared (κ α ω : Type*) where
  table : κ → α
  ready : Bool
  log : List (LazyCall κ α ω)

inductive LazyPc (κ α ω : Type*)
  | idle
  | run (w : ω) (next : Wrapper κ)
  | init (w : ω) (todo : List (κ × α)) (next : Wrapper κ)

structure LazyThread (κ α ω : Type*) where
  pc : LazyPc κ α ω
  rest : List ω

/-- The initialiser makes the stores `init`, and the lookup of `f` gives `value f`. -/
inductive lazyCalls [DecidableEq κ] [Zero α] (init : List (κ × α)) (value : κ → α) (body : ω → Wrapper κ) (t : ι) :
    LazyShared κ α ω → LazyThread κ α ω → LazyShared κ α ω → LazyThread κ α ω → Prop
  | enter {s w ws} :
    lazyCalls init value body t s ⟨.idle, w :: ws⟩ s ⟨.run w (body w), ws⟩
  | leave {s w ws} :
    lazyCalls init value body t s ⟨.run w .done, ws⟩ s ⟨.idle, ws⟩
  | ready {s w k ws} :
    s.ready = true →
    lazyCalls init value body t s ⟨.run w (.gate k), ws⟩ s ⟨.run w k, ws⟩
  | notReady {s w k ws} :
    s.ready = false →
    lazyCalls init value body t s ⟨.run w (.gate k), ws⟩ s ⟨.init w init k, ws⟩
  | store {s w f a todo k ws} :
    lazyCalls init value body t s ⟨.init w ((f, a) :: todo) k, ws⟩
      { s with table := Function.update s.table f a } ⟨.init w todo k, ws⟩
  | publish {s w k ws} :
    lazyCalls init value body t s ⟨.init w [] k, ws⟩ { s with ready := true } ⟨.run w k, ws⟩
  | call {s w f k ws} :
    lazyCalls init value body t s ⟨.run w (.call f k), ws⟩
      { s with log := ⟨w, f, s.table f⟩ :: s.log } ⟨.run w k, ws⟩
  | fill {s w f k ws} :
    lazyCalls init value body t s ⟨.run w (.fill f k), ws⟩
      { s with table := Function.update s.table f (value f) } ⟨.run w k, ws⟩
  | isSet {s w f yes no ws} :
    s.table f ≠ 0 →
    lazyCalls init value body t s ⟨.run w (.ifSet f yes no), ws⟩ s ⟨.run w yes, ws⟩
  | unset {s w f yes no ws} :
    s.table f = 0 →
    lazyCalls init value body t s ⟨.run w (.ifSet f yes no), ws⟩ s ⟨.run w no, ws⟩
  | arrived {s w f k ws} :
    s.table f ≠ 0 →
    lazyCalls init value body t s ⟨.run w (.await f k), ws⟩ s ⟨.run w k, ws⟩
  | wait {s w f k ws} :
    s.table f = 0 →
    lazyCalls init value body t s ⟨.run w (.await f k), ws⟩ s ⟨.run w (.await f k), ws⟩

def lazyStart [Zero α] (calls : ι → List ω) : Config ι (LazyShared κ α ω) (LazyThread κ α ω) :=
  ⟨⟨fun _ => 0, false, []⟩, fun t => ⟨.idle, calls t⟩⟩

structure LazyInit (group : Set κ) (init : List (κ × α)) (value : κ → α) : Prop where
  right : ∀ e ∈ init, e.2 = value e.1
  complete : ∀ f ∈ group, f ∈ init.map Prod.fst

structure LazyRight [Zero α] (group : Set κ) (value : κ → α) (body : ω → Wrapper κ) (g : Set κ)
    (s : LazyShared κ α ω) : Prop where
  set : ∀ f ∈ g, s.table f = value f
  unset : ∀ f, f ∉ g → s.table f = 0
  ready : s.ready = true → group ⊆ g
  log : ∀ e ∈ s.log, e.address = value e.pointer ∧ (body e.wrapper).Calls e.pointer

inductive LazyAt (group : Set κ) (value : κ → α) (body : ω → Wrapper κ) (g : Set κ) : LazyPc κ α ω → Prop
  | idle :
    LazyAt group value body g .idle
  | run {w k} :
    k.Safe group g →
    (∀ f, k.Calls f → (body w).Calls f) →
    LazyAt group value body g (.run w k)
  | init {w todo k} :
    (∀ e ∈ todo, e.2 = value e.1) →
    (∀ f ∈ group, f ∈ g ∨ f ∈ todo.map Prod.fst) →
    k.Safe group (g ∪ group) →
    (∀ f, k.Calls f → (body w).Calls f) →
    LazyAt group value body g (.init w todo k)

section Invariant

variable [DecidableEq κ] [Zero α] {group g g' : Set κ} {init : List (κ × α)} {value : κ → α}
  {body : ω → Wrapper κ} {s s' : LazyShared κ α ω} {l l' : LazyThread κ α ω} {t : ι} {f : κ} {a : α}

omit [DecidableEq κ] [Zero α] in
lemma LazyAt.mono {pc : LazyPc κ α ω} (place : LazyAt group value body g pc) (le : g ⊆ g') :
    LazyAt group value body g' pc := by
  cases place with
  | idle => exact .idle
  | run safe calls => exact .run (safe.mono le) calls
  | init right todo safe calls =>
    refine .init right (fun f mem => ?_) (safe.mono (Set.union_subset_union_left group le)) calls
    exact (todo f mem).imp_left fun known => le known

lemma LazyRight.store (right : LazyRight group value body g s) (eq : a = value f) :
    LazyRight group value body (insert f g) { s with table := Function.update s.table f a } where
  set f' mem := by
    by_cases same : f' = f
    · rw [same]
      exact (Function.update_self ..).trans eq
    · exact (Function.update_of_ne same ..).trans (right.set f' (Set.mem_of_mem_insert_of_ne mem same))
  unset f' none := by
    rw [Set.mem_insert_iff, not_or] at none
    exact (Function.update_of_ne none.1 ..).trans (right.unset f' none.2)
  ready isReady := (right.ready isReady).trans (Set.subset_insert f g)
  log := right.log

omit [DecidableEq κ] in
lemma LazyRight.mem_of_ne (right : LazyRight group value body g s) (isSet : s.table f ≠ 0) : f ∈ g := by
  by_contra none
  exact isSet (right.unset f none)

lemma lazyCalls_next (fills : LazyInit group init value) (safe : ∀ w, (body w).Safe group ∅)
    (right : LazyRight group value body g s) (place : LazyAt group value body g l.pc)
    (step : lazyCalls init value body t s l s' l') :
    ∃ g', g ⊆ g' ∧ LazyRight group value body g' s' ∧ LazyAt group value body g' l'.pc := by
  cases step with
  | @enter w _ => exact ⟨g, le_refl g, right, .run ((safe w).mono (Set.empty_subset g)) fun _ => id⟩
  | leave => exact ⟨g, le_refl g, right, .idle⟩
  | ready isReady =>
    cases place with
    | run safe calls =>
      rw [Wrapper.Safe] at safe
      refine ⟨g, le_refl g, right, .run (safe.mono ?_) calls⟩
      exact Set.union_subset (le_refl g) (right.ready isReady)
  | notReady _ =>
    cases place with
    | run safe calls =>
      exact ⟨g, le_refl g, right, .init fills.right (fun f mem => .inr (fills.complete f mem)) safe calls⟩
  | @store _ f _ _ _ _ =>
    cases place with
    | init rights todo safe calls =>
      have le := Set.subset_insert f g
      refine ⟨insert f g, le, right.store (rights _ List.mem_cons_self), .init ?_ ?_ ?_ calls⟩
      · exact fun e mem => rights e (List.mem_cons_of_mem _ mem)
      · intro f' mem
        rcases todo f' mem with known | left
        · exact .inl (le known)
        · rw [List.map_cons, List.mem_cons] at left
          rcases left with rfl | left
          · exact .inl (Set.mem_insert f' g)
          · exact .inr left
      · exact safe.mono (Set.union_subset_union_left group le)
  | publish =>
    cases place with
    | init _ todo safe calls =>
      have all : group ⊆ g := fun f mem => (todo f mem).resolve_right List.not_mem_nil
      refine ⟨g, le_refl g, ⟨right.set, right.unset, fun _ => all, right.log⟩, .run ?_ calls⟩
      exact safe.mono (Set.union_subset (le_refl g) all)
  | call =>
    cases place with
    | run safe calls =>
      refine ⟨g, le_refl g, ⟨right.set, right.unset, right.ready, ?_⟩, .run safe.2 fun f mem => calls f (.inr mem)⟩
      intro e mem
      rcases List.mem_cons.mp mem with rfl | before
      · exact ⟨right.set _ safe.1, calls _ (.inl rfl)⟩
      · exact right.log e before
  | @fill _ f _ _ =>
    cases place with
    | run safe calls => exact ⟨insert f g, Set.subset_insert f g, right.store rfl, .run safe calls⟩
  | isSet isSet =>
    cases place with
    | run safe calls =>
      rw [Wrapper.Safe, Set.insert_eq_of_mem (right.mem_of_ne isSet)] at safe
      exact ⟨g, le_refl g, right, .run safe.1 fun f mem => calls f (.inl mem)⟩
  | unset _ =>
    cases place with
    | run safe calls => exact ⟨g, le_refl g, right, .run safe.2 fun f mem => calls f (.inr mem)⟩
  | arrived isSet =>
    cases place with
    | run safe calls =>
      rw [Wrapper.Safe, Set.insert_eq_of_mem (right.mem_of_ne isSet)] at safe
      exact ⟨g, le_refl g, right, .run safe calls⟩
  | wait _ => exact ⟨g, le_refl g, right, place⟩

lemma lazy_keeps (fills : LazyInit group init value) (safe : ∀ w, (body w).Safe group ∅) :
    Program.Keeps (lazyCalls init value body : Program ι _ _) (LazyRight group value body)
      (fun g _ l => LazyAt group value body g l.pc) fun _ g g' => g ⊆ g' where
  own := lazyCalls_next fills safe
  other le _ place := place.mono le

/-- Every call goes to the address of the function that its pointer stands for, and is in the code of the
    function that makes it. -/
theorem lazy_calls_right [DecidableEq ι] {calls : ι → List ω} {c : Config ι (LazyShared κ α ω) (LazyThread κ α ω)}
    (fills : LazyInit group init value) (safe : ∀ w, (body w).Safe group ∅)
    (reaches : Program.Reaches (lazyCalls init value body) (lazyStart calls) c) :
    ∀ e ∈ c.shared.log, e.address = value e.pointer ∧ (body e.wrapper).Calls e.pointer := by
  have start : Program.Holds (LazyRight group value body) (fun g _ l => LazyAt group value body g l.pc) ∅
      (lazyStart calls) := by
    refine ⟨⟨nofun, fun _ _ => rfl, nofun, nofun⟩, fun t => .idle⟩
  obtain ⟨g, holds⟩ := Program.holds_of_reaches (lazy_keeps fills safe) start reaches
  exact holds.shared.log

end Invariant

end Macify.Lib
