import Macify.Lib.Bytes
import Macify.Lib.Interleaving
import Mathlib.Data.Set.Insert

/-!
# Thread-specific keys

Threads that call `pthread_key_create`, `pthread_setspecific` and `pthread_getspecific` (`shim/pthread/tls.c`). A
counter behind a mutex numbers the keys, and there is a key of the C library for each number. The table of these
keys and the marks of the numbers in use are read and written without the mutex.

Calls are noted in a history when they take effect. Main result: `keys_thread_specific`. Nobody calls
`pthread_key_delete`, which has no wrapper.
-/

namespace Macify.Threads
open Lib

def MACIFY_MAX_KEYS : ℕ := 256

/-- The shim takes its key for a word of 32 bits. -/
def keyIndex (key : W64) : ℕ := (key.setWidth 32).toNat

inductive SetResult where
  | ok
  | EINVAL
  | ENOMEM
  deriving DecidableEq

/-- A call with its result. A key that cannot be created is `none`, for `EAGAIN`. -/
inductive KeyCall where
  | create (key : Option ℕ)
  | set (key value : W64) (result : SetResult)
  | get (key value : W64)
  deriving DecidableEq

section Histories

variable {ι : Type*} [DecidableEq ι]

def isCreated (history : List (ι × KeyCall)) (k : ℕ) : Bool := history.any (·.2 = .create (some k))

/-- The value that thread `t` has last set for the key `k`; the latest call comes first. -/
def lastSet (t : ι) (k : ℕ) : List (ι × KeyCall) → W64
  | [] => 0
  | (u, .set key value .ok) :: earlier => if u = t ∧ keyIndex key = k then value else lastSet t k earlier
  | _ :: earlier => lastSet t k earlier

/-- What a call may return after the earlier ones. -/
def RightCall (earlier : List (ι × KeyCall)) (t : ι) : KeyCall → Prop
  | .create none => True
  | .create (some k) => k < MACIFY_MAX_KEYS ∧ isCreated earlier k = false
  | .set key _ .EINVAL => isCreated earlier (keyIndex key) = false
  | .set key _ _ => isCreated earlier (keyIndex key) = true
  | .get key value => value = lastSet t (keyIndex key) earlier

def RightHistory : List (ι × KeyCall) → Prop
  | [] => True
  | (t, call) :: earlier => RightCall earlier t call ∧ RightHistory earlier

end Histories

/-- The words of the shim, the keys of the C library with their values in each thread, and the history. -/
structure KeyTable (ι : Type*) where
  next : ℕ
  keys : ℕ → W32
  used : ℕ → Bool
  live : Set W32
  values : ι × W32 → W64
  history : List (ι × KeyCall)

/-- Where a thread is: outside, with a number of its own, with a key of the C library for it, or in a call
    that has found its key in use. -/
inductive KeyAt where
  | idle
  | numbered (k : ℕ)
  | made (k : ℕ)
  | setting (key value : W64)
  | getting (key : W64)

variable {ι : Type*} [DecidableEq ι]

namespace KeyTable

def note (s : KeyTable ι) (t : ι) (call : KeyCall) : KeyTable ι := { s with history := (t, call) :: s.history }

def Valid (s : KeyTable ι) (k : ℕ) : Prop := k < MACIFY_MAX_KEYS ∧ s.used k = true

def start (keys : ℕ → W32) (live : Set W32) : KeyTable ι :=
  ⟨0, keys, fun _ => false, live, fun _ => 0, []⟩

end KeyTable

inductive keyCalls : Program ι (KeyTable ι) KeyAt
  -- there is no meaning to a counter that goes beyond an `int`
  | number {t s} : s.next < 2 ^ 31 - 1 → keyCalls t s .idle { s with next := s.next + 1 } (.numbered s.next)
  | full {t s k} : MACIFY_MAX_KEYS ≤ k → keyCalls t s (.numbered k) (s.note t (.create none)) .idle
  | refused {t s k} : k < MACIFY_MAX_KEYS → keyCalls t s (.numbered k) (s.note t (.create none)) .idle
  | make {t s k x} : k < MACIFY_MAX_KEYS → x ∉ s.live →
    keyCalls t s (.numbered k) { s with keys := Function.update s.keys k x, live := insert x s.live } (.made k)
  | publish {t s k} :
    keyCalls t s (.made k) ({ s with used := Function.update s.used k true }.note t (.create (some k))) .idle
  | setInvalid {t s key v} : ¬s.Valid (keyIndex key) → keyCalls t s .idle (s.note t (.set key v .EINVAL)) .idle
  | setFound {t s key v} : s.Valid (keyIndex key) → keyCalls t s .idle s (.setting key v)
  | set {t s key v} :
    keyCalls t s (.setting key v)
      ({ s with values := Function.update s.values (t, s.keys (keyIndex key)) v }.note t (.set key v .ok)) .idle
  | setFails {t s key v} : keyCalls t s (.setting key v) (s.note t (.set key v .ENOMEM)) .idle
  | getInvalid {t s key} : ¬s.Valid (keyIndex key) → keyCalls t s .idle (s.note t (.get key 0)) .idle
  | getFound {t s key} : s.Valid (keyIndex key) → keyCalls t s .idle s (.getting key)
  | get {t s key} :
    keyCalls t s (.getting key) (s.note t (.get key (s.values (t, s.keys (keyIndex key))))) .idle

/-- How far a number has come. A thread whose key could not be created keeps its number for good. -/
inductive Phase (ι : Type*) where
  | free
  | numbered (t : ι)
  | made (t : ι)
  | done

/-- There is a key of the C library for the number. -/
def Phase.Known : Phase ι → Prop
  | .free | .numbered _ => False
  | .made _ | .done => True

structure KeyRight (g : ℕ → Phase ι) (s : KeyTable ι) : Prop where
  free : ∀ k, g k = .free ↔ s.next ≤ k
  used : ∀ k, s.used k = true ↔ g k = .done
  known : ∀ k, (g k).Known → k < MACIFY_MAX_KEYS ∧ s.keys k ∈ s.live
  distinct : ∀ j k, (g j).Known → (g k).Known → s.keys j = s.keys k → j = k
  unset : ∀ x ∉ s.live, ∀ u, s.values (u, x) = 0
  created : ∀ k, isCreated s.history k = true ↔ g k = .done
  value : ∀ k u, (g k).Known → s.values (u, s.keys k) = lastSet u k s.history
  absent : ∀ k u, g k ≠ .done → lastSet u k s.history = 0
  right : RightHistory s.history

def KeyPlace (g : ℕ → Phase ι) (t : ι) : KeyAt → Prop
  | .idle => True
  | .numbered k => g k = .numbered t
  | .made k => g k = .made t
  | .setting key _ | .getting key => g (keyIndex key) = .done

/-- Thread `t` moves numbers that are free or its own. -/
def KeyMove (t : ι) (g g' : ℕ → Phase ι) : Prop :=
  ∀ k, g' k = g k ∨ g k = .free ∨ g k = .numbered t ∨ g k = .made t

namespace KeyRight

variable {g : ℕ → Phase ι} {s : KeyTable ι} {t : ι} {k : ℕ}

lemma valid_iff (right : KeyRight g s) : s.Valid k ↔ g k = .done := by
  refine ⟨fun valid => (right.used k).mp valid.2, fun done => ⟨?_, (right.used k).mpr done⟩⟩
  apply (right.known k _).1
  rw [done]
  trivial

/-- A call that creates no key and sets none changes nothing but the history. -/
lemma note {call : KeyCall} (right : KeyRight g s) (here : RightCall s.history t call)
    (same : isCreated ((t, call) :: s.history) = isCreated s.history)
    (last : ∀ u k, lastSet u k ((t, call) :: s.history) = lastSet u k s.history) : KeyRight g (s.note t call) where
  __ := right
  created k := by
    rw [KeyTable.note, same]
    exact right.created k
  value k u known := by
    rw [KeyTable.note, last]
    exact right.value k u known
  absent k u ne := by
    rw [KeyTable.note, last]
    exact right.absent k u ne
  right := ⟨here, right.right⟩

omit [DecidableEq ι] in
lemma update_iff {p : Phase ι} (P : Phase ι → Prop) (same : P p ↔ P (g k)) (j : ℕ) :
    P (Function.update g k p j) ↔ P (g j) := by
  by_cases eq : j = k
  · rw [eq, Function.update_self]
    exact same
  · rw [Function.update_of_ne eq]

lemma number (right : KeyRight g s) :
    KeyRight (Function.update g s.next (.numbered t)) { s with next := s.next + 1 } := by
  have was : g s.next = .free := (right.free _).mpr le_rfl
  have done := update_iff (g := g) (k := s.next) (p := .numbered t) (· = .done) (by simp [was])
  have known := update_iff (g := g) (k := s.next) (p := .numbered t) Phase.Known (by simp [was, Phase.Known])
  refine ⟨fun j => ?_, fun j => (right.used j).trans (done j).symm, fun j h => right.known j ((known j).mp h),
    fun i j hi hj => right.distinct i j ((known i).mp hi) ((known j).mp hj), right.unset,
    fun j => (right.created j).trans (done j).symm, fun j u h => right.value j u ((known j).mp h),
    fun j u ne => right.absent j u (mt (done j).mpr ne), right.right⟩
  by_cases eq : j = s.next
  · rw [eq, Function.update_self]
    simp
  · rw [Function.update_of_ne eq, right.free]
    show s.next ≤ j ↔ s.next + 1 ≤ j
    omega

lemma make {x : W32} (right : KeyRight g s) (own : g k = .numbered t) (lt : k < MACIFY_MAX_KEYS)
    (fresh : x ∉ s.live) : KeyRight (Function.update g k (.made t))
      { s with keys := Function.update s.keys k x, live := insert x s.live } := by
  have done := update_iff (g := g) (k := k) (p := .made t) (· = .done) (by simp [own])
  have free := update_iff (g := g) (k := k) (p := .made t) (· = .free) (by simp [own])
  -- the keys of the other numbers are not `x`, since the C library has not given them back
  have known : ∀ j ≠ k, (Function.update g k (.made t) j).Known → (g j).Known ∧
      Function.update s.keys k x j = s.keys j ∧ s.keys j ≠ x := by
    intro j ne h
    rw [Function.update_of_ne ne] at h ⊢
    exact ⟨h, rfl, fun e => fresh (e ▸ (right.known j h).2)⟩
  refine ⟨fun j => (free j).trans (right.free j), fun j => (right.used j).trans (done j).symm, fun j h => ?_,
    fun i j hi hj e => ?_, fun y out u => right.unset y (mt (Set.mem_insert_of_mem x) out) u,
    fun j => (right.created j).trans (done j).symm, fun j u h => ?_,
    fun j u ne => right.absent j u (mt (done j).mpr ne), right.right⟩
  · by_cases eq : j = k
    · rw [eq]
      exact ⟨lt, by simp⟩
    · obtain ⟨h, same, -⟩ := known j eq h
      refine ⟨(right.known j h).1, Set.mem_insert_of_mem x ?_⟩
      show Function.update s.keys k x j ∈ s.live
      rw [same]
      exact (right.known j h).2
  · dsimp only at e
    by_cases eqi : i = k
    · by_cases eqj : j = k
      · rw [eqi, eqj]
      · obtain ⟨-, same, ne⟩ := known j eqj hj
        rw [eqi, Function.update_self, same] at e
        exact absurd e.symm ne
    · obtain ⟨hi, same, ne⟩ := known i eqi hi
      by_cases eqj : j = k
      · rw [eqj, Function.update_self, same] at e
        exact absurd e ne
      · obtain ⟨hj, same', -⟩ := known j eqj hj
        rw [same, same'] at e
        exact right.distinct i j hi hj e
  · dsimp only
    by_cases eq : j = k
    · rw [eq, Function.update_self, right.unset x fresh u, right.absent k u (by simp [own])]
    · obtain ⟨h, same, -⟩ := known j eq h
      rw [same]
      exact right.value j u h

lemma publish (right : KeyRight g s) (own : g k = .made t) :
    KeyRight (Function.update g k .done)
      ({ s with used := Function.update s.used k true }.note t (.create (some k))) := by
  have known := update_iff (g := g) (k := k) (p := .done) Phase.Known (by simp [own, Phase.Known])
  have free := update_iff (g := g) (k := k) (p := .done) (· = .free) (by simp [own])
  have before : isCreated s.history k = false := by
    rw [← Bool.not_eq_true, right.created, own]
    simp
  have lt : k < MACIFY_MAX_KEYS := by
    apply (right.known k _).1
    rw [own]
    trivial
  refine ⟨fun j => (free j).trans (right.free j), fun j => ?_, fun j h => right.known j ((known j).mp h),
    fun i j hi hj => right.distinct i j ((known i).mp hi) ((known j).mp hj), right.unset, fun j => ?_,
    fun j u h => right.value j u ((known j).mp h), fun j u ne => ?_, ⟨⟨lt, before⟩, right.right⟩⟩
  · show Function.update s.used k true j = true ↔ _
    by_cases eq : j = k
    · simp [eq]
    · rw [Function.update_of_ne eq, Function.update_of_ne eq]
      exact right.used j
  · show isCreated ((t, .create (some k)) :: s.history) j = true ↔ _
    by_cases eq : j = k
    · simp [eq, isCreated]
    · rw [Function.update_of_ne eq, ← right.created j]
      simp [isCreated, Ne.symm eq]
  · refine right.absent j u fun d => ne ?_
    by_cases eq : j = k
    · rw [eq, Function.update_self]
    · rw [Function.update_of_ne eq, d]

lemma set {key v : W64} (right : KeyRight g s) (found : g (keyIndex key) = .done) :
    KeyRight g ({ s with values := Function.update s.values (t, s.keys (keyIndex key)) v }.note t
      (.set key v .ok)) := by
  have here : (g (keyIndex key)).Known := by
    rw [found]
    trivial
  refine ⟨right.free, right.used, right.known, right.distinct, fun x out u => ?_, right.created, fun j u h => ?_,
    fun j u ne => ?_, ⟨(right.created _).mpr found, right.right⟩⟩
  · have ne : (u, x) ≠ (t, s.keys (keyIndex key)) := fun e => out ((Prod.mk.inj e).2 ▸ (right.known _ here).2)
    exact (Function.update_of_ne ne ..).trans (right.unset x out u)
  · show Function.update s.values _ v (u, s.keys j) = if t = u ∧ keyIndex key = j then v else lastSet u j s.history
    rw [Function.update_apply, right.value j u h]
    refine if_congr ?_ rfl rfl
    rw [Prod.mk.injEq, eq_comm, and_congr_right_iff]
    exact fun _ => ⟨fun e => right.distinct _ j here h e.symm, fun e => congrArg s.keys e.symm⟩
  · have other : ¬(t = u ∧ keyIndex key = j) := fun both => ne (both.2 ▸ found)
    show (if t = u ∧ keyIndex key = j then v else lastSet u j s.history) = 0
    rw [if_neg other]
    exact right.absent j u ne

omit [DecidableEq ι] in
lemma move_update {p : Phase ι} (old : g k = .free ∨ g k = .numbered t ∨ g k = .made t) :
    KeyMove t g (Function.update g k p) := by
  intro j
  by_cases eq : j = k
  · exact .inr (eq ▸ old)
  · exact .inl (Function.update_of_ne eq ..)

end KeyRight

open KeyRight in
lemma keys_keep : (keyCalls : Program ι (KeyTable ι) KeyAt).Keeps KeyRight KeyPlace KeyMove where
  own := by
    intro g t s l s' l' right place step
    have still : KeyMove t g g := fun _ => .inl rfl
    cases step with
    | number _ => exact ⟨_, move_update (.inl ((right.free _).mpr le_rfl)), right.number, Function.update_self ..⟩
    | full _ | refused _ => exact ⟨g, still, right.note trivial rfl fun _ _ => rfl, trivial⟩
    | make lt fresh => exact ⟨_, move_update (.inr (.inl place)), right.make place lt fresh, Function.update_self ..⟩
    | publish => exact ⟨_, move_update (.inr (.inr place)), right.publish place, trivial⟩
    | setInvalid invalid =>
      have absent := Bool.eq_false_iff.mpr fun h => invalid (right.valid_iff.mpr ((right.created _).mp h))
      exact ⟨g, still, right.note absent rfl fun _ _ => rfl, trivial⟩
    | setFound valid | getFound valid => exact ⟨g, still, right, right.valid_iff.mp valid⟩
    | set => exact ⟨g, still, right.set place, trivial⟩
    | setFails => exact ⟨g, still, right.note ((right.created _).mpr place) rfl fun _ _ => rfl, trivial⟩
    | getInvalid invalid =>
      have absent := right.absent _ t (mt right.valid_iff.mpr invalid)
      exact ⟨g, still, right.note absent.symm rfl fun _ _ => rfl, trivial⟩
    | @get _ _ key =>
      have known : (g (keyIndex key)).Known := by
        rw [show g (keyIndex key) = .done from place]
        trivial
      exact ⟨g, still, right.note (right.value _ t known) rfl fun _ _ => rfl, trivial⟩
  other := by
    intro g g' t u l move ne place
    have keep : ∀ k, g k ≠ .free → g k ≠ .numbered t → g k ≠ .made t → g' k = g k := fun k h₁ h₂ h₃ =>
      (move k).resolve_right fun h => h.elim h₁ fun h => h.elim h₂ h₃
    cases l with
    | idle => trivial
    | numbered k =>
      have at' : g k = .numbered u := place
      exact (keep k (by simp [at']) (by simp [at', ne]) (by simp [at'])).trans place
    | made k =>
      have at' : g k = .made u := place
      exact (keep k (by simp [at']) (by simp [at']) (by simp [at', ne])).trans place
    | setting key _ | getting key =>
      have at' : g (keyIndex key) = .done := place
      exact (keep _ (by simp [at']) (by simp [at']) (by simp [at'])).trans place

/-- In all that threads do, each call returns what it may after the calls that took effect before it. -/
theorem keys_thread_specific {keys : ℕ → W32} {live : Set W32} {c : Config ι (KeyTable ι) KeyAt}
    (reaches : keyCalls.Reaches ⟨.start keys live, fun _ => .idle⟩ c) : RightHistory c.shared.history := by
  have start : Program.Holds KeyRight KeyPlace (fun _ => .free)
      (⟨.start keys live, fun _ => .idle⟩ : Config ι (KeyTable ι) KeyAt) :=
    ⟨⟨fun k => by simp [KeyTable.start], fun k => by simp [KeyTable.start], fun k h => absurd h id,
      fun j k h => absurd h id, fun x _ u => rfl, fun k => by simp [KeyTable.start, isCreated],
      fun k u h => absurd h id, fun k u _ => rfl, trivial⟩, fun _ => trivial⟩
  obtain ⟨g, holds⟩ := Program.holds_of_reaches keys_keep start reaches
  exact holds.shared.right

/-- One of two threads creates a key and sets it, the other one gets its own value of that key. -/
theorem keys_thread_specific_two :
    RightHistory [((1 : Fin 2), .get 0 0), (0, .set 0 7 .ok), (0, .create (some 0))] := by
  let c : Config (Fin 2) (KeyTable (Fin 2)) KeyAt := ⟨.start (fun _ => 0) ∅, fun _ => .idle⟩
  have none : keyCalls.Reaches c c := .refl
  have first := none.step (t := 0) (.number (by decide))
  have created := (first.again (.make (x := 5) (by decide) id)).again .publish
  have set := (created.again (@keyCalls.setFound _ _ _ _ 0 7 ⟨by decide, rfl⟩)).again .set
  have got := (set.turn (t := 1) (by decide) (@keyCalls.getFound _ _ _ _ 0 ⟨by decide, rfl⟩)).again .get
  exact keys_thread_specific got

end Macify.Threads
