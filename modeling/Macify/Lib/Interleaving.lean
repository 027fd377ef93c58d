import Mathlib.Logic.Relation
import Mathlib.Tactic

/-!
# Threads with a common state

A program says what a thread can do in one step, given the common state and its own. `Program.holds_of_reaches` is
the rule for invariants: they consist of what holds of the common state and of each thread in a stage of the whole
system. A step moves the system to another stage, in which all other threads have to be right where they are.

A run is fair if a thread that can always take a step takes one, and strongly fair if it is enough that it can do so
again and again. `Program.Run.progress` is the rule for a thread that others cannot keep from getting on, and
`Program.Run.ensures_strong` the one for a thread that waits for a lock.
-/

namespace Macify.Lib

section Sequences

variable {α : Type*} {run : ℕ → α} {A B C : α → Prop}

def LeadsTo (run : ℕ → α) (A B : α → Prop) : Prop := ∀ n, A (run n) → ∃ m ≥ n, B (run m)

lemma LeadsTo.trans (first : LeadsTo run A B) (second : LeadsTo run B C) : LeadsTo run A C := by
  intro n here
  obtain ⟨m, le, there⟩ := first n here
  obtain ⟨k, le', after⟩ := second m there
  exact ⟨k, le.trans le', after⟩

/-- A measure gets lower as long as `B` is not reached. -/
lemma LeadsTo.of_rank (rank : α → ℕ)
    (lower : ∀ k, LeadsTo run (fun c => A c ∧ rank c = k) fun c => B c ∨ A c ∧ rank c < k) : LeadsTo run A B := by
  have bounded : ∀ k, LeadsTo run (fun c => A c ∧ rank c = k) B := by
    intro k
    induction k using Nat.strong_induction_on with
    | _ k ih =>
      intro n here
      obtain ⟨m, ge, there | ⟨still, less⟩⟩ := lower k n here
      · exact ⟨m, ge, there⟩
      · obtain ⟨j, ge', there⟩ := ih _ less m ⟨still, rfl⟩
        exact ⟨j, ge.trans ge', there⟩
  exact fun n here => bounded _ n ⟨here, rfl⟩

end Sequences

structure Config (ι σ τ : Type*) where
  shared : σ
  thread : ι → τ

/-- The steps of a thread: the common state and its own, before and after. -/
abbrev Program (ι σ τ : Type*) := ι → σ → τ → σ → τ → Prop

variable {ι σ τ : Type*} [DecidableEq ι]

def Config.put (c : Config ι σ τ) (t : ι) (s : σ) (l : τ) : Config ι σ τ := ⟨s, Function.update c.thread t l⟩

section Put

variable {c : Config ι σ τ} {t u : ι} {s : σ} {l : τ}

@[simp] lemma Config.put_self : (c.put t s l).thread t = l := Function.update_self ..

@[simp] lemma Config.put_other (ne : u ≠ t) : (c.put t s l).thread u = c.thread u := Function.update_of_ne ne ..

@[simp] lemma Config.put_same : c.put t c.shared (c.thread t) = c := by
  rw [put, Function.update_eq_self]

@[simp] lemma Config.put_put {s' : σ} {l' : τ} : (c.put t s l).put t s' l' = c.put t s' l' := by
  rw [put, put, put, Function.update_idem]

end Put

namespace Program

variable (p : Program ι σ τ)

inductive Step (c : Config ι σ τ) (t : ι) : Config ι σ τ → Prop
  | intro {s l} :
    p t c.shared (c.thread t) s l →
    Step c t (c.put t s l)

def Reaches : Config ι σ τ → Config ι σ τ → Prop := Relation.ReflTransGen fun c c' => ∃ t, p.Step c t c'

section Steps

variable {p} {c c' c'' : Config ι σ τ} {t u : ι}

lemma Step.own (step : p.Step c t c') : p t c.shared (c.thread t) c'.shared (c'.thread t) := by
  cases step with
  | intro moves =>
    rw [Config.put_self]
    exact moves

lemma Step.other (step : p.Step c t c') (ne : u ≠ t) : c'.thread u = c.thread u := by
  cases step with
  | intro _ => exact Config.put_other ne

lemma Reaches.step {s : σ} {l : τ} (reaches : p.Reaches c c') (moves : p t c'.shared (c'.thread t) s l) :
    p.Reaches c (c'.put t s l) := reaches.tail ⟨t, .intro moves⟩

lemma Reaches.again {s s' : σ} {l l' : τ} (reaches : p.Reaches c (c'.put t s l)) (moves : p t s l s' l') :
    p.Reaches c (c'.put t s' l') := by
  have here : p t (c'.put t s l).shared ((c'.put t s l).thread t) s' l' := by
    rw [Config.put_self]
    exact moves
  have next := reaches.step here
  rw [Config.put_put] at next
  exact next

lemma Reaches.turn {s s' : σ} {l l' : τ} (reaches : p.Reaches c (c'.put u s l)) (ne : t ≠ u)
    (moves : p t s (c'.thread t) s' l') : p.Reaches c ((c'.put u s l).put t s' l') := by
  refine reaches.step ?_
  rw [Config.put_other ne]
  exact moves

end Steps

section Invariants

variable {γ : Type*} (G : γ → σ → Prop) (P : γ → ι → τ → Prop) (N : ι → γ → γ → Prop)

structure Holds (g : γ) (c : Config ι σ τ) : Prop where
  shared : G g c.shared
  thread : ∀ t, P g t (c.thread t)

/-- A step of one thread moves the stage as `N` says and leaves it right, and such a move keeps every other
    thread right. -/
structure Keeps : Prop where
  own {g t s l s' l'} : G g s → P g t l → p t s l s' l' → ∃ g', N t g g' ∧ G g' s' ∧ P g' t l'
  other {g g' t u l} : N t g g' → u ≠ t → P g u l → P g' u l

variable {p G P N} {g : γ} {c c' : Config ι σ τ} {t : ι}

lemma Keeps.step (keeps : p.Keeps G P N) (holds : Holds G P g c) (step : p.Step c t c') :
    ∃ g', N t g g' ∧ Holds G P g' c' := by
  cases step with
  | intro moves =>
    obtain ⟨g', next, shared, own⟩ := keeps.own holds.shared (holds.thread t) moves
    refine ⟨g', next, shared, fun u => ?_⟩
    by_cases eq : u = t
    · rw [eq, Config.put_self]
      exact own
    · rw [Config.put_other eq]
      exact keeps.other next eq (holds.thread u)

/-- The rule for invariants. -/
theorem holds_of_reaches (keeps : p.Keeps G P N) (holds : Holds G P g c) (reaches : p.Reaches c c') :
    ∃ g', Holds G P g' c' := by
  induction reaches with
  | refl => exact ⟨g, holds⟩
  | tail _ step ih =>
    obtain ⟨g', before⟩ := ih
    obtain ⟨t, step⟩ := step
    obtain ⟨g'', -, after⟩ := keeps.step before step
    exact ⟨g'', after⟩

end Invariants

section Runs

variable (run : ℕ → Config ι σ τ)

def Run : Prop := ∀ n, run (n + 1) = run n ∨ ∃ t, p.Step (run n) t (run (n + 1))

def CanStep (c : Config ι σ τ) (t : ι) : Prop := ∃ c', p.Step c t c'

def Fair : Prop := ∀ t n, (∀ k ≥ n, p.CanStep (run k) t) → ∃ k ≥ n, p.Step (run k) t (run (k + 1))

def StrongFair : Prop :=
  ∀ t n, (∀ k ≥ n, ∃ m ≥ k, p.CanStep (run m) t) → ∃ k ≥ n, p.Step (run k) t (run (k + 1))

variable {p run} {A B : Config ι σ τ → Prop}

lemma StrongFair.fair (strong : p.StrongFair run) : p.Fair run := by
  intro t n can
  exact strong t n fun k ge => ⟨k, le_refl k, can k ge⟩

lemma canStep_of {c : Config ι σ τ} {t : ι} {s : σ} {l : τ} (moves : p t c.shared (c.thread t) s l) :
    p.CanStep c t := ⟨_, .intro moves⟩

lemma Run.reaches (isRun : p.Run run) (n : ℕ) : p.Reaches (run 0) (run n) := by
  induction n with
  | zero => exact .refl
  | succ n ih =>
    rcases isRun n with same | step
    · rw [same]
      exact ih
    · exact ih.tail step

lemma Run.stable (isRun : p.Run run) (stays : ∀ n t, A (run n) → p.Step (run n) t (run (n + 1)) → A (run (n + 1)))
    {n m : ℕ} (le : n ≤ m) (here : A (run n)) : A (run m) := by
  induction m, le using Nat.le_induction with
  | base => exact here
  | succ m _ ih =>
    rcases isRun m with same | ⟨t, step⟩
    · rw [same]
      exact ih
    · exact stays m t ih step

section Ensures

variable {t : ι} (helps : ∀ n, A (run n) → p.Step (run n) t (run (n + 1)) → B (run (n + 1)))
  (others : ∀ n u, u ≠ t → A (run n) → p.Step (run n) u (run (n + 1)) → A (run (n + 1)) ∨ B (run (n + 1)))
include helps others

/-- Thread `t` leads from `A` to `B`, and others keep `A` or lead to `B`. It is enough that `t` takes a step
    while `A` is true. -/
lemma Run.comes_to (isRun : p.Run run) {n : ℕ} (here : A (run n))
    (turn : (∀ k ≥ n, A (run k)) → ∃ k ≥ n, p.Step (run k) t (run (k + 1))) : ∃ m ≥ n, B (run m) := by
  by_contra never
  push Not at never
  have always : ∀ k ≥ n, A (run k) := by
    intro k ge
    induction k, ge using Nat.le_induction with
    | base => exact here
    | succ k le ih =>
      rcases isRun k with same | ⟨u, step⟩
      · rw [same]
        exact ih
      · by_cases eq : u = t
        · exact absurd (helps k ih (eq ▸ step)) (never (k + 1) (Nat.le_succ_of_le le))
        · exact (others k u eq ih step).resolve_right (never (k + 1) (Nat.le_succ_of_le le))
  obtain ⟨k, ge, step⟩ := turn always
  exact never (k + 1) (Nat.le_succ_of_le ge) (helps k (always k ge) step)

/-- As long as `A` holds thread `t` can take its step. -/
theorem Run.ensures (isRun : p.Run run) (fair : p.Fair run) (can : ∀ n, A (run n) → p.CanStep (run n) t) :
    LeadsTo run A B := by
  intro n here
  exact isRun.comes_to helps others here fun always => fair t n fun k ge => can k (always k ge)

/-- Others may keep thread `t` from its step, but not for ever. -/
theorem Run.ensures_strong (isRun : p.Run run) (fair : p.StrongFair run)
    (often : ∀ n, (∀ k ≥ n, A (run k)) → ∃ m ≥ n, p.CanStep (run m) t) : LeadsTo run A B := by
  intro n here
  refine isRun.comes_to helps others here fun always => fair t n fun k ge => ?_
  exact often k fun j ge' => always j (ge.trans ge')

end Ensures

/-- As long as `A` holds thread `t` can take a step, and has fewer steps left after each one. -/
theorem Run.progress (isRun : p.Run run) (fair : p.Fair run) (t : ι) (rank : τ → ℕ)
    (can : ∀ n, A (run n) → p.CanStep (run n) t)
    (own : ∀ n, A (run n) → p.Step (run n) t (run (n + 1)) →
      B (run (n + 1)) ∨ A (run (n + 1)) ∧ rank ((run (n + 1)).thread t) < rank ((run n).thread t))
    (others : ∀ n u, u ≠ t → A (run n) → p.Step (run n) u (run (n + 1)) → A (run (n + 1)) ∨ B (run (n + 1))) :
    LeadsTo run A B := by
  refine .of_rank (fun c => rank (c.thread t)) fun k => isRun.ensures (t := t) ?_ ?_ fair fun n here => can n here.1
  · rintro n ⟨here, rfl⟩ step
    exact own n here step
  · rintro n u ne ⟨here, rfl⟩ step
    refine (others n u ne here step).imp (fun still => ⟨still, ?_⟩) .inl
    rw [step.other ne.symm]

lemma Run.prepend (isRun : p.Run run) {c : Config ι σ τ} (reaches : p.Reaches c (run 0)) :
    ∃ run', p.Run run' ∧ run' 0 = c ∧ ∃ n, ∀ k, run' (n + k) = run k := by
  induction reaches using Relation.ReflTransGen.head_induction_on with
  | refl => exact ⟨run, isRun, rfl, 0, fun k => by rw [Nat.zero_add]⟩
  | @head a b step _ ih =>
    obtain ⟨run', isRun', rfl, n, ends⟩ := ih
    refine ⟨fun k => k.casesOn a run', fun k => ?_, rfl, n + 1, fun k => ?_⟩
    · cases k with
      | zero => exact .inr step
      | succ k => exact isRun' k
    · rw [Nat.succ_add]
      exact ends k

lemma exists_run {c c' : Config ι σ τ} (reaches : p.Reaches c c') :
    ∃ run, p.Run run ∧ run 0 = c ∧ ∃ n, ∀ m ≥ n, run m = c' := by
  have stays : p.Run fun _ => c' := fun _ => .inl rfl
  obtain ⟨run, isRun, start, n, ends⟩ := stays.prepend reaches
  refine ⟨run, isRun, start, n, fun m ge => ?_⟩
  obtain ⟨k, rfl⟩ := Nat.exists_eq_add_of_le ge
  exact ends k

lemma fair_of_stuck {c : Config ι σ τ} (stuck : ∀ t, ¬p.CanStep c t) {n : ℕ} (ends : ∀ m ≥ n, run m = c) :
    p.Fair run := by
  intro t k can
  exact absurd (ends (n + k) (Nat.le_add_right n k) ▸ can (n + k) (Nat.le_add_left k n)) (stuck t)

/-- A run that ends where every thread can go round is strongly fair. -/
lemma strongFair_of_loop {c : Config ι σ τ} (loop : ∀ t, p.Step c t c) {n : ℕ} (ends : ∀ m ≥ n, run m = c) :
    p.StrongFair run := by
  intro t k _
  refine ⟨n + k, Nat.le_add_left k n, ?_⟩
  rw [ends (n + k) (Nat.le_add_right n k), ends (n + k + 1) (Nat.le_succ_of_le (Nat.le_add_right n k))]
  exact loop t

end Runs

end Program

end Macify.Lib
