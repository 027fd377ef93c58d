import Mathlib.Tactic

/-!
# A routine that runs once

What is expected of one-time initialisation. Threads make calls that are to run a routine, unless it has
run. The history of the calls is a list of events. It is `Orderly` if the routine has not run twice and no
call has returned before the routine has finished, and it `Completes` if the routine runs and every call
returns.
-/

namespace Macify.Lib

variable {ι : Type*}

inductive OnceEvent (ι : Type*)
  | started (t : ι)
  | finished (t : ι)
  | returned (t : ι)
  deriving DecidableEq

namespace OnceEvent

def isStarted : OnceEvent ι → Bool
  | started _ => true
  | finished _ => false
  | returned _ => false

def isFinished : OnceEvent ι → Bool
  | started _ => false
  | finished _ => true
  | returned _ => false

def isReturnOf [DecidableEq ι] (t : ι) : OnceEvent ι → Bool
  | started _ => false
  | finished _ => false
  | returned u => u = t

end OnceEvent

open OnceEvent

structure Orderly (trace : List (OnceEvent ι)) : Prop where
  starts : trace.countP isStarted ≤ 1
  finishes : trace.countP isFinished ≤ 1
  waits : ∀ before t after, trace = before ++ returned t :: after → ∃ u, finished u ∈ before

structure Completes [DecidableEq ι] (trace : ℕ → List (OnceEvent ι)) (calls : ι → ℕ) : Prop where
  runs : (∃ t, 0 < calls t) →
    ∃ n, ∀ m ≥ n, (trace m).countP isStarted = 1 ∧ (trace m).countP isFinished = 1
  returns : ∀ t, ∃ n, ∀ m ≥ n, (trace m).countP (isReturnOf t) = calls t

/-- Nobody has begun, a thread runs the routine, it has finished, it has said so. The last lists the calls that
    have returned. -/
inductive OnceStage (ι : Type*)
  | fresh
  | running (o : ι)
  | finishing (o : ι)
  | done (o : ι) (rs : List ι)

namespace OnceStage

def trace : OnceStage ι → List (OnceEvent ι)
  | fresh => []
  | running o => [started o]
  | finishing o => [started o, finished o]
  | done o rs => started o :: finished o :: rs.map returned

def owner : OnceStage ι → Option ι
  | fresh => none
  | running o => some o
  | finishing o => some o
  | done _ _ => none

def returns : OnceStage ι → List ι
  | fresh => []
  | running _ => []
  | finishing _ => []
  | done _ rs => rs

variable {rs : List ι} {o : ι}

lemma countP_returned {p : OnceEvent ι → Bool} (never : ∀ t, p (returned t) = false) :
    (rs.map returned).countP p = 0 := by
  rw [List.countP_map, List.countP_eq_zero]
  intro t _
  rw [Function.comp_apply, never]
  exact Bool.false_ne_true

lemma countP_isStarted : (done o rs).trace.countP isStarted = 1 := by
  rw [trace, List.countP_cons_of_pos rfl, List.countP_cons_of_neg (by rw [isStarted]; decide),
    countP_returned fun _ => rfl]

lemma countP_isFinished : (done o rs).trace.countP isFinished = 1 := by
  rw [trace, List.countP_cons_of_neg (by rw [isFinished]; decide), List.countP_cons_of_pos rfl,
    countP_returned fun _ => rfl]

lemma countP_isReturnOf [DecidableEq ι] {t : ι} (g : OnceStage ι) :
    g.trace.countP (isReturnOf t) = g.returns.count t := by
  cases g with
  | fresh | running o | finishing o => rfl
  | done o rs =>
    rw [trace, List.countP_cons_of_neg (by rw [isReturnOf]; decide),
      List.countP_cons_of_neg (by rw [isReturnOf]; decide), List.countP_map, returns, List.count]
    rfl

lemma trace_append (t : ι) : (done o rs).trace ++ [returned t] = (done o (rs ++ [t])).trace := by
  rw [trace, trace, List.map_append]
  rfl

lemma orderly (g : OnceStage ι) : Orderly g.trace := by
  cases g with
  | fresh => exact ⟨Nat.zero_le _, Nat.zero_le _, fun before t after eq => by simp [trace] at eq⟩
  | running o =>
    refine ⟨le_refl _, Nat.zero_le _, fun before t after eq => ?_⟩
    rcases List.singleton_eq_append_iff.mp eq with ⟨-, same⟩ | ⟨-, nothing⟩
    · cases same
    · cases nothing
  | finishing o =>
    refine ⟨le_refl _, le_refl _, fun before t after eq => ?_⟩
    have mem : returned t ∈ (finishing o).trace := eq ▸ List.mem_append_right _ List.mem_cons_self
    simp [trace] at mem
  | done o rs =>
    refine ⟨countP_isStarted.le, countP_isFinished.le, fun before t after eq => ⟨o, ?_⟩⟩
    -- The first two events are no returns, so both are before one.
    rcases before with _ | ⟨first, _ | ⟨second, before⟩⟩
    · cases (List.cons.inj eq).1
    · cases (List.cons.inj (List.cons.inj eq).2).1
    · rw [← (List.cons.inj (List.cons.inj eq).2).1]
      exact List.mem_cons_of_mem _ List.mem_cons_self

end OnceStage

end Macify.Lib
