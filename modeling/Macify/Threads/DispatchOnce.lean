import Macify.Lib.Interleaving
import Macify.Lib.OneTime

/-!
# dispatch_once

`dispatch_once` (`shim/misc/objc_compat.c`) looks at its predicate and sets it under a mutex, and calls the block
after it has released the mutex. A call that comes while the block runs finds the predicate set and returns. Main
result: `dispatch_once_right_iff`.
-/

namespace Macify.Threads
open Lib

/-- A step of a block: something that has nothing to do with the predicate, or a call of `dispatch_once` for the same
    predicate. -/
inductive BlockStep where
  | work
  | call
  deriving DecidableEq

inductive DispatchPc where
  | out
  | lock
  | test
  | set
  | unlock
  | skip
  | leave

/-- `blocks` is what is left of the blocks that the thread is in, `left` counts the calls that it has yet to make
    outside of blocks. -/
structure DispatchThread where
  pc : DispatchPc
  blocks : List (List BlockStep)
  left : ℕ

structure DispatchShared (ι : Type*) where
  predicate : BitVec 64
  onceLock : Option ι
  trace : List (OnceEvent ι)

def DispatchShared.log {ι : Type*} (s : DispatchShared ι) (e : OnceEvent ι) : DispatchShared ι :=
  { s with trace := s.trace ++ [e] }

inductive dispatchOnce {ι : Type*} (block : ι → List BlockStep) (t : ι) :
    DispatchShared ι → DispatchThread → DispatchShared ι → DispatchThread → Prop
  | call {s n} :
    dispatchOnce block t s ⟨.out, [], n + 1⟩ s ⟨.lock, [], n⟩
  | work {s k bs n} :
    dispatchOnce block t s ⟨.out, (.work :: k) :: bs, n⟩ s ⟨.out, k :: bs, n⟩
  | callAgain {s k bs n} :
    dispatchOnce block t s ⟨.out, (.call :: k) :: bs, n⟩ s ⟨.lock, k :: bs, n⟩
  | lock {s bs n} :
    s.onceLock = none →
    dispatchOnce block t s ⟨.lock, bs, n⟩ { s with onceLock := some t } ⟨.test, bs, n⟩
  | unset {s bs n} :
    s.predicate = 0 →
    dispatchOnce block t s ⟨.test, bs, n⟩ s ⟨.set, bs, n⟩
  | isSet {s bs n} :
    s.predicate ≠ 0 →
    dispatchOnce block t s ⟨.test, bs, n⟩ s ⟨.skip, bs, n⟩
  | set {s bs n} :
    dispatchOnce block t s ⟨.set, bs, n⟩ { s with predicate := 1 } ⟨.unlock, bs, n⟩
  | unlock {s bs n} :
    dispatchOnce block t s ⟨.unlock, bs, n⟩
      (DispatchShared.log { s with onceLock := none } (.started t)) ⟨.out, block t :: bs, n⟩
  | finish {s bs n} :
    dispatchOnce block t s ⟨.out, [] :: bs, n⟩ (s.log (.finished t)) ⟨.leave, bs, n⟩
  | leave {s bs n} :
    dispatchOnce block t s ⟨.leave, bs, n⟩ (s.log (.returned t)) ⟨.out, bs, n⟩
  | skip {s bs n} :
    dispatchOnce block t s ⟨.skip, bs, n⟩
      (DispatchShared.log { s with onceLock := none } (.returned t)) ⟨.out, bs, n⟩

def dispatchStart {ι : Type*} (calls : ι → ℕ) : Config ι (DispatchShared ι) DispatchThread :=
  ⟨⟨0, none, []⟩, fun t => ⟨.out, [], calls t⟩⟩

def DispatchOnceRight {ι : Type*} [DecidableEq ι] (block : ι → List BlockStep) (calls : ι → ℕ) : Prop :=
  ∀ run, Program.Run (dispatchOnce block) run → run 0 = dispatchStart calls →
    (∀ n, Orderly (run n).shared.trace) ∧
      (Program.Fair (dispatchOnce block) run → Completes (fun n => (run n).shared.trace) calls)

lemma not_orderly_of_early {ι : Type*} {t u : ι} {trace : List (OnceEvent ι)}
    (early : trace = [.started t, .returned u]) : ¬Orderly trace := by
  intro orderly
  obtain ⟨o, mem⟩ := orderly.waits [.started t] u [] early
  cases List.mem_singleton.mp mem

lemma start_call {ι : Type*} {block : ι → List BlockStep} {calls : ι → ℕ} {t : ι} {n : ℕ} {s : DispatchShared ι}
    (more : calls t = n + 1) :
    dispatchOnce block t s ((dispatchStart calls).thread t) s ⟨.lock, [], n⟩ := by
  have here : (dispatchStart calls).thread t = ⟨.out, [], n + 1⟩ := congrArg _ more
  rw [here]
  exact .call

section Early

variable {ι : Type*} [DecidableEq ι] {block : ι → List BlockStep} {calls : ι → ℕ} {t u : ι}
  {c c' : Config ι (DispatchShared ι) DispatchThread} {bs : List (List BlockStep)} {n : ℕ}

lemma enters_block (block : ι → List BlockStep) (more : calls t = n + 1) :
    Program.Reaches (dispatchOnce block) (dispatchStart calls)
      ((dispatchStart calls).put t ⟨1, none, [.started t]⟩ ⟨.out, [block t], n⟩) := by
  have called := Program.Reaches.step (p := dispatchOnce block) .refl (start_call more)
  exact (((called.again (.lock rfl)).again (.unset rfl)).again .set).again .unlock

lemma returns_early {s : DispatchShared ι}
    (reaches : Program.Reaches (dispatchOnce block) c (c'.put t s ⟨.lock, bs, n⟩))
    (free : s.onceLock = none) (isSet : s.predicate = 1) :
    Program.Reaches (dispatchOnce block) c
      (c'.put t (DispatchShared.log { s with onceLock := none } (.returned t)) ⟨.out, bs, n⟩) :=
  ((reaches.again (.lock free)).again (.isSet (isSet.trans_ne (by decide)))).again .skip

lemma works_on {s : DispatchShared ι} {before after : List BlockStep} (own : .call ∉ before)
    (reaches : Program.Reaches (dispatchOnce block) c (c'.put t s ⟨.out, (before ++ after) :: bs, n⟩)) :
    Program.Reaches (dispatchOnce block) c (c'.put t s ⟨.out, after :: bs, n⟩) := by
  induction before with
  | nil => exact reaches
  | cons first before ih =>
    cases first with
    | work => exact ih (List.not_mem_of_not_mem_cons own) (reaches.again .work)
    | call => exact absurd List.mem_cons_self own

lemma other_returns_early (ne : u ≠ t) (some : 0 < calls t) (some' : 0 < calls u) :
    ∃ c, Program.Reaches (dispatchOnce block) (dispatchStart calls) c ∧
      c.shared.trace = [.started t, .returned u] := by
  obtain ⟨k, more⟩ := Nat.exists_eq_succ_of_ne_zero some.ne'
  obtain ⟨m, more'⟩ := Nat.exists_eq_succ_of_ne_zero some'.ne'
  have inside := enters_block block more
  have calling := inside.turn ne (start_call more')
  exact ⟨_, returns_early calling rfl rfl, rfl⟩

lemma block_returns_early (some : 0 < calls t) (again : .call ∈ block t) :
    ∃ c, Program.Reaches (dispatchOnce block) (dispatchStart calls) c ∧
      c.shared.trace = [.started t, .returned t] := by
  obtain ⟨k, more⟩ := Nat.exists_eq_succ_of_ne_zero some.ne'
  obtain ⟨before, after, split, own⟩ := List.eq_append_cons_of_mem again
  have inside := enters_block block more
  rw [split] at inside
  have calling := (works_on own inside).again .callAgain
  exact ⟨_, returns_early calling rfl rfl, rfl⟩

lemma not_right_of_early (early : ∃ c, Program.Reaches (dispatchOnce block) (dispatchStart calls) c ∧
      c.shared.trace = [.started t, .returned u]) : ¬DispatchOnceRight block calls := by
  intro right
  obtain ⟨c, reaches, trace⟩ := early
  obtain ⟨run, isRun, start, n, ends⟩ := Program.exists_run reaches
  have orderly := (right run isRun start).1 n
  rw [ends n (le_refl n)] at orderly
  exact not_orderly_of_early trace orderly

end Early

/-- Where the only caller is, with `total` calls to make in all. -/
inductive DispatchAt {ι : Type*} (t : ι) (total : ℕ) : DispatchShared ι → DispatchThread → Prop
  | start :
    DispatchAt t total ⟨0, none, []⟩ ⟨.out, [], total⟩
  | lock {n} :
    n + 1 = total →
    DispatchAt t total ⟨0, none, []⟩ ⟨.lock, [], n⟩
  | test {n} :
    n + 1 = total →
    DispatchAt t total ⟨0, some t, []⟩ ⟨.test, [], n⟩
  | set {n} :
    n + 1 = total →
    DispatchAt t total ⟨0, some t, []⟩ ⟨.set, [], n⟩
  | unlock {n} :
    n + 1 = total →
    DispatchAt t total ⟨1, some t, []⟩ ⟨.unlock, [], n⟩
  | block {k n} :
    .call ∉ k →
    n + 1 = total →
    DispatchAt t total ⟨1, none, (OnceStage.running t).trace⟩ ⟨.out, [k], n⟩
  | leave {n} :
    n + 1 = total →
    DispatchAt t total ⟨1, none, (OnceStage.finishing t).trace⟩ ⟨.leave, [], n⟩
  | out {m n} :
    m + n = total →
    DispatchAt t total ⟨1, none, (OnceStage.done t (.replicate m t)).trace⟩ ⟨.out, [], n⟩
  | lockAgain {m n} :
    m + n + 1 = total →
    DispatchAt t total ⟨1, none, (OnceStage.done t (.replicate m t)).trace⟩ ⟨.lock, [], n⟩
  | testAgain {m n} :
    m + n + 1 = total →
    DispatchAt t total ⟨1, some t, (OnceStage.done t (.replicate m t)).trace⟩ ⟨.test, [], n⟩
  | skip {m n} :
    m + n + 1 = total →
    DispatchAt t total ⟨1, some t, (OnceStage.done t (.replicate m t)).trace⟩ ⟨.skip, [], n⟩

section Alone

variable {ι : Type*} {block : ι → List BlockStep} {t u : ι} {total : ℕ} {s s' : DispatchShared ι}
  {l l' : DispatchThread}

section

variable (place : DispatchAt t total s l)
include place

lemma DispatchAt.stage :
    ∃ g : OnceStage ι, s.trace = g.trace ∧ ∀ u ∈ g.returns, u = t := by
  cases place with
  | start | lock _ | test _ | set _ | unlock _ => exact ⟨.fresh, rfl, nofun⟩
  | block _ _ => exact ⟨.running t, rfl, nofun⟩
  | leave _ => exact ⟨.finishing t, rfl, nofun⟩
  | out _ | lockAgain _ | testAgain _ | skip _ => exact ⟨.done t _, rfl, fun _ => List.eq_of_mem_replicate⟩

lemma DispatchAt.orderly : Orderly s.trace := by
  obtain ⟨g, trace, -⟩ := place.stage
  rw [trace]
  exact g.orderly

lemma DispatchAt.others [DecidableEq ι] (ne : u ≠ t) : s.trace.countP (OnceEvent.isReturnOf u) = 0 := by
  obtain ⟨g, trace, only⟩ := place.stage
  rw [trace, OnceStage.countP_isReturnOf, List.count_eq_zero]
  exact fun mem => ne (only u mem)

lemma DispatchAt.step (own : .call ∉ block t) (step : dispatchOnce block t s l s' l') : DispatchAt t total s' l' := by
  cases place with
  | start =>
    cases step with
    | call => exact .lock rfl
  | lock count =>
    cases step with
    | lock _ => exact .test count
  | test count =>
    cases step with
    | unset _ => exact .set count
    | isSet isSet => exact absurd rfl isSet
  | set count =>
    cases step with
    | set => exact .unlock count
  | unlock count =>
    cases step with
    | unlock => exact .block own count
  | block none count =>
    cases step with
    | work => exact .block (List.not_mem_of_not_mem_cons none) count
    | callAgain => exact absurd List.mem_cons_self none
    | finish => exact .leave count
  | leave count =>
    cases step with
    | leave => exact @DispatchAt.out _ t total 1 _ ((Nat.add_comm 1 _).trans count)
  | out count =>
    cases step with
    | call => exact .lockAgain count
  | lockAgain count =>
    cases step with
    | lock _ => exact .testAgain count
  | testAgain count =>
    cases step with
    | unset unset => exact absurd unset (show (1 : BitVec 64) ≠ 0 by decide)
    | isSet _ => exact .skip count
  | skip count =>
    cases step with
    | skip =>
      rw [DispatchShared.log, OnceStage.trace_append, ← List.replicate_succ']
      exact .out ((Nat.add_right_comm ..).trans count)

lemma DispatchAt.canStep (busy : l ≠ ⟨.out, [], 0⟩) : ∃ s' l', dispatchOnce block t s l s' l' := by
  cases place with
  | start =>
    cases total with
    | zero => exact absurd rfl busy
    | succ n => exact ⟨_, _, .call⟩
  | lock _ => exact ⟨_, _, .lock rfl⟩
  | test _ => exact ⟨_, _, .unset rfl⟩
  | set _ => exact ⟨_, _, .set⟩
  | unlock _ => exact ⟨_, _, .unlock⟩
  | @block k _ none _ =>
    cases k with
    | nil => exact ⟨_, _, .finish⟩
    | cons first k =>
      cases first with
      | work => exact ⟨_, _, .work⟩
      | call => exact absurd List.mem_cons_self none
  | leave _ => exact ⟨_, _, .leave⟩
  | @out _ n _ =>
    cases n with
    | zero => exact absurd rfl busy
    | succ n => exact ⟨_, _, .call⟩
  | lockAgain _ => exact ⟨_, _, .lock rfl⟩
  | testAgain _ => exact ⟨_, _, .isSet (show (1 : BitVec 64) ≠ 0 by decide)⟩
  | skip _ => exact ⟨_, _, .skip⟩

def dispatchRank (size : ℕ) (l : DispatchThread) : ℕ :=
  l.left * (size + 10) + (l.blocks.map fun k => k.length + 3).sum + match l.pc with
  | .out => 0
  | .lock => size + 7
  | .test => size + 6
  | .set => size + 5
  | .unlock => size + 4
  | .skip => 1
  | .leave => 1

lemma dispatchRank_lt (step : dispatchOnce block t s l s' l') :
    dispatchRank (block t).length l' < dispatchRank (block t).length l := by
  cases step with
  | call =>
    dsimp only [dispatchRank]
    rw [Nat.succ_mul]
    omega
  | work => simp [dispatchRank]
  | callAgain =>
    cases place with
    | block none _ => exact absurd List.mem_cons_self none
  | lock _ | unset _ | isSet _ | set => simp [dispatchRank]
  | unlock =>
    simp only [dispatchRank, List.map_cons, List.sum_cons]
    omega
  | finish =>
    simp only [dispatchRank, List.map_cons, List.sum_cons, List.length_nil]
    omega
  | leave | skip => simp [dispatchRank]

end

lemma DispatchAt.complete [DecidableEq ι] (place : DispatchAt t total s ⟨.out, [], 0⟩) (some : 0 < total) :
    (s.trace.countP OnceEvent.isStarted = 1 ∧ s.trace.countP OnceEvent.isFinished = 1) ∧
      s.trace.countP (OnceEvent.isReturnOf t) = total := by
  generalize none : (⟨.out, [], 0⟩ : DispatchThread) = l at place
  cases place with
  | start =>
    cases none
    exact absurd some (lt_irrefl 0)
  | out count =>
    cases none
    refine ⟨⟨OnceStage.countP_isStarted, OnceStage.countP_isFinished⟩, ?_⟩
    rw [OnceStage.countP_isReturnOf, OnceStage.returns, List.count_replicate_self]
    exact count
  | lock _ | test _ | set _ | unlock _ | block _ _ | leave _ | lockAgain _ | testAgain _ | skip _ => cases none

end Alone

/-- No call has returned early, and none of a thread that makes no calls. The stage is the common state. -/
structure DispatchRight {ι : Type*} [DecidableEq ι] (calls : ι → ℕ) (g s : DispatchShared ι) : Prop where
  same : s = g
  orderly : Orderly s.trace
  others : ∀ u, calls u = 0 → s.trace.countP (OnceEvent.isReturnOf u) = 0

structure DispatchThreadOk {ι : Type*} (calls : ι → ℕ) (g : DispatchShared ι) (t : ι) (l : DispatchThread) : Prop where
  caller : 0 < calls t → DispatchAt t (calls t) g l
  other : calls t = 0 → l = ⟨.out, [], 0⟩

/-- One thread makes all calls that there are. -/
structure OneCaller {ι : Type*} (block : ι → List BlockStep) (calls : ι → ℕ) : Prop where
  single : ∀ t u, 0 < calls t → 0 < calls u → t = u
  plain : ∀ t, 0 < calls t → .call ∉ block t

section Runs

variable {ι : Type*} [DecidableEq ι] {block : ι → List BlockStep} {calls : ι → ℕ} {t u : ι}
  {run : ℕ → Config ι (DispatchShared ι) DispatchThread} {c c' : Config ι (DispatchShared ι) DispatchThread}

lemma dispatch_keeps (one : OneCaller block calls) :
    Program.Keeps (dispatchOnce block) (DispatchRight calls) (DispatchThreadOk calls) fun t _ _ => 0 < calls t where
  own := by
    intro g t s l s' l' right ok step
    obtain rfl := right.same
    have some : 0 < calls t := by
      by_contra none
      rw [ok.other (Nat.eq_zero_of_not_pos none)] at step
      cases step
    have place := (ok.caller some).step (one.plain t some) step
    refine ⟨s', some, ⟨rfl, place.orderly, fun u none => place.others ?_⟩, fun _ => place, fun none => ?_⟩
    · rintro rfl
      exact some.ne' none
    · exact absurd none some.ne'
  other := by
    intro g g' t u l some ne ok
    exact ⟨fun some' => absurd (one.single u t some' some) ne, ok.other⟩

abbrev DispatchHolds (calls : ι → ℕ) (c : Config ι (DispatchShared ι) DispatchThread) : Prop :=
  Program.Holds (DispatchRight calls) (DispatchThreadOk calls) c.shared c

lemma dispatchStart_holds : DispatchHolds calls (dispatchStart calls) where
  shared := ⟨rfl, OnceStage.fresh.orderly, fun _ _ => rfl⟩
  thread _ := ⟨fun _ => .start, fun none => congrArg _ none⟩

lemma DispatchHolds.step (one : OneCaller block calls) (holds : DispatchHolds calls c)
    (step : Program.Step (dispatchOnce block) c t c') : DispatchHolds calls c' := by
  obtain ⟨g', -, after⟩ := (dispatch_keeps one).step holds step
  obtain rfl := after.shared.same
  exact after

lemma dispatch_holds (one : OneCaller block calls) (isRun : Program.Run (dispatchOnce block) run)
    (start : run 0 = dispatchStart calls) (n : ℕ) : DispatchHolds calls (run n) :=
  isRun.stable (fun _ _ => .step one) (Nat.zero_le n) (start ▸ dispatchStart_holds)

lemma idle_stays (idle : c.thread t = ⟨.out, [], 0⟩) (step : Program.Step (dispatchOnce block) c u c') :
    c'.thread t = ⟨.out, [], 0⟩ := by
  by_cases eq : t = u
  · subst eq
    have moves := step.own
    rw [idle] at moves
    cases moves
  · rw [step.other eq]
    exact idle

lemma dispatch_over (one : OneCaller block calls) (isRun : Program.Run (dispatchOnce block) run)
    (start : run 0 = dispatchStart calls) (fair : Program.Fair (dispatchOnce block) run) (some : 0 < calls t) :
    ∃ n, ∀ m ≥ n, (run m).thread t = ⟨.out, [], 0⟩ := by
  have place n := ((dispatch_holds one isRun start n).thread t).caller some
  have ends : LeadsTo run (fun c => c.thread t ≠ ⟨.out, [], 0⟩) fun c => c.thread t = ⟨.out, [], 0⟩ := by
    refine isRun.progress fair t (dispatchRank (block t).length) ?_ ?_ ?_
    · intro n busy
      obtain ⟨s', l', moves⟩ : ∃ s' l', dispatchOnce block t _ _ s' l' := (place n).canStep busy
      exact Program.canStep_of moves
    · intro n _ step
      have lower := dispatchRank_lt (place n) step.own
      exact (em _).imp id fun busy => ⟨busy, lower⟩
    · intro n u ne busy step
      refine .inl ?_
      rw [step.other ne.symm]
      exact busy
  have reached : ∃ n, (run n).thread t = ⟨.out, [], 0⟩ := by
    by_cases idle : (run 0).thread t = ⟨.out, [], 0⟩
    · exact ⟨0, idle⟩
    · obtain ⟨n, -, idle⟩ := ends 0 idle
      exact ⟨n, idle⟩
  obtain ⟨n, idle⟩ := reached
  exact ⟨n, fun m ge => isRun.stable (A := fun c => c.thread t = _) (fun _ _ => idle_stays) ge idle⟩

lemma dispatch_completes (one : OneCaller block calls) (isRun : Program.Run (dispatchOnce block) run)
    (start : run 0 = dispatchStart calls) (fair : Program.Fair (dispatchOnce block) run) :
    Completes (fun n => (run n).shared.trace) calls := by
  have holds := dispatch_holds one isRun start
  have final : ∀ t, 0 < calls t → ∃ n, ∀ m ≥ n,
      DispatchAt t (calls t) (run m).shared ⟨.out, [], 0⟩ := by
    intro t some
    obtain ⟨n, idle⟩ := dispatch_over one isRun start fair some
    exact ⟨n, fun m ge => idle m ge ▸ ((holds m).thread t).caller some⟩
  constructor
  case runs =>
    rintro ⟨t, some⟩
    obtain ⟨n, place⟩ := final t some
    exact ⟨n, fun m ge => ((place m ge).complete some).1⟩
  case returns =>
    intro t
    rcases Nat.eq_zero_or_pos (calls t) with none | some
    · exact ⟨0, fun m _ => ((holds m).shared.others t none).trans none.symm⟩
    · obtain ⟨n, place⟩ := final t some
      exact ⟨n, fun m ge => ((place m ge).complete some).2⟩

/-- Callers can rely on `dispatch_once` if, and only if, one thread makes all calls and its block makes none. -/
theorem dispatch_once_right_iff :
    DispatchOnceRight block calls ↔
      (∀ t u, 0 < calls t → 0 < calls u → t = u) ∧ ∀ t, 0 < calls t → BlockStep.call ∉ block t := by
  constructor
  · intro right
    constructor
    · intro t u some some'
      by_contra ne
      exact not_right_of_early (other_returns_early (Ne.symm ne) some some') right
    · intro t some again
      exact not_right_of_early (block_returns_early some again) right
  · rintro ⟨single, plain⟩ run isRun start
    have one : OneCaller block calls := ⟨single, plain⟩
    exact ⟨fun n => (dispatch_holds one isRun start n).shared.orderly, dispatch_completes one isRun start⟩

/-- Two threads call; the second returns while the first is in the block. -/
theorem dispatch_once_returns_early : ¬DispatchOnceRight (fun _ : Fin 2 => [.work]) fun _ => 1 :=
  not_right_of_early (other_returns_early (show (1 : Fin 2) ≠ 0 by decide) Nat.one_pos Nat.one_pos)

end Runs

end Macify.Threads
