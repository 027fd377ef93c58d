import Macify.Lib.Bytes
import Macify.Lib.Interleaving
import Macify.Lib.OneTime

/-!
# pthread_once

`pthread_once` (`shim/pthread/tls.c`) with a control word of three states: a first value, of which there are two, 2
while a thread runs the routine, and 1. Main result: `pthread_once_runs_once`. What else the code does between the
routine and its last store is left out.
-/

namespace Macify.Threads
open Lib

abbrev MACOS_PTHREAD_ONCE_INIT : W64 := 0x30B1BCBA

/-- Where a thread is. At the compare-and-swap it has the value that it has loaded, and in the routine some
    of its steps to go. -/
inductive OncePc where
  | idle
  | load
  | cas (expected : W64)
  | routine (left : ℕ)
  | store
  | wait

structure OnceThread where
  pc : OncePc
  left : ℕ

structure OnceShared (ι : Type*) where
  control : W64
  trace : List (OnceEvent ι)

def OnceShared.log {ι : Type*} (s : OnceShared ι) (e : OnceEvent ι) : OnceShared ι :=
  { s with trace := s.trace ++ [e] }

inductive pthreadOnce {ι : Type*} (steps : ι → ℕ) (t : ι) :
    OnceShared ι → OnceThread → OnceShared ι → OnceThread → Prop
  | call {s n} :
    pthreadOnce steps t s ⟨.idle, n + 1⟩ s ⟨.load, n⟩
  | done {s n} :
    s.control = 1 →
    pthreadOnce steps t s ⟨.load, n⟩ (s.log (.returned t)) ⟨.idle, n⟩
  | free {s n} :
    s.control ≠ 1 →
    s.control = MACOS_PTHREAD_ONCE_INIT ∨ s.control = 0 →
    pthreadOnce steps t s ⟨.load, n⟩ s ⟨.cas s.control, n⟩
  | busy {s n} :
    s.control ≠ 1 →
    ¬(s.control = MACOS_PTHREAD_ONCE_INIT ∨ s.control = 0) →
    pthreadOnce steps t s ⟨.load, n⟩ s ⟨.wait, n⟩
  | claim {s n} :
    pthreadOnce steps t s ⟨.cas s.control, n⟩
      (OnceShared.log { s with control := 2 } (.started t)) ⟨.routine (steps t), n⟩
  | lost {s n expected} :
    s.control ≠ expected →
    pthreadOnce steps t s ⟨.cas expected, n⟩ s ⟨.wait, n⟩
  | work {s n k} :
    pthreadOnce steps t s ⟨.routine (k + 1), n⟩ s ⟨.routine k, n⟩
  | finish {s n} :
    pthreadOnce steps t s ⟨.routine 0, n⟩ (s.log (.finished t)) ⟨.store, n⟩
  | store {s n} :
    pthreadOnce steps t s ⟨.store, n⟩ (OnceShared.log { s with control := 1 } (.returned t)) ⟨.idle, n⟩
  | spin {s n} :
    s.control = 2 →
    pthreadOnce steps t s ⟨.wait, n⟩ s ⟨.wait, n⟩
  | again {s n} :
    s.control ≠ 2 →
    pthreadOnce steps t s ⟨.wait, n⟩ s ⟨.load, n⟩

lemma pthreadOnce_canStep {ι : Type*} {steps : ι → ℕ} {t : ι} {s : OnceShared ι} {l : OnceThread}
    (busy : l ≠ ⟨.idle, 0⟩) : ∃ s' l', pthreadOnce steps t s l s' l' := by
  obtain ⟨pc, left⟩ := l
  cases pc with
  | idle =>
    cases left with
    | zero => exact absurd rfl busy
    | succ left => exact ⟨_, _, .call⟩
  | load =>
    by_cases one : s.control = 1
    · exact ⟨_, _, .done one⟩
    · by_cases first : s.control = MACOS_PTHREAD_ONCE_INIT ∨ s.control = 0
      · exact ⟨_, _, .free one first⟩
      · exact ⟨_, _, .busy one first⟩
  | cas expected =>
    by_cases same : s.control = expected
    · subst same
      exact ⟨_, _, .claim⟩
    · exact ⟨_, _, .lost same⟩
  | routine k =>
    cases k with
    | zero => exact ⟨_, _, .finish⟩
    | succ k => exact ⟨_, _, .work⟩
  | store => exact ⟨_, _, .store⟩
  | wait =>
    by_cases two : s.control = 2
    · exact ⟨_, _, .spin two⟩
    · exact ⟨_, _, .again two⟩

def onceStart {ι : Type*} (control : W64) (calls : ι → ℕ) : Config ι (OnceShared ι) OnceThread :=
  ⟨⟨control, []⟩, fun t => ⟨.idle, calls t⟩⟩

def controlAt {ι : Type*} (v : W64) : OnceStage ι → W64
  | .fresh => v
  | .running _ => 2
  | .finishing _ => 2
  | .done _ _ => 1

inductive OnceAt {ι : Type*} (v : W64) (t : ι) : OnceStage ι → OncePc → Prop
  | idle {g} : g.owner ≠ some t → OnceAt v t g .idle
  | load {g} : g.owner ≠ some t → OnceAt v t g .load
  | cas {g} : g.owner ≠ some t → OnceAt v t g (.cas v)
  | wait {g} : g ≠ .fresh → g.owner ≠ some t → OnceAt v t g .wait
  | routine {k} : OnceAt v t (.running t) (.routine k)
  | store : OnceAt v t (.finishing t) .store

def OncePc.inCall : OncePc → ℕ
  | .idle => 0
  | _ => 1

structure OnceRight {ι : Type*} (v : W64) (g : OnceStage ι) (s : OnceShared ι) : Prop where
  control : s.control = controlAt v g
  trace : s.trace = g.trace

structure OnceThreadOk {ι : Type*} [DecidableEq ι] (v : W64) (calls : ι → ℕ) (g : OnceStage ι) (t : ι)
    (l : OnceThread) : Prop where
  place : OnceAt v t g l.pc
  count : g.returns.count t + l.left + l.pc.inCall = calls t

inductive OnceNext {ι : Type*} (t : ι) : OnceStage ι → OnceStage ι → Prop
  | same {g} : OnceNext t g g
  | claim : OnceNext t .fresh (.running t)
  | finish : OnceNext t (.running t) (.finishing t)
  | publish : OnceNext t (.finishing t) (.done t [t])
  | leave {o rs} : OnceNext t (.done o rs) (.done o (rs ++ [t]))

section Places

variable {ι : Type*} {v : W64} {g g' : OnceStage ι} {t u : ι} {pc : OncePc} {e : W64} {k : ℕ}

lemma OnceAt.moved (place : OnceAt v u g pc) (out : g.owner ≠ some u) (out' : g'.owner ≠ some u)
    (begun : g ≠ .fresh → g' ≠ .fresh) : OnceAt v u g' pc := by
  cases place with
  | idle _ => exact .idle out'
  | load _ => exact .load out'
  | cas _ => exact .cas out'
  | wait started _ => exact .wait (begun started) out'
  | routine | store => exact absurd rfl out

lemma OnceAt.other (place : OnceAt v u g pc) (ne : u ≠ t) (next : OnceNext t g g') : OnceAt v u g' pc := by
  have apart : some t ≠ some u := fun same => ne (Option.some.inj same).symm
  have free : (none : Option ι) ≠ some u := (Option.some_ne_none u).symm
  cases next with
  | same => exact place
  | claim => exact place.moved free apart nofun
  | finish => exact place.moved apart apart nofun
  | publish => exact place.moved apart free nofun
  | leave => exact place.moved free free nofun

lemma OnceAt.idle_inv (place : OnceAt v t g .idle) : g.owner ≠ some t := by
  cases place with
  | idle out => exact out

lemma OnceAt.load_inv (place : OnceAt v t g .load) : g.owner ≠ some t := by
  cases place with
  | load out => exact out

lemma OnceAt.cas_inv (place : OnceAt v t g (.cas e)) : e = v ∧ g.owner ≠ some t := by
  cases place with
  | cas out => exact ⟨rfl, out⟩

lemma OnceAt.routine_inv (place : OnceAt v t g (.routine k)) : g = .running t := by
  cases place with
  | routine => rfl

lemma OnceAt.store_inv (place : OnceAt v t g .store) : g = .finishing t := by
  cases place with
  | store => rfl

lemma OnceAt.wait_inv (place : OnceAt v t g .wait) : g.owner ≠ some t := by
  cases place with
  | wait _ out => exact out

def IsOnceInit (v : W64) : Prop := v = MACOS_PTHREAD_ONCE_INIT ∨ v = 0

lemma IsOnceInit.ne_one (init : IsOnceInit v) : v ≠ 1 := by
  rcases init with rfl | rfl <;> decide

lemma IsOnceInit.ne_two (init : IsOnceInit v) : v ≠ 2 := by
  rcases init with rfl | rfl <;> decide

lemma stage_of_one (init : IsOnceInit v) (one : controlAt v g = 1) : ∃ o rs, g = .done o rs := by
  cases g with
  | fresh => exact absurd one init.ne_one
  | running o | finishing o => exact absurd one (show (2 : W64) ≠ 1 by decide)
  | done o rs => exact ⟨o, rs, rfl⟩

lemma stage_of_init (init : IsOnceInit v) (first : controlAt v g = v) : g = .fresh := by
  cases g with
  | fresh => rfl
  | running o | finishing o => exact absurd first.symm init.ne_two
  | done o rs => exact absurd first.symm init.ne_one

lemma stage_ne_fresh (init : IsOnceInit v) (other : ¬IsOnceInit (controlAt v g)) : g ≠ .fresh := by
  rintro rfl
  exact other init

lemma controlAt_of_init (first : IsOnceInit (controlAt v g)) : controlAt v g = v := by
  cases g with
  | fresh => rfl
  | running o | finishing o => exact absurd rfl first.ne_two
  | done o rs => exact absurd rfl first.ne_one

lemma OnceNext.owner (next : OnceNext t g g') (ne : u ≠ t) (own : g.owner = some u) : g'.owner = some u := by
  cases next with
  | same => exact own
  | claim => exact absurd own nofun
  | finish | publish => exact absurd (Option.some.inj own).symm ne
  | leave => exact own

lemma OnceNext.done {rs : List ι} (next : OnceNext t (.done u rs) g') : ∃ rs', g' = .done u rs' := by
  cases next with
  | same => exact ⟨rs, rfl⟩
  | leave => exact ⟨_, rfl⟩

end Places

section Invariant

variable {ι : Type*} [DecidableEq ι] {v : W64} {calls steps : ι → ℕ} {g g' : OnceStage ι} {t u : ι}
  {l l' : OnceThread} {s s' : OnceShared ι}

lemma OnceThreadOk.other (ok : OnceThreadOk v calls g u l) (ne : u ≠ t) (next : OnceNext t g g') :
    OnceThreadOk v calls g' u l where
  place := ok.place.other ne next
  count := by
    have count := ok.count
    have none : [t].count u = 0 := by rw [List.count_singleton, if_neg (by rw [beq_iff_eq]; exact ne.symm)]
    cases next with
    | same | claim | finish => exact count
    | publish =>
      rw [OnceStage.returns, none]
      exact count
    | leave =>
      rw [OnceStage.returns, List.count_append, none]
      exact count

lemma pthreadOnce_next (init : IsOnceInit v) (right : OnceRight v g s) (ok : OnceThreadOk v calls g t l)
    (step : pthreadOnce steps t s l s' l') :
    ∃ g', OnceNext t g g' ∧ OnceRight v g' s' ∧ OnceThreadOk v calls g' t l' := by
  obtain ⟨control, trace⟩ := right
  obtain ⟨place, count⟩ := ok
  cases step with
  | call =>
    exact ⟨g, .same, ⟨control, trace⟩, .load place.idle_inv, count⟩
  | done one =>
    obtain ⟨o, rs, rfl⟩ := stage_of_one init (control.symm.trans one)
    refine ⟨.done o (rs ++ [t]), .leave, ⟨control, ?_⟩, .idle (Option.some_ne_none t).symm, ?_⟩
    · rw [OnceShared.log, trace]
      exact OnceStage.trace_append t
    · rw [OnceStage.returns, List.count_append, List.count_singleton_self, ← count, OncePc.inCall]
      dsimp only [OnceStage.returns, OncePc.inCall]
      omega
  | free _ first =>
    rw [control] at first ⊢
    rw [controlAt_of_init first]
    exact ⟨g, .same, ⟨control, trace⟩, .cas place.load_inv, count⟩
  | busy _ other =>
    rw [control] at other
    exact ⟨g, .same, ⟨control, trace⟩, .wait (stage_ne_fresh init other) place.load_inv, count⟩
  | claim =>
    obtain ⟨first, -⟩ := place.cas_inv
    obtain rfl := stage_of_init init (control.symm.trans first)
    exact ⟨.running t, .claim, ⟨rfl, by rw [OnceShared.log, trace]; rfl⟩, .routine, count⟩
  | lost other =>
    obtain ⟨rfl, out⟩ := place.cas_inv
    refine ⟨g, .same, ⟨control, trace⟩, .wait ?_ out, count⟩
    rintro rfl
    exact other control
  | work =>
    obtain rfl := place.routine_inv
    exact ⟨_, .same, ⟨control, trace⟩, .routine, count⟩
  | finish =>
    obtain rfl := place.routine_inv
    exact ⟨.finishing t, .finish, ⟨control, by rw [OnceShared.log, trace]; rfl⟩, .store, count⟩
  | store =>
    obtain rfl := place.store_inv
    refine ⟨.done t [t], .publish, ⟨rfl, by rw [OnceShared.log, trace]; rfl⟩, .idle (Option.some_ne_none t).symm, ?_⟩
    rw [OnceStage.returns, List.count_singleton_self, ← count]
    dsimp only [OnceStage.returns, OncePc.inCall, List.count_nil]
    omega
  | spin _ => exact ⟨g, .same, ⟨control, trace⟩, place, count⟩
  | again _ => exact ⟨g, .same, ⟨control, trace⟩, .load place.wait_inv, count⟩

lemma once_keeps (init : IsOnceInit v) :
    Program.Keeps (pthreadOnce steps) (OnceRight v) (OnceThreadOk v calls) OnceNext where
  own := pthreadOnce_next init
  other next ne ok := ok.other ne next

abbrev OnceHolds (v : W64) (calls : ι → ℕ) (g : OnceStage ι) (c : Config ι (OnceShared ι) OnceThread) : Prop :=
  Program.Holds (OnceRight v) (OnceThreadOk v calls) g c

lemma onceStart_holds : OnceHolds v calls .fresh (onceStart v calls) where
  shared := ⟨rfl, rfl⟩
  thread _ := ⟨.idle nofun, (Nat.add_zero _).trans (Nat.zero_add _)⟩

end Invariant

section Runs

variable {ι : Type*} [DecidableEq ι] {v : W64} {calls steps : ι → ℕ} {g g' : OnceStage ι} {t o : ι}
  {run : ℕ → Config ι (OnceShared ι) OnceThread} {n : ℕ} {l l' : OnceThread} {s s' : OnceShared ι}

def OnceFresh (v : W64) (calls : ι → ℕ) (c : Config ι (OnceShared ι) OnceThread) : Prop :=
  OnceHolds v calls .fresh c

def OnceOwned (v : W64) (calls : ι → ℕ) (o : ι) (c : Config ι (OnceShared ι) OnceThread) : Prop :=
  ∃ g, g.owner = some o ∧ OnceHolds v calls g c

def OnceDone (v : W64) (calls : ι → ℕ) (c : Config ι (OnceShared ι) OnceThread) : Prop :=
  ∃ o rs, OnceHolds v calls (.done o rs) c

lemma once_situation {c : Config ι (OnceShared ι) OnceThread} (holds : OnceHolds v calls g c) :
    OnceFresh v calls c ∨ (∃ o, OnceOwned v calls o c) ∨ OnceDone v calls c := by
  cases g with
  | fresh => exact .inl holds
  | running o | finishing o => exact .inr (.inl ⟨o, _, rfl, holds⟩)
  | done o rs => exact .inr (.inr ⟨o, rs, holds⟩)

lemma once_canStep {c : Config ι (OnceShared ι) OnceThread} (busy : c.thread t ≠ ⟨.idle, 0⟩) :
    Program.CanStep (pthreadOnce steps) c t := by
  obtain ⟨s', l', moves⟩ : ∃ s' l', pthreadOnce steps t c.shared (c.thread t) s' l' := pthreadOnce_canStep busy
  exact Program.canStep_of moves

def claimRank (l : OnceThread) : ℕ :=
  match l.pc with
  | .idle => 2
  | .load => 1
  | .cas _ => 0
  | .routine _ => 0
  | .store => 0
  | .wait => 0

lemma claimRank_lt (init : IsOnceInit v) (right : OnceRight v .fresh s) (ok : OnceThreadOk v calls .fresh t l)
    (right' : OnceRight v .fresh s') (step : pthreadOnce steps t s l s' l') : claimRank l' < claimRank l := by
  have control : s.control = v := right.control
  cases step with
  | call => exact Nat.lt_succ_self 1
  | done one => exact absurd (control.symm.trans one) init.ne_one
  | free _ _ => exact Nat.lt_succ_self 0
  | busy _ other => exact absurd (control ▸ init) other
  | claim => exact absurd right'.control.symm init.ne_two
  | lost other => exact absurd (control.trans ok.place.cas_inv.1.symm) other
  | work | finish | store => cases ok.place
  | spin two => exact absurd (control.symm.trans two) init.ne_two
  | again _ =>
    cases ok.place with
    | wait started _ => exact absurd rfl started

lemma fresh_busy {c : Config ι (OnceShared ι) OnceThread} (fresh : OnceFresh v calls c) (some : 0 < calls t) :
    c.thread t ≠ ⟨.idle, 0⟩ := by
  intro idle
  have count := (fresh.thread t).count
  rw [idle] at count
  exact absurd count (Nat.ne_of_lt some)

lemma fresh_leadsTo (init : IsOnceInit v) (isRun : Program.Run (pthreadOnce steps) run)
    (fair : Program.Fair (pthreadOnce steps) run) (some : 0 < calls t) :
    LeadsTo run (OnceFresh v calls) fun c => (∃ o, OnceOwned v calls o c) ∨ OnceDone v calls c := by
  refine isRun.progress fair t claimRank (fun n fresh => once_canStep (fresh_busy fresh some)) ?_ ?_
  · intro n fresh step
    obtain ⟨g', next, after⟩ := (once_keeps init).step fresh step
    rcases once_situation after with still | later
    · exact .inr ⟨still, claimRank_lt init fresh.shared (fresh.thread t) still.shared step.own⟩
    · exact .inl later
  · intro n u ne fresh step
    obtain ⟨g', next, after⟩ := (once_keeps init).step fresh step
    exact once_situation after

def routineRank (l : OnceThread) : ℕ :=
  match l.pc with
  | .idle => 0
  | .load => 0
  | .cas _ => 0
  | .routine k => k + 1
  | .store => 0
  | .wait => 0

lemma routineRank_lt (own : g.owner = some t) (ok : OnceThreadOk v calls g t l) (own' : g'.owner = some t)
    (right' : OnceRight v g' s') (step : pthreadOnce steps t s l s' l') : routineRank l' < routineRank l := by
  cases step with
  | call => exact absurd own ok.place.idle_inv
  | done _ | free _ _ | busy _ _ => exact absurd own ok.place.load_inv
  | claim | lost _ => exact absurd own ok.place.cas_inv.2
  | work => exact Nat.lt_succ_self _
  | finish => exact Nat.lt_succ_self 0
  | store =>
    cases g' with
    | fresh => cases own'
    | running o | finishing o => exact absurd right'.control (show (1 : W64) ≠ 2 by decide)
    | done o rs => cases own'
  | spin _ | again _ => exact absurd own ok.place.wait_inv

lemma owned_busy {c : Config ι (OnceShared ι) OnceThread} (own : OnceOwned v calls o c) :
    c.thread o ≠ ⟨.idle, 0⟩ := by
  intro idle
  obtain ⟨g, owner, holds⟩ := own
  have place := (holds.thread o).place
  rw [idle] at place
  exact place.idle_inv owner

lemma owned_leadsTo (init : IsOnceInit v) (isRun : Program.Run (pthreadOnce steps) run)
    (fair : Program.Fair (pthreadOnce steps) run) : LeadsTo run (OnceOwned v calls o) (OnceDone v calls) := by
  refine isRun.progress fair o routineRank (fun n own => once_canStep (owned_busy own)) ?_ ?_
  · rintro n ⟨g, owner, holds⟩ step
    obtain ⟨g', next, after⟩ := (once_keeps init).step holds step
    cases next with
    | same => exact .inr ⟨⟨g, owner, after⟩, routineRank_lt owner (holds.thread o) owner after.shared step.own⟩
    | claim => cases owner
    | finish => exact .inr ⟨⟨_, rfl, after⟩, routineRank_lt owner (holds.thread o) rfl after.shared step.own⟩
    | publish => exact .inl ⟨_, _, after⟩
    | leave => cases owner
  · rintro n u ne ⟨g, owner, holds⟩ step
    obtain ⟨g', next, after⟩ := (once_keeps init).step holds step
    exact .inl ⟨g', next.owner ne.symm owner, after⟩

def returnRank (l : OnceThread) : ℕ :=
  4 * l.left + match l.pc with
  | .idle => 0
  | .load => 1
  | .cas _ => 3
  | .routine _ => 0
  | .store => 0
  | .wait => 2

lemma returnRank_lt {rs : List ι} (init : IsOnceInit v) (right : OnceRight v (.done o rs) s)
    (ok : OnceThreadOk v calls (.done o rs) t l) (step : pthreadOnce steps t s l s' l') :
    returnRank l' < returnRank l := by
  have control : s.control = 1 := right.control
  cases step with
  | call =>
    dsimp only [returnRank]
    omega
  | done _ => exact Nat.lt_succ_self _
  | free other _ | busy other _ => exact absurd control other
  | claim => exact absurd (ok.place.cas_inv.1.symm.trans control) init.ne_one
  | lost _ => exact Nat.lt_succ_self _
  | work | finish | store => cases ok.place
  | spin two => exact absurd (control.symm.trans two) (by decide)
  | again _ => exact Nat.lt_succ_self _

lemma done_stays (init : IsOnceInit v) {c c' : Config ι (OnceShared ι) OnceThread} (done : OnceDone v calls c)
    (step : Program.Step (pthreadOnce steps) c t c') : OnceDone v calls c' := by
  obtain ⟨o, rs, holds⟩ := done
  obtain ⟨g', next, after⟩ := (once_keeps init).step holds step
  obtain ⟨rs', rfl⟩ := next.done
  exact ⟨o, rs', after⟩

def OnceOver (v : W64) (calls : ι → ℕ) (t : ι) (c : Config ι (OnceShared ι) OnceThread) : Prop :=
  OnceDone v calls c ∧ c.thread t = ⟨.idle, 0⟩

lemma done_leadsTo (init : IsOnceInit v) (isRun : Program.Run (pthreadOnce steps) run)
    (fair : Program.Fair (pthreadOnce steps) run) : LeadsTo run (OnceDone v calls) (OnceOver v calls t) := by
  have active : LeadsTo run (fun c => OnceDone v calls c ∧ c.thread t ≠ ⟨.idle, 0⟩) (OnceOver v calls t) := by
    refine isRun.progress fair t returnRank (fun n here => once_canStep here.2) ?_ ?_
    · rintro n ⟨done, busy⟩ step
      have after := done_stays init done step
      obtain ⟨o, rs, holds⟩ := done
      by_cases idle : (run (n + 1)).thread t = ⟨.idle, 0⟩
      · exact .inl ⟨after, idle⟩
      · exact .inr ⟨⟨after, idle⟩, returnRank_lt init holds.shared (holds.thread t) step.own⟩
    · rintro n u ne ⟨done, busy⟩ step
      refine .inl ⟨done_stays init done step, ?_⟩
      rw [step.other ne.symm]
      exact busy
  intro n done
  by_cases idle : (run n).thread t = ⟨.idle, 0⟩
  · exact ⟨n, le_refl n, done, idle⟩
  · exact active n ⟨done, idle⟩

lemma over_stays (init : IsOnceInit v) {c c' : Config ι (OnceShared ι) OnceThread} {u : ι}
    (finished : OnceOver v calls t c) (step : Program.Step (pthreadOnce steps) c u c') : OnceOver v calls t c' := by
  refine ⟨done_stays init finished.1 step, ?_⟩
  by_cases eq : t = u
  · -- A thread without calls to make takes no step.
    subst eq
    have moves := step.own
    rw [finished.2] at moves
    cases moves
  · rw [step.other eq]
    exact finished.2

lemma OnceOver.returns {c : Config ι (OnceShared ι) OnceThread} (finished : OnceOver v calls t c) :
    c.shared.trace.countP (OnceEvent.isReturnOf t) = calls t := by
  obtain ⟨⟨o, rs, holds⟩, idle⟩ := finished
  have count := (holds.thread t).count
  rw [idle] at count
  rw [holds.shared.trace, OnceStage.countP_isReturnOf]
  exact count

lemma OnceDone.runs {c : Config ι (OnceShared ι) OnceThread} (done : OnceDone v calls c) :
    c.shared.trace.countP OnceEvent.isStarted = 1 ∧ c.shared.trace.countP OnceEvent.isFinished = 1 := by
  obtain ⟨o, rs, holds⟩ := done
  rw [holds.shared.trace]
  exact ⟨OnceStage.countP_isStarted, OnceStage.countP_isFinished⟩

lemma once_holds (init : IsOnceInit v) (isRun : Program.Run (pthreadOnce steps) run)
    (start : run 0 = onceStart v calls) (n : ℕ) : ∃ g, OnceHolds v calls g (run n) :=
  Program.holds_of_reaches (once_keeps init) onceStart_holds (start ▸ isRun.reaches n)

lemma once_done (init : IsOnceInit v) (isRun : Program.Run (pthreadOnce steps) run)
    (start : run 0 = onceStart v calls) (fair : Program.Fair (pthreadOnce steps) run) (some : 0 < calls t) :
    ∃ n, OnceDone v calls (run n) := by
  obtain ⟨n, -, owned | done⟩ := fresh_leadsTo init isRun fair some 0 (start ▸ onceStart_holds)
  · obtain ⟨o, own⟩ := owned
    obtain ⟨m, -, done⟩ := owned_leadsTo init isRun fair n own
    exact ⟨m, done⟩
  · exact ⟨n, done⟩

lemma once_completes (init : IsOnceInit v) (isRun : Program.Run (pthreadOnce steps) run)
    (start : run 0 = onceStart v calls) (fair : Program.Fair (pthreadOnce steps) run) :
    Completes (fun n => (run n).shared.trace) calls where
  runs caller := by
    obtain ⟨t, some⟩ := caller
    obtain ⟨n, done⟩ := once_done init isRun start fair some
    exact ⟨n, fun m ge => (isRun.stable (fun _ _ => done_stays init) ge done).runs⟩
  returns t := by
    by_cases some : 0 < calls t
    · obtain ⟨n, done⟩ := once_done init isRun start fair some
      obtain ⟨m, -, finished⟩ := done_leadsTo init isRun fair n done
      exact ⟨m, fun k ge => (isRun.stable (fun _ _ => over_stays init) ge finished).returns⟩
    · -- A thread that makes no calls never returns from one.
      refine ⟨0, fun m _ => ?_⟩
      obtain ⟨g, holds⟩ := once_holds init isRun start m
      have count := (holds.thread t).count
      rw [holds.shared.trace, OnceStage.countP_isReturnOf]
      omega

/-- The routine runs at most once and no call returns before it has finished; if every thread takes its steps it
    does run and all calls return. -/
theorem pthread_once_runs_once (init : v = 0 ∨ v = MACOS_PTHREAD_ONCE_INIT)
    (isRun : Program.Run (pthreadOnce steps) run) (start : run 0 = onceStart v calls) :
    (∀ n, Orderly (run n).shared.trace) ∧
      (Program.Fair (pthreadOnce steps) run → Completes (fun n => (run n).shared.trace) calls) := by
  refine ⟨fun n => ?_, once_completes init.symm isRun start⟩
  obtain ⟨g, holds⟩ := once_holds init.symm isRun start n
  rw [holds.shared.trace]
  exact g.orderly

lemma first_call {c : Config ι (OnceShared ι) OnceThread} {k : ℕ} (first : IsOnceInit c.shared.control)
    (idle : c.thread t = ⟨.idle, k + 1⟩) :
    Program.Reaches (pthreadOnce fun _ => 0) c
      (c.put t ⟨1, c.shared.trace ++ [.started t] ++ [.finished t] ++ [.returned t]⟩ ⟨.idle, k⟩) := by
  have called : Program.Reaches (pthreadOnce fun _ => 0) c (c.put t c.shared ⟨.load, k⟩) :=
    .step .refl (idle ▸ .call)
  have loaded := called.again (.free first.ne_one first)
  exact ((loaded.again .claim).again .finish).again .store

lemma late_call {c : Config ι (OnceShared ι) OnceThread} {k : ℕ} (one : c.shared.control = 1)
    (idle : c.thread t = ⟨.idle, k + 1⟩) :
    Program.Reaches (pthreadOnce steps) c (c.put t (c.shared.log (.returned t)) ⟨.idle, k⟩) := by
  have called : Program.Reaches (pthreadOnce steps) c (c.put t c.shared ⟨.load, k⟩) := .step .refl (idle ▸ .call)
  exact called.again (.done one)

theorem pthread_once_two_threads :
    ∃ run : ℕ → Config (Fin 2) (OnceShared (Fin 2)) OnceThread,
      Program.Run (pthreadOnce fun _ => 0) run ∧ run 0 = onceStart MACOS_PTHREAD_ONCE_INIT (fun _ => 1) ∧
      (∀ n, Orderly (run n).shared.trace) ∧ Completes (fun n => (run n).shared.trace) (fun _ => 1) := by
  have first : Program.Reaches (pthreadOnce fun _ => 0)
      (onceStart MACOS_PTHREAD_ONCE_INIT (fun _ : Fin 2 => 1)) _ := first_call (t := 0) (.inl rfl) rfl
  have both := first.trans (late_call (t := 1) rfl rfl)
  obtain ⟨run, isRun, start, n, ends⟩ := Program.exists_run both
  have fair := Program.fair_of_stuck (p := pthreadOnce fun _ => 0) ?_ ends
  · have result := pthread_once_runs_once (.inr rfl) isRun start
    exact ⟨run, isRun, start, result.1, result.2 fair⟩
  · rintro t ⟨c', step⟩
    have moves := step.own
    fin_cases t <;> cases moves

end Runs

end Macify.Threads
