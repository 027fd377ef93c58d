import Macify.Lib.Interleaving

/-!
# Starting threads

`pthread_create` and `thread_start_wrapper` (`shim/pthread/create.c`), for any number of calls whose steps and whose
threads' steps come in any order. The record of the arguments passes from the caller to the new thread. The wrapper
asks the kernel to block `SIGURG` with the size of glibc's `sigset_t`, which it does not accept. Main result:
`threads_start_right_iff`.
-/

namespace Macify.Threads.Creation
open Lib

structure Args where
  startRoutine : BitVec 64
  arg : BitVec 64

structure Thread where
  mask : BitVec 64
  gs : ℕ

def sizeofSigset : ℕ := 128

def urgentSet : BitVec 64 := 1 <<< 22

def rtSigBlock (mask set : BitVec 64) (size : ℕ) : BitVec 64 := if size = 8 then mask ||| set else mask

variable {ι : Type*}

/-- `g_tls_g_addr`, the arguments of each call, and what its thread inherits. -/
structure Env (ι : Type*) where
  tlsG : ℕ
  args : ι → Args
  inherited : ι → Thread

/-- The records, with the call that filled each; the mapped memory, with its thread or `none` for the loader; and
    its contents. -/
structure Shared (ι : Type*) where
  heap : ℕ → Option ι
  mapped : ℕ → Option (Option ι)
  mem : ℕ → UInt8

namespace Shared

variable (s : Shared ι)

def Fresh (base len : ℕ) : Prop := ∀ i < len, s.mapped (base + i) = none

def map (t : ι) (base len : ℕ) : Shared ι :=
  { s with
    mapped := fun x => if base ≤ x ∧ x < base + len then some (some t) else s.mapped x
    mem := fun x => if base ≤ x ∧ x < base + len then 0 else s.mem x }

def store (a : ℕ) (v : ℕ → UInt8) : Shared ι :=
  { s with mem := fun x => if a ≤ x ∧ x < a + 8 then v x else s.mem x }

def setHeap (p : ℕ) (r : Option ι) : Shared ι := { s with heap := Function.update s.heap p r }

end Shared

inductive Stage where
  | called
  | noMemory
  | filled (p : ℕ)
  | refused (p code : ℕ)
  | returned (code : ℕ)
  | begun (p : ℕ)
  | loaded (p : ℕ) (a : Args)
  | freed (a : Args)
  | stacked (a : Args)
  | slotted (a : Args) (th : Thread)
  | ready (a : Args) (th : Thread)
  | running (a : Args) (th : Thread)

structure Local where
  stage : Stage
  frees : ℕ
  calls : ℕ

inductive Moves (env : Env ι) (t : ι) : Shared ι → Local → Shared ι → Local → Prop
  | noMemory {s f c} : Moves env t s ⟨.called, f, c⟩ s ⟨.noMemory, f, c⟩
  | fill {s p f c} : s.heap p = none → Moves env t s ⟨.called, f, c⟩ (s.setHeap p (some t)) ⟨.filled p, f, c⟩
  | refuse {s p code f c} : code ≠ 0 → Moves env t s ⟨.filled p, f, c⟩ s ⟨.refused p code, f, c⟩
  | freeRefused {s p code f c} :
    Moves env t s ⟨.refused p code, f, c⟩ (s.setHeap p none) ⟨.returned code, f + 1, c⟩
  | start {s p f c} : Moves env t s ⟨.filled p, f, c⟩ s ⟨.begun p, f, c⟩
  | load {s p u f c} : s.heap p = some u → Moves env t s ⟨.begun p, f, c⟩ s ⟨.loaded p (env.args u), f, c⟩
  | free {s p a f c} : Moves env t s ⟨.loaded p a, f, c⟩ (s.setHeap p none) ⟨.freed a, f + 1, c⟩
  | stack {s a b f c} :
    s.Fresh b 0x100000 → Moves env t s ⟨.freed a, f, c⟩ (s.map t b 0x100000) ⟨.stacked a, f, c⟩
  | noSlot {s a f c} : env.tlsG = 0 → Moves env t s ⟨.stacked a, f, c⟩ s ⟨.ready a (env.inherited t), f, c⟩
  | slot {s a b f c} :
    env.tlsG ≠ 0 →
    s.Fresh b 0x100 →
    Moves env t s ⟨.stacked a, f, c⟩ (s.map t b 0x100) ⟨.slotted a { env.inherited t with gs := b }, f, c⟩
  | mask {s a th f c} :
    Moves env t s ⟨.slotted a th, f, c⟩ s
      ⟨.ready a { th with mask := rtSigBlock th.mask urgentSet sizeofSigset }, f, c⟩
  | call {s a th f c} : Moves env t s ⟨.ready a th, f, c⟩ s ⟨.running a th, f, c + 1⟩
  -- the guest keeps its own `g` there
  | store {s a th v f c} :
    env.tlsG ≠ 0 → Moves env t s ⟨.running a th, f, c⟩ (s.store (th.gs + 0x30) v) ⟨.running a th, f, c⟩

/-- The slot of the main thread is mapped, and there is memory left. -/
structure Mapped (env : Env ι) (s : Shared ι) : Prop where
  main : ∀ i < 8, s.mapped (env.tlsG + i) = some none
  bound : ∃ b, ∀ x ≥ b, s.mapped x = none

structure Initial (env : Env ι) (c : Config ι (Shared ι) Local) : Prop where
  thread : ∀ t, c.thread t = ⟨.called, 0, 0⟩
  mapped : Mapped env c.shared

def Stage.thread? : Stage → Option Thread
  | slotted _ th | ready _ th | running _ th => some th
  | _ => none

def Stage.outcome : Stage → Option Bool
  | noMemory | returned _ => some false
  | running _ _ => some true
  | _ => none

/-- There was no record, or it was freed once and then glibc had failed or the routine was called once, with its
    argument and, in a Go process, with `SIGURG` blocked. -/
def Ended (env : Env ι) (t : ι) : Local → Prop
  | ⟨.noMemory, f, c⟩ => f = 0 ∧ c = 0
  | ⟨.returned code, f, c⟩ => code ≠ 0 ∧ f = 1 ∧ c = 0
  | ⟨.running a th, f, c⟩ => f = 1 ∧ c = 1 ∧ a = env.args t ∧ (env.tlsG ≠ 0 → th.mask.getLsbD 22 = true)
  | _ => False

/-- The word at `gs:0x30` is zero, and neither the main thread nor another one has a byte of it in its own. -/
structure SlotRight (env : Env ι) (c : Config ι (Shared ι) Local) (t : ι) (th : Thread) : Prop where
  zero : ∀ i < 8, c.shared.mem (th.gs + 0x30 + i) = 0
  main : ∀ i < 8, ∀ j < 8, th.gs + 0x30 + i ≠ env.tlsG + j
  others : ∀ u, u ≠ t → ∀ th', (c.thread u).stage.thread? = some th' →
    ∀ i < 8, ∀ j < 8, th.gs + 0x30 + i ≠ th'.gs + 0x30 + j

structure Promised (env : Env ι) (run : ℕ → Config ι (Shared ι) Local) (t : ι) : Prop where
  ends : ∃ n, ∀ m ≥ n, Ended env t ((run m).thread t)
  slot : ∀ n a th f c, (run n).thread t = ⟨.ready a th, f, c⟩ → env.tlsG ≠ 0 → SlotRight env (run n) t th

def Owned (s : Shared ι) (t : ι) (th : Thread) : Prop := ∀ i < 0x100, s.mapped (th.gs + i) = some (some t)

def Zeroed (s : Shared ι) (th : Thread) : Prop := ∀ i < 0x100, s.mem (th.gs + i) = 0

def Fits (env : Env ι) (s : Shared ι) (t : ι) : Local → Prop
  | ⟨.called, f, c⟩ | ⟨.noMemory, f, c⟩ => f = 0 ∧ c = 0
  | ⟨.filled p, f, c⟩ | ⟨.begun p, f, c⟩ => s.heap p = some t ∧ f = 0 ∧ c = 0
  | ⟨.refused p code, f, c⟩ => s.heap p = some t ∧ code ≠ 0 ∧ f = 0 ∧ c = 0
  | ⟨.returned code, f, c⟩ => code ≠ 0 ∧ f = 1 ∧ c = 0
  | ⟨.loaded p a, f, c⟩ => s.heap p = some t ∧ a = env.args t ∧ f = 0 ∧ c = 0
  | ⟨.freed a, f, c⟩ | ⟨.stacked a, f, c⟩ => a = env.args t ∧ f = 1 ∧ c = 0
  | ⟨.slotted a th, f, c⟩ | ⟨.ready a th, f, c⟩ =>
    a = env.args t ∧ f = 1 ∧ c = 0 ∧ th.mask = (env.inherited t).mask ∧ (env.tlsG ≠ 0 → Owned s t th ∧ Zeroed s th)
  | ⟨.running a th, f, c⟩ =>
    a = env.args t ∧ f = 1 ∧ c = 1 ∧ th.mask = (env.inherited t).mask ∧ (env.tlsG ≠ 0 → Owned s t th)

structure Untouched (t : ι) (s s' : Shared ι) : Prop where
  heap : ∀ p, s.heap p = some t → s'.heap p = some t
  mapped : ∀ x, s.mapped x = some (some t) → s'.mapped x = some (some t) ∧ s'.mem x = s.mem x

section Steps

variable {env : Env ι} {s s' : Shared ι} {t u : ι} {l l' : Local} {p b len : ℕ}

lemma Untouched.refl : Untouched t s s := ⟨fun _ held => held, fun _ held => ⟨held, rfl⟩⟩

lemma untouched_setHeap {r : Option ι} (other : s.heap p ≠ some t) : Untouched t s (s.setHeap p r) := by
  refine ⟨fun q held => ?_, fun x held => ⟨held, rfl⟩⟩
  have ne : q ≠ p := fun eq => other (eq ▸ held)
  exact (Function.update_of_ne ne ..).trans held

lemma map_kept {x : ℕ} {r : Option ι} (fresh : s.Fresh b len) (held : s.mapped x = some r) :
    (s.map u b len).mapped x = s.mapped x ∧ (s.map u b len).mem x = s.mem x := by
  have outside : ¬(b ≤ x ∧ x < b + len) := by
    rintro ⟨le, lt⟩
    have free := fresh (x - b) (by omega)
    rw [Nat.add_sub_cancel' le, held] at free
    cases free
  exact ⟨if_neg outside, if_neg outside⟩

lemma untouched_map (fresh : s.Fresh b len) : Untouched t s (s.map u b len) :=
  ⟨fun _ held => held, fun _ held => ⟨(map_kept fresh held).1.trans held, (map_kept fresh held).2⟩⟩

lemma owned_map {th : Thread} (base : th.gs = b) : Owned (s.map t b 0x100) t th ∧ Zeroed (s.map t b 0x100) th := by
  subst base
  exact ⟨fun i lt => if_pos ⟨by omega, by omega⟩, fun i lt => if_pos ⟨by omega, by omega⟩⟩

lemma Fits.untouched (fits : Fits env s t l) (same : Untouched t s s') : Fits env s' t l := by
  have owned : ∀ th, Owned s t th → Owned s' t th := fun th own i lt => (same.mapped _ (own i lt)).1
  have zeroed : ∀ th, Owned s t th ∧ Zeroed s th → Owned s' t th ∧ Zeroed s' th := fun th both =>
    ⟨owned th both.1, fun i lt => ((same.mapped _ (both.1 i lt)).2).trans (both.2 i lt)⟩
  obtain ⟨stage, f, c⟩ := l
  cases stage with
  | called | noMemory | returned _ | freed _ | stacked _ => exact fits
  | filled p | begun p | refused p _ | loaded p _ => exact ⟨same.heap p fits.1, fits.2⟩
  | slotted a th | ready a th =>
    obtain ⟨args, once, never, mask, slot⟩ := fits
    exact ⟨args, once, never, mask, fun go => zeroed th (slot go)⟩
  | running a th =>
    obtain ⟨args, once, called, mask, slot⟩ := fits
    exact ⟨args, once, called, mask, fun go => owned th (slot go)⟩

lemma Moves.untouched (moves : Moves env t s l s' l') (fits : Fits env s t l) (ne : u ≠ t) : Untouched u s s' := by
  have others : ∀ p, s.heap p = some t → s.heap p ≠ some u := fun p held other =>
    ne (Option.some.inj (other.symm.trans held))
  cases moves with
  | noMemory | refuse _ | start | load _ | noSlot _ | mask | call => exact .refl
  | fill free => exact untouched_setHeap (by rw [free]; exact Option.some_ne_none u |>.symm)
  | freeRefused | free => exact untouched_setHeap (others _ fits.1)
  | stack fresh | slot _ fresh => exact untouched_map fresh
  | @store _ th _ _ _ go =>
    refine ⟨fun _ held => held, fun x held => ⟨held, if_neg ?_⟩⟩
    rintro ⟨le, lt⟩
    have own := fits.2.2.2.2 go (x - th.gs) (by omega)
    rw [Nat.add_sub_cancel' (by omega), held] at own
    exact ne (Option.some.inj (Option.some.inj own))

lemma Mapped.map (mapped : Mapped env s) (fresh : s.Fresh b len) : Mapped env (s.map t b len) := by
  refine ⟨fun i lt => (map_kept fresh (mapped.main i lt)).1.trans (mapped.main i lt), ?_⟩
  obtain ⟨n, none⟩ := mapped.bound
  exact ⟨max n (b + len), fun x ge => (if_neg (by omega)).trans (none x (by omega))⟩

lemma Moves.mapped (moves : Moves env t s l s' l') (mapped : Mapped env s) : Mapped env s' := by
  cases moves with
  | stack fresh | slot _ fresh => exact mapped.map fresh
  | _ => exact ⟨mapped.main, mapped.bound⟩

lemma Moves.fits (moves : Moves env t s l s' l') (fits : Fits env s t l) : Fits env s' t l' := by
  cases moves with
  | noMemory => exact fits
  | fill free => exact ⟨Function.update_self .., fits⟩
  | refuse ne => exact ⟨fits.1, ne, fits.2⟩
  | freeRefused =>
    obtain ⟨-, ne, none, never⟩ := fits
    exact ⟨ne, congrArg (· + 1) none, never⟩
  | start => exact fits
  | load held =>
    obtain rfl := Option.some.inj (fits.1.symm.trans held)
    exact ⟨fits.1, rfl, fits.2⟩
  | free =>
    obtain ⟨-, args, none, never⟩ := fits
    exact ⟨args, congrArg (· + 1) none, never⟩
  | stack fresh => exact fits
  | noSlot no => exact ⟨fits.1, fits.2.1, fits.2.2, rfl, fun go => absurd no go⟩
  | slot go fresh => exact ⟨fits.1, fits.2.1, fits.2.2, rfl, fun _ => owned_map rfl⟩
  | mask => exact fits
  | call =>
    obtain ⟨args, once, never, mask, slot⟩ := fits
    exact ⟨args, once, congrArg (· + 1) never, mask, fun go => (slot go).1⟩
  | store go => exact fits

lemma creation_keeps [DecidableEq ι] :
    Program.Keeps (Moves env) (fun g s => g = s ∧ Mapped env s) (Fits env)
      fun t g g' => ∀ u, u ≠ t → Untouched u g g' where
  own := by
    rintro g t s l s' l' ⟨rfl, mapped⟩ fits moves
    exact ⟨s', fun u ne => moves.untouched fits ne, ⟨rfl, moves.mapped mapped⟩, moves.fits fits⟩
  other := fun next ne fits => fits.untouched (next _ ne)

lemma Moves.outcome {o : Bool} (moves : Moves env t s l s' l') (finished : l.stage.outcome = some o) :
    l'.stage.outcome = some o := by
  cases moves with
  | store _ => exact finished
  | noMemory | fill _ | refuse _ | freeRefused | start | load _ | free | stack _ | noSlot _ | slot _ _ | mask | call =>
    cases finished

def Stage.rank : Stage → ℕ
  | called => 8
  | filled _ => 7
  | begun _ => 6
  | loaded _ _ => 5
  | freed _ => 4
  | stacked _ => 3
  | slotted _ _ => 2
  | ready _ _ | refused _ _ => 1
  | noMemory | returned _ | running _ _ => 0

lemma Moves.rank (moves : Moves env t s l s' l') (open' : l.stage.outcome = none) :
    l'.stage.rank < l.stage.rank := by
  cases moves with
  | store _ => cases open'
  | noMemory | fill _ | refuse _ | freeRefused | start | load _ | free | stack _ | noSlot _ | slot _ _ | mask | call =>
    dsimp only [Stage.rank]
    omega

lemma exists_moves (fits : Fits env s t l) (mapped : Mapped env s) (open' : l.stage.outcome = none) :
    ∃ s' l', Moves env t s l s' l' := by
  obtain ⟨b, none⟩ := mapped.bound
  have fresh : ∀ len, s.Fresh b len := fun len i _ => none _ (Nat.le_add_right b i)
  obtain ⟨stage, f, c⟩ := l
  cases stage with
  | called => exact ⟨_, _, .noMemory⟩
  | noMemory | returned _ | running _ _ => cases open'
  | filled p => exact ⟨_, _, .start⟩
  | refused p code => exact ⟨_, _, .freeRefused⟩
  | begun p => exact ⟨_, _, .load fits.1⟩
  | loaded p a => exact ⟨_, _, .free⟩
  | freed a => exact ⟨_, _, .stack (fresh _)⟩
  | stacked a =>
    by_cases go : env.tlsG = 0
    · exact ⟨_, _, .noSlot go⟩
    · exact ⟨_, _, .slot go (fresh _)⟩
  | slotted a th => exact ⟨_, _, .mask⟩
  | ready a th => exact ⟨_, _, .call⟩

end Steps

section Runs

variable [DecidableEq ι] {env : Env ι} {run : ℕ → Config ι (Shared ι) Local} {t : ι}

lemma fits_run (isRun : Program.Run (Moves env) run) (start : Initial env (run 0)) (n : ℕ) :
    (∀ t, Fits env (run n).shared t ((run n).thread t)) ∧ Mapped env (run n).shared := by
  have first : Program.Holds (fun g s => g = s ∧ Mapped env s) (Fits env) (run 0).shared (run 0) := by
    refine ⟨⟨rfl, start.mapped⟩, fun t => ?_⟩
    rw [start.thread t]
    exact ⟨rfl, rfl⟩
  obtain ⟨g, ⟨rfl, mapped⟩, fits⟩ := Program.holds_of_reaches creation_keeps first (isRun.reaches n)
  exact ⟨fits, mapped⟩

lemma step_outcome {o : Bool} (u : ι) {c c' : Config ι (Shared ι) Local} (step : Program.Step (Moves env) c u c')
    (finished : (c.thread t).stage.outcome = some o) : (c'.thread t).stage.outcome = some o := by
  by_cases eq : t = u
  · subst eq
    exact step.own.outcome finished
  · rw [step.other eq]
    exact finished

lemma outcome_stays {o : Bool} {n m : ℕ} (isRun : Program.Run (Moves env) run) (le : n ≤ m)
    (finished : ((run n).thread t).stage.outcome = some o) : ((run m).thread t).stage.outcome = some o :=
  @Program.Run.stable _ _ _ _ _ _ (fun c => (c.thread t).stage.outcome = some o) isRun
    (fun _ u here step => step_outcome u step here) _ _ le finished

lemma outcome_run (isRun : Program.Run (Moves env) run) (fair : Program.Fair (Moves env) run)
    (start : Initial env (run 0)) (t : ι) :
    ∃ n o, ∀ m ≥ n, ((run m).thread t).stage.outcome = some o := by
  have leads : LeadsTo run (fun c => (c.thread t).stage.outcome = none)
      fun c => ∃ o, (c.thread t).stage.outcome = some o := by
    refine isRun.progress fair t (fun l => l.stage.rank) (fun n here => ?_) (fun n here step => ?_)
      fun n u ne here step => .inl (by rw [step.other ne.symm]; exact here)
    · obtain ⟨fits, mapped⟩ := fits_run isRun start n
      obtain ⟨s', l', moves⟩ := exists_moves (fits t) mapped here
      exact Program.canStep_of moves
    · have less := step.own.rank here
      cases next : ((run (n + 1)).thread t).stage.outcome with
      | none => exact .inr ⟨rfl, less⟩
      | some o => exact .inl ⟨o, rfl⟩
  obtain ⟨n, -, o, finished⟩ := leads 0 (congrArg (fun l => l.stage.outcome) (start.thread t))
  exact ⟨n, o, fun m ge => outcome_stays isRun ge finished⟩

lemma slotRight_run (isRun : Program.Run (Moves env) run) (start : Initial env (run 0)) {n : ℕ} {a : Args}
    {th : Thread} {f c : ℕ} (ready : (run n).thread t = ⟨.ready a th, f, c⟩) (go : env.tlsG ≠ 0) :
    SlotRight env (run n) t th := by
  obtain ⟨fits, mapped⟩ := fits_run isRun start n
  have own := fits t
  rw [ready] at own
  obtain ⟨owned, zeroed⟩ := own.2.2.2.2 go
  refine ⟨fun i lt => ?_, fun i lt j lt' eq => ?_, fun u ne th' has i lt j lt' eq => ?_⟩
  · rw [Nat.add_assoc]
    exact zeroed (0x30 + i) (by omega)
  · have mine := owned (0x30 + i) (by omega)
    rw [← Nat.add_assoc, eq, mapped.main j lt'] at mine
    cases Option.some.inj mine
  · have theirs : Owned (run n).shared u th' := by
      have other := fits u
      obtain ⟨⟨stage, f, c⟩, at_u⟩ : ∃ l, (run n).thread u = l := ⟨_, rfl⟩
      rw [at_u] at other has
      cases stage with
      | slotted _ _ | ready _ _ =>
        cases has
        exact (other.2.2.2.2 go).1
      | running _ _ =>
        cases has
        exact other.2.2.2.2 go
      | _ => cases has
    have mine := owned (0x30 + i) (by omega)
    have other := theirs (0x30 + j) (by omega)
    rw [← Nat.add_assoc] at mine other
    rw [eq, other] at mine
    exact ne (Option.some.inj (Option.some.inj mine))

end Runs

/-- In every fair run, just if the process is no Go process or each thread that is started inherits a mask that
    blocks `SIGURG`. -/
theorem threads_start_right_iff [DecidableEq ι] (env : Env ι) (run : ℕ → Config ι (Shared ι) Local)
    (isRun : Program.Run (Moves env) run) (fair : Program.Fair (Moves env) run) (start : Initial env (run 0)) :
    (∀ t, Promised env run t) ↔
      ∀ t, env.tlsG = 0 ∨ (env.inherited t).mask.getLsbD 22 = true ∨
        ∃ n, ((run n).thread t).stage.outcome = some false := by
  constructor
  · intro promised t
    obtain ⟨n, ended⟩ := (promised t).ends
    have here := ended n (Nat.le_refl n)
    have fits := (fits_run isRun start n).1 t
    obtain ⟨⟨stage, f, c⟩, at_t⟩ : ∃ l, (run n).thread t = l := ⟨_, rfl⟩
    rw [at_t] at here fits
    cases stage with
    | noMemory | returned _ => exact .inr (.inr ⟨n, by rw [at_t]; rfl⟩)
    | running a th =>
      obtain ⟨-, -, -, blocked⟩ := here
      rw [fits.2.2.2.1] at blocked
      exact (em (env.tlsG = 0)).imp_right fun go => .inl (blocked go)
    | _ => cases here
  · intro blocked t
    obtain ⟨n, o, finished⟩ := outcome_run isRun fair start t
    refine ⟨⟨n, fun m ge => ?_⟩, fun n a th f c ready go => slotRight_run isRun start ready go⟩
    have here := finished m ge
    have fits := (fits_run isRun start m).1 t
    obtain ⟨⟨stage, f, c⟩, at_t⟩ : ∃ l, (run m).thread t = l := ⟨_, rfl⟩
    rw [at_t] at here fits ⊢
    cases stage with
    | noMemory | returned _ => exact fits
    | running a th =>
      obtain ⟨args, once, called, mask, -⟩ := fits
      refine ⟨once, called, args, fun go => ?_⟩
      rw [mask]
      rcases blocked t with no | yes | ⟨k, refused⟩
      · exact absurd no go
      · exact yes
      · cases here
        have still := outcome_stays isRun (Nat.le_max_left k n) refused
        rw [finished _ (Nat.le_max_right k n)] at still
        cases still
    | _ => cases here

def goProcess (mask : BitVec 64) : Env Unit := ⟨8, fun _ => ⟨0x1000, 0x2000⟩, fun _ => ⟨mask, 0⟩⟩

lemma running_loops [DecidableEq ι] {env : Env ι} {c : Config ι (Shared ι) Local} {t : ι} {a : Args} {th : Thread}
    {f k : ℕ} (go : env.tlsG ≠ 0) (running : c.thread t = ⟨.running a th, f, k⟩) :
    Program.Step (Moves env) c t c := by
  have same : c.shared.store (th.gs + 0x30) c.shared.mem = c.shared :=
    congrArg (Shared.mk c.shared.heap c.shared.mapped) (funext fun x => ite_self _)
  have moves : Moves env t c.shared (c.thread t) c.shared (c.thread t) := by
    have stores := @Moves.store ι env t c.shared a th c.shared.mem f k go
    rw [same] at stores
    rw [running]
    exact stores
  have step := Program.Step.intro moves
  rw [Config.put_same] at step
  exact step

lemma goProcess_runs (mask : BitVec 64) : ∃ run, Program.Run (Moves (goProcess mask)) run ∧
    Program.Fair (Moves (goProcess mask)) run ∧ Initial (goProcess mask) (run 0) ∧
    ∃ n, ((run n).thread ()).stage.outcome = some true := by
  let c : Config Unit (Shared Unit) Local :=
    ⟨⟨fun _ => none, fun x => if x < 16 then some none else none, fun _ => 0⟩, fun _ => ⟨.called, 0, 0⟩⟩
  have fills : Moves (goProcess mask) () c.shared (c.thread ()) (c.shared.setHeap 0 (some ())) ⟨.filled 0, 0, 0⟩ :=
    .fill rfl
  have frees := (((Program.Reaches.step .refl fills).again .start).again (.load rfl)).again .free
  have stacked := frees.again (.stack (b := 16) fun i _ => if_neg (by omega))
  have slotted := stacked.again (.slot (b := 16 + 0x100000) (Nat.succ_ne_zero 7) fun i _ =>
    (if_neg (by omega)).trans (if_neg (by omega)))
  have reaches := (slotted.again .mask).again .call
  obtain ⟨run, isRun, start, n, ends⟩ := Program.exists_run reaches
  refine ⟨run, isRun, (Program.strongFair_of_loop (fun t => ?_) ends).fair, ?_, n, ?_⟩
  · exact running_loops (Nat.succ_ne_zero 7) Config.put_self
  · rw [start]
    exact ⟨fun _ => rfl, fun i lt => if_pos (by unfold goProcess; dsimp only; omega), 16, fun x ge => if_neg (by omega)⟩
  · rw [ends n (Nat.le_refl n), Config.put_self]
    rfl

theorem threads_start_right_blocked : ∃ run, Program.Run (Moves (goProcess urgentSet)) run ∧
    Program.Fair (Moves (goProcess urgentSet)) run ∧ Initial (goProcess urgentSet) (run 0) ∧
    ∀ t, Promised (goProcess urgentSet) run t := by
  obtain ⟨run, isRun, fair, start, -⟩ := goProcess_runs urgentSet
  have blocked : urgentSet.getLsbD 22 = true := by decide
  exact ⟨run, isRun, fair, start, (threads_start_right_iff _ run isRun fair start).mpr fun _ => .inr (.inl blocked)⟩

/-- The mask that is inherited is empty, and stays so. -/
theorem sigurg_not_blocked : ∃ run, Program.Run (Moves (goProcess 0)) run ∧
    Program.Fair (Moves (goProcess 0)) run ∧ Initial (goProcess 0) (run 0) ∧
    (∃ n, ((run n).thread ()).stage.outcome = some true) ∧ ¬Promised (goProcess 0) run () := by
  obtain ⟨run, isRun, fair, start, n, runs⟩ := goProcess_runs 0
  refine ⟨run, isRun, fair, start, ⟨n, runs⟩, fun promised => ?_⟩
  obtain ⟨k, ended⟩ := promised.ends
  have here := ended (max n k) (Nat.le_max_right n k)
  have fits := (fits_run isRun start (max n k)).1 ()
  have still := outcome_stays isRun (Nat.le_max_left n k) runs
  obtain ⟨⟨stage, f, c⟩, at_t⟩ : ∃ l, (run (max n k)).thread () = l := ⟨_, rfl⟩
  rw [at_t] at here fits still
  cases stage with
  | running a th =>
    have blocked := here.2.2.2 (Nat.succ_ne_zero 7)
    rw [fits.2.2.2.1] at blocked
    cases blocked
  | _ => cases still

end Macify.Threads.Creation
