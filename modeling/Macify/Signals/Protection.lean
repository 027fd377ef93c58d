import Macify.Lib.Loop
import Macify.Signals.Actions

/-!
# Protected signals

macify needs its own handlers for the Linux signals `SIGILL`, `SIGSEGV`, `SIGBUS` and `SIGABRT`. The three ways to
change an action guard them in different places: by the macOS and again by the Linux number, by comparing the macOS
number with Linux constants, and by the macOS number without `SIGABRT`. Main result: `handlers_kept_iff`.
-/

namespace Macify.Signals
open Lib Syscall

/-- Between two calls the guest may change its memory, so a raw syscall comes with the memory it finds. -/
inductive GuestCall where
  | sigaction (signum : W32) (act : Option MacosAction) (old : Bool)
  | signal (signum : W32) (handler : W64)
  | raw (r : Regs) (w : World)

def step (env : SignalEnv) (st : SignalState) : GuestCall → SignalState
  | .sigaction signum act old => (sigaction env signum act old st).state
  | .signal signum handler => signal env signum handler st
  | .raw r w => rawSigaction env r w st

def run (env : SignalEnv) (st : SignalState) (calls : List GuestCall) : SignalState :=
  calls.foldl (step env) st

def SignalEnv.own (env : SignalEnv) : List W64 :=
  [env.sigillHandler, env.loaderCrashHandler, env.crashHandler, env.goSignalWrapper, env.sigchldWrapper]

def protectedSignals : List ℕ := [4, 11, 7, 6]

def Protected (env : SignalEnv) (st : SignalState) : Prop :=
  ∀ sig ∈ protectedSignals, (st.actions sig).handler ∈ env.own

instance {env : SignalEnv} {st : SignalState} : Decidable (Protected env st) :=
  inferInstanceAs (Decidable (∀ sig ∈ protectedSignals, (st.actions sig).handler ∈ env.own))

/-- The handler that the guest asks for in a raw syscall. It is read after `linux_sa` is cleared. -/
def rawHandler (env : SignalEnv) (r : Regs) (w : World) : W64 :=
  (w.mem.zero env.sys.linuxSa 152).read64 r.rsi

/-- The calls that leave the handlers in place. `10` is the macOS number of `SIGBUS`. -/
def Allowed (env : SignalEnv) : GuestCall → Prop
  | .sigaction _ _ _ => True
  | .signal signum handler => signum = 10 → handler ∈ env.own
  | .raw r w =>
    -- an action is given, the size of the set is right, and the number escapes the test of the handler
    r.rsi ≠ 0 → r.r10 = 8 → r.rdi ∉ [4, 11, 10] → r.rdi.setWidth 32 ∈ [4, 6, 10, 11] →
      rawHandler env r w ∈ env.own

section Tables

variable {sig : W32}

lemma lt_of_protected {n : ℕ} (mem : n ∈ protectedSignals) : n < 32 := by
  have all : ∀ n ∈ protectedSignals, n < 32 := by decide
  exact all n mem

lemma xlateSignum_abrt : xlateSignum sig = SIGABRT → sig = SIGABRT := by
  refine @signum_rule sig (fun sig => xlateSignum sig = SIGABRT → sig = SIGABRT) (by decide +kernel)
    fun large => ?_
  rw [xlateSignum_large large]
  exact id

lemma xlateSignum_protected : sig ∉ [SIGALRM, SIGSEGV, SIGBUS, SIGABRT, SIGILL] →
    (xlateSignum sig).toNat ∈ protectedSignals → sig = 10 := by
  refine @signum_rule sig (fun sig => sig ∉ [SIGALRM, SIGSEGV, SIGBUS, SIGABRT, SIGILL] →
    (xlateSignum sig).toNat ∈ protectedSignals → sig = 10) (by decide +kernel) fun large _ mem => ?_
  rw [xlateSignum_large large] at mem
  exact absurd (lt_of_protected mem) large

lemma translateKillSignal_protected_iff :
    (translateKillSignal sig).toNat ∈ protectedSignals ↔ sig ∈ ([4, 6, 10, 11] : List W32) := by
  refine @signum_rule sig (fun sig => (translateKillSignal sig).toNat ∈ protectedSignals ↔
    sig ∈ ([4, 6, 10, 11] : List W32)) (by decide +kernel) fun large => ?_
  rw [translateKillSignal_large large]
  refine iff_of_false (fun mem => large (lt_of_protected mem)) fun mem => large ?_
  have all : (([4, 6, 10, 11] : List W32).all fun sig => decide (sig.toNat < 32)) = true := rfl
  exact of_decide_eq_true (List.all_eq_true.mp all sig mem)

def Settable (sig : W32) : Prop :=
  ((1 : W32).sle sig = true ∧ sig.sle 64 = true) ∧ ¬ (sig = SIGKILL ∨ sig = SIGSTOP) ∧
    ¬ (sig = 32 ∨ sig = 33)

lemma settable_of_protected (mem : sig.toNat ∈ protectedSignals) : Settable sig := by
  have numbers : protectedSignals = ([4, 11, 7, 6] : List W32).map BitVec.toNat := rfl
  have all : ([4, 11, 7, 6] : List W32).Forall Settable := by
    simp only [List.Forall, Settable]
    decide
  rw [numbers, List.mem_map] at mem
  obtain ⟨s, listed, eq⟩ := mem
  rw [← BitVec.eq_of_toNat_eq eq]
  exact List.forall_iff_forall_mem.mp all s listed

end Tables

def HandlerSet (sig : W32) (handler : W64) (st st' : SignalState) : Prop :=
  ∀ k ∈ protectedSignals,
    (st'.actions k).handler = if k = sig.toNat then handler else (st.actions k).handler

section Install

variable {env : SignalEnv} {sig signum : W32} {handler : W64} {act : LinuxAction}
  {st st' : SignalState}

lemma HandlerSet.protected_iff (set : HandlerSet sig handler st st') (start : Protected env st) :
    Protected env st' ↔ (sig.toNat ∈ protectedSignals → handler ∈ env.own) := by
  constructor
  · intro kept mem
    have own := kept _ mem
    rwa [set _ mem, if_pos rfl] at own
  · intro own k mem
    rw [set k mem]
    split
    · next e => exact own (e ▸ mem)
    · exact start k mem

lemma rtSigaction_set : HandlerSet sig act.handler st (rtSigaction sig (some act) st).2 := by
  intro k mem
  have settable : k = sig.toNat → Settable sig := fun e => settable_of_protected (e ▸ mem)
  unfold rtSigaction
  dsimp only
  split
  · split
    · next special => rw [if_neg fun e => (settable e).2.1 special]
    · exact apply_ite LinuxAction.handler _ _ _
  · next invalid => rw [if_neg fun e => invalid (settable e).1]

lemma rtSigaction_none : (rtSigaction sig none st).2 = st := by
  unfold rtSigaction
  split
  · rfl
  · rfl

lemma install_set : HandlerSet sig act.handler st (install env sig (some act) st).2 := by
  unfold install
  split
  · unfold libcSigaction
    split
    · next kept =>
      intro k mem
      have settable : k = sig.toNat → Settable sig := fun e => settable_of_protected (e ▸ mem)
      rw [if_neg fun e => (settable e).2.2 kept]
    · exact rtSigaction_set
  · exact rtSigaction_set

lemma install_none : (install env sig none st).2 = st := by
  unfold install
  split
  · unfold libcSigaction
    split
    · rfl
    · exact rtSigaction_none
  · exact rtSigaction_none

@[simp] lemma withRestorer_handler : (act.withRestorer env).handler = act.handler := by
  unfold LinuxAction.withRestorer
  split
  · rfl
  · rfl

lemma crashHandler_own : env.crashHandler ∈ env.own :=
  List.mem_cons_of_mem _ (List.mem_cons_of_mem _ List.mem_cons_self)

end Install

section Steps

variable {env : SignalEnv} {sig signum : W32} {handler : W64} {st : SignalState}

lemma shimAction_handler {act : MacosAction} {la : LinuxAction} (notGo : env.sys.tlsGAddr = 0)
    (built : shimAction env sig act = some la) (mem : sig.toNat ∈ protectedSignals)
    (notAbrt : sig ≠ SIGABRT) : la.handler = env.crashHandler := by
  unfold shimAction at built
  dsimp only at built
  rw [if_neg (not_not.mpr notGo), if_neg (not_not.mpr notGo)] at built
  split at built
  · cases built
    exact withRestorer_handler
  next other =>
  split at built
  · cases built
  next notIll =>
  -- the four numbers are used up
  have four : sig = 4 ∨ sig = 11 ∨ sig = 7 ∨ sig = 6 := by
    simp only [protectedSignals, List.mem_cons, List.not_mem_nil, or_false] at mem
    bv_omega
  tauto

lemma sigaction_step {act : Option MacosAction} {old : Bool} (notGo : env.sys.tlsGAddr = 0)
    (start : Protected env st) : Protected env (sigaction env signum act old st).state := by
  unfold sigaction
  split
  · exact start
  next free =>
  cases act with
  | none =>
    show Protected env (install _ _ none _).2
    rw [install_none]
    exact start
  | some act =>
    have same : ∀ st, shimSave env (xlateSignum signum) act st = st := fun st => by
      rw [shimSave, if_neg fun go => go.1 notGo]
    show Protected env (install _ _ (shimAction env _ act) (shimSave env _ act _)).2
    rw [same]
    cases built : shimAction env (xlateSignum signum) act with
    | none =>
      rw [install_none]
      exact start
    | some la =>
      refine (install_set.protected_iff ?_).mpr fun mem => ?_
      · exact start
      have notAbrt : xlateSignum signum ≠ SIGABRT := by
        intro abrt
        have named := xlateSignum_abrt abrt
        exact free ⟨.inr (.inl named), rfl, fun go => go.2 notGo⟩
      rw [shimAction_handler notGo built mem notAbrt]
      exact crashHandler_own

lemma signal_step (start : Protected env st) :
    Protected env (signal env signum handler st) ↔ (signum = 10 → handler ∈ env.own) := by
  have bus : xlateSignum 10 = SIGBUS := by decide +kernel
  unfold signal
  split
  · next alrm => exact iff_of_true start fun e => absurd (alrm.symm.trans e) (by decide)
  next notAlrm =>
  split
  · next crash =>
    refine iff_of_true ((install_set.protected_iff start).mpr fun _ => ?_) fun e => ?_
    · rw [withRestorer_handler]
      exact crashHandler_own
    · rw [e] at crash
      exact absurd crash (by decide)
  next notCrash =>
  split
  · next ill => exact iff_of_true start fun e => absurd (ill.symm.trans e) (by decide)
  next notIll =>
  dsimp only
  split
  · next chld =>
    refine iff_of_true ((install_set.protected_iff ?_).mpr fun mem => ?_) fun e => ?_
    · exact start
    · rw [chld.1] at mem
      exact absurd mem (by decide)
    · rw [e, bus] at chld
      exact absurd chld.1 (by decide)
  · rw [install_set.protected_iff start, withRestorer_handler]
    constructor
    · intro own e
      refine own ?_
      rw [e, bus]
      decide
    · intro own mem
      refine own (xlateSignum_protected ?_ mem)
      simp only [List.mem_cons, List.not_mem_nil, or_false]
      tauto

lemma buildLinuxSa_handler {e : Env} {f : Frame} (notGo : e.tlsGAddr = 0) :
    (f.buildLinuxSa e).world.mem.read64 e.linuxSa =
      (f.world.mem.zero e.linuxSa 152).read64 f.args.a2 := by
  unfold Frame.buildLinuxSa
  dsimp only
  rw [if_neg (by rw [notGo]; exact Bool.false_ne_true),
    Mem.read64_store_apart (by simp) fun i lt => by simp; bv_omega,
    Mem.write64, Mem.read64_store_apart (by simp) fun i lt => by simp; bv_omega,
    Mem.read64_write64_self]

lemma setWidth_viaInt {f : W32 → W32} {a : W64} : (viaInt f a).setWidth 32 = f (a.setWidth 32) := by
  rw [viaInt]
  grind

lemma translateSigaction_given {e : Env} {f : Frame} (given : f.args.a2 ≠ 0) :
    (f.translateSigaction e).args.a1 = viaInt translateKillSignal f.args.a1 ∧
      (f.translateSigaction e).args.a2 = e.linuxSa ∧
      (f.translateSigaction e).args.a4 = f.args.a4 ∧
      (f.translateSigaction e).world = (f.buildLinuxSa e).world := by
  unfold Frame.translateSigaction
  rw [if_neg given]
  exact ⟨rfl, rfl, rfl, rfl⟩

lemma translateSigaction_null {e : Env} {f : Frame} (null : f.args.a2 = 0) :
    (f.translateSigaction e).args.a2 = 0 := by
  unfold Frame.translateSigaction
  rw [if_pos null]
  exact null

lemma rawSigaction_free {r : Regs} {w : World} (free : r.rdi ∉ [4, 11, 10]) :
    rawSigaction env r w st =
      rtSigactionCall ((Frame.init r w).translateSigaction env.sys).args
        ((Frame.init r w).translateSigaction env.sys).world.mem st := by
  simp only [List.mem_cons, List.not_mem_nil, or_false] at free
  have ok : (Frame.init r w).sigaction env.sys = .ok ((Frame.init r w).translateSigaction env.sys) :=
    if_neg free
  rw [rawSigaction, ok]

lemma rawSigaction_set {r : Regs} {w : World} (notGo : env.sys.tlsGAddr = 0) (free : r.rdi ∉ [4, 11, 10]) :
    (r.rsi ≠ 0 ∧ r.r10 = 8 ∧
      HandlerSet (translateKillSignal (r.rdi.setWidth 32)) (rawHandler env r w) st
        (rawSigaction env r w st)) ∨
      (¬ (r.rsi ≠ 0 ∧ r.r10 = 8) ∧ rawSigaction env r w st = st) := by
  rw [rawSigaction_free free, rtSigactionCall]
  by_cases given : r.rsi = 0
  · refine .inr ⟨fun h => h.1 given, ?_⟩
    rw [translateSigaction_null (f := Frame.init r w) given, if_pos rfl, rtSigaction_none, ite_self]
  obtain ⟨a1, a2, a4, world⟩ := @translateSigaction_given env.sys (Frame.init r w) given
  rw [a1, a2, a4, world, if_neg env.linuxSa_ne, setWidth_viaInt]
  by_cases size : r.r10 = 8
  · refine .inl ⟨given, size, ?_⟩
    rw [if_pos (show (Frame.init r w).args.a4 = 8 from size)]
    have handler : ((Frame.init r w).buildLinuxSa env.sys).world.mem.read64 env.sys.linuxSa =
        rawHandler env r w := buildLinuxSa_handler notGo
    rw [← handler]
    generalize ((Frame.init r w).buildLinuxSa env.sys).world.mem = m
    exact @rtSigaction_set _ (actionAt m env.sys.linuxSa) st
  · exact .inr ⟨fun h => size h.2, if_neg size⟩

lemma raw_step {r : Regs} {w : World} (notGo : env.sys.tlsGAddr = 0) (start : Protected env st) :
    Protected env (rawSigaction env r w st) ↔ Allowed env (.raw r w) := by
  by_cases turned : r.rdi ∈ [4, 11, 10]
  · have error : (Frame.init r w).sigaction env.sys = .error (.protectedSigaction, w) := by
      simp only [List.mem_cons, List.not_mem_nil, or_false] at turned
      exact (if_pos turned).trans (if_neg fun go => go.2 notGo)
    rw [rawSigaction, error]
    exact iff_of_true start fun _ _ free => absurd turned free
  rcases @rawSigaction_set env st r w notGo turned with ⟨given, size, set⟩ | ⟨idle, same⟩
  · rw [set.protected_iff start, translateKillSignal_protected_iff]
    exact ⟨fun own _ _ _ => own, fun own => own given size turned⟩
  · rw [same]
    exact iff_of_true start fun given size => absurd ⟨given, size⟩ idle

end Steps

/-- The handlers of the protected signals are macify's after every call exactly when the run has only calls that
    are allowed. -/
theorem handlers_kept_iff {env : SignalEnv} {st : SignalState} (calls : List GuestCall)
    (notGo : env.sys.tlsGAddr = 0) (start : Protected env st) :
    (∀ n, Protected env (run env st (calls.take n))) ↔ ∀ c ∈ calls, Allowed env c := by
  refine foldl_take_iff (fun st call start => ?_) start
  cases call with
  | sigaction signum act old => exact iff_of_true (sigaction_step notGo start) trivial
  | signal signum handler => exact signal_step start
  | raw r w => exact raw_step notGo start

def smallEnv : SignalEnv where
  sys := { plainEnv with linuxSa := 0x8000 }
  sigillHandler := 0x1000
  loaderCrashHandler := 0x1100
  crashHandler := 0x2000
  goSignalWrapper := 0x2100
  sigchldWrapper := 0x2200
  saRestorer := 0x2300
  libcRestorer := 0x3000
  libcFound := true
  stackFlags := 0
  linuxSa_ne := by decide

def smallStart : SignalState where
  actions sig := ⟨if sig = 4 then 0x1000 else 0x1100, SA_SIGINFO ||| SA_NODEFER ||| SA_ONSTACK, 0, 0⟩
  savedGoHandlers _ := 0
  savedSigchldHandler := 0
  resolved := false

def smallRaw (rdi : W64) : GuestCall :=
  .raw { callRegs 46 rdi 0x9000 0 0 with r10 := 8 }
    { World.start with mem := World.start.mem.write64 0x9000 0x7000 }

theorem handlers_kept_iff_two :
    Protected smallEnv (run smallEnv smallStart
      ([.signal 2 0x7000, .sigaction 10 (some ⟨0x7000, 0, 0⟩) true].take 2)) :=
  (handlers_kept_iff [.signal 2 0x7000, .sigaction 10 (some ⟨0x7000, 0, 0⟩) true] rfl
    (by decide)).mpr (List.forall_mem_cons.mpr ⟨fun e => absurd e (by decide),
      List.forall_mem_singleton.mpr trivial⟩) 2

/-- `signal` replaces that of `SIGBUS`, the raw syscall those of `SIGABRT` and of `SIGSEGV`, when the upper half
    is not clear. -/
theorem handlers_replaced :
    Protected smallEnv smallStart ∧ 0x7000 ∉ smallEnv.own ∧
      ((run smallEnv smallStart [.signal 10 0x7000]).actions 7).handler = 0x7000 ∧
      ((run smallEnv smallStart [smallRaw 6]).actions 6).handler = 0x7000 ∧
      ((run smallEnv smallStart [smallRaw 0x10000000B]).actions 11).handler = 0x7000 := by
  decide +kernel

end Macify.Signals
