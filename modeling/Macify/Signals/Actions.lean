import Macify.Lib.BitSets
import Macify.Syscall.Convention

/-!
# Signal actions

The three ways in which a guest changes the action of a signal: `sigaction` and `signal` of the shim
(`shim/signal/sigaction.c`), and the raw syscall, which `sigill_handler` translates. Signals have macOS numbers on the
side of the guest and Linux numbers in the table. The kernel is what `rt_sigaction` does to the table.
-/

namespace Macify.Signals
open Lib Syscall

structure LinuxAction where
  handler : W64
  flags : W32
  restorer : W64
  mask : W64
  deriving DecidableEq

structure MacosAction where
  handler : W64
  mask : W32
  flags : W32
  deriving DecidableEq

/-- The kernel's table, `macify_saved_go_handlers`, `macify_saved_sigchld_handler`, and whether `real_sigaction` is
    set. -/
structure SignalState where
  actions : ℕ → LinuxAction
  savedGoHandlers : ℕ → W64
  savedSigchldHandler : W64
  resolved : Bool

/-- What `sigill_handler` reads, macify's handlers, the restorers, whether `sigaction` is found, and the stack
    where the old flags are put. -/
structure SignalEnv where
  sys : Env
  sigillHandler : W64
  loaderCrashHandler : W64
  crashHandler : W64
  goSignalWrapper : W64
  sigchldWrapper : W64
  saRestorer : W64
  libcRestorer : W64
  libcFound : Bool
  stackFlags : W32
  linuxSa_ne : sys.linuxSa ≠ 0

abbrev SIGILL : W32 := 4
abbrev SIGABRT : W32 := 6
abbrev SIGBUS : W32 := 7
abbrev SIGKILL : W32 := 9
abbrev SIGSEGV : W32 := 11
abbrev SIGALRM : W32 := 14
abbrev SIGCHLD : W32 := 17
abbrev SIGSTOP : W32 := 19

abbrev SIG_DFL : W64 := 0
abbrev SIG_IGN : W64 := 1

abbrev SA_RESTORER : W32 := 0x04000000
abbrev SA_RESTART : W32 := 0x10000000

def SignalState.setAction (st : SignalState) (sig : ℕ) (act : LinuxAction) : SignalState :=
  { st with actions := fun k => if k = sig then act else st.actions k }

def rtSigaction (sig : W32) (act : Option LinuxAction) (st : SignalState) : W32 × SignalState :=
  if (1 : W32).sle sig ∧ sig.sle 64 then
    match act with
    | none => (0, st)
    | some act =>
      if sig = SIGKILL ∨ sig = SIGSTOP then (-1, st) else (0, st.setAction sig.toNat act)
  else (-1, st)

/-- The C library keeps two signals for itself and sets its own restorer. -/
def libcSigaction (env : SignalEnv) (sig : W32) (act : Option LinuxAction) (st : SignalState) : W32 × SignalState :=
  if sig = 32 ∨ sig = 33 then (-1, st)
  else
    rtSigaction sig (act.map fun act =>
      { act with flags := act.flags ||| SA_RESTORER, restorer := env.libcRestorer }) st

/-- What the kernel reads when it is given the C library's structure, which has the mask before the flags. -/
def LinuxAction.misread (act : LinuxAction) : LinuxAction := ⟨act.handler, act.mask.setWidth 32, 0, 0⟩

/-- `real_sigaction`, or `syscall(13, …)` with the same structures as long as that is not set. -/
def install (env : SignalEnv) (sig : W32) (act : Option LinuxAction) (st : SignalState) : W32 × SignalState :=
  if st.resolved then libcSigaction env sig act st
  else rtSigaction sig (act.map LinuxAction.misread) st

/-- The old action as `sigaction` hands it to the guest. -/
def oldactOf (env : SignalEnv) (resolved : Bool) (before : LinuxAction) : MacosAction :=
  if resolved then ⟨before.handler, before.mask.setWidth 32, before.flags⟩
  else ⟨before.handler, before.flags, env.stackFlags⟩

def shimXlate : List W32 :=
  [0, 1, 2, 3, 4, 5, 6, 0, 8, 9, 7, 11, 31, 13, 14, 15, 23, 19, 20, 18, 17, 21, 22, 29, 24, 25, 26,
   27, 28, 0, 10, 12]

def macosSigToLinux (sig : W32) : W32 :=
  if sig.slt 0 ∨ (32 : W32).sle sig then sig else shimXlate.getD sig.toNat 0

/-- The translation in `sigaction` and `signal`: a signal without an equivalent keeps its number. -/
def xlateSignum (sig : W32) : W32 :=
  if (0 : W32).sle sig ∧ sig.slt 32 ∧ shimXlate.getD sig.toNat 0 ≠ 0 then
    shimXlate.getD sig.toNat 0
  else sig

def shimFlagTable : List (W32 × W32) := saFlagTable ++ [(0x0080, SA_RESTORER)]

def shimMask (macosMask : W32) : W64 :=
  signals.foldl (fun mask ms =>
    let ls := macosSigToLinux (BitVec.ofNat 32 ms)
    if macosMask.getLsbD (ms - 1) ∧ (0 : W32).slt ls then
      mask ||| (1 : W64) <<< (ls.toNat - 1)
    else mask) 0

def LinuxAction.withRestorer (env : SignalEnv) (act : LinuxAction) : LinuxAction :=
  if env.saRestorer = 0 then act
  else { act with flags := act.flags ||| SA_RESTORER, restorer := env.saRestorer }

def SignalState.saveGo (st : SignalState) (sig : ℕ) (handler : W64) : SignalState :=
  { st with savedGoHandlers := fun k => if k = sig then handler else st.savedGoHandlers k }

/-- The action that `sigaction` installs for the Linux signal `sig`, if any. -/
def shimAction (env : SignalEnv) (sig : W32) (act : MacosAction) : Option LinuxAction :=
  let linuxAct : LinuxAction :=
    ⟨act.handler, mapBits act.flags shimFlagTable 0, 0, shimMask act.mask⟩
  let goAct := { linuxAct with
    handler := env.goSignalWrapper, flags := SA_SIGINFO ||| SA_ONSTACK ||| SA_NODEFER }
  if sig = SIGSEGV ∨ sig = SIGBUS then
    if env.sys.tlsGAddr ≠ 0 then some (goAct.withRestorer env)
    else
      some (LinuxAction.withRestorer env
        { linuxAct with handler := env.crashHandler, flags := SA_SIGINFO ||| SA_ONSTACK })
  else if sig = SIGILL then none
  else if env.sys.tlsGAddr ≠ 0 then some (goAct.withRestorer env)
  else some (linuxAct.withRestorer env)

/-- A Go process also saves the handler of the guest, except for `SIGILL`. -/
def shimSave (env : SignalEnv) (sig : W32) (act : MacosAction) (st : SignalState) : SignalState :=
  if env.sys.tlsGAddr ≠ 0 ∧ sig ≠ SIGILL ∧ (0 : W32).sle sig ∧ sig.slt 32 then
    st.saveGo sig.toNat act.handler
  else st

structure SigactionResult where
  ret : W32
  oldact : Option MacosAction
  state : SignalState

/-- `sigaction`, called by the guest. The last argument says whether `oldact` is given. -/
def sigaction (env : SignalEnv) (signum : W32) (act : Option MacosAction) (old : Bool)
    (st : SignalState) : SigactionResult :=
  if (signum = SIGSEGV ∨ signum = SIGABRT ∨ signum = SIGALRM) ∧ act.isSome ∧
      ¬ (signum = SIGSEGV ∧ env.sys.tlsGAddr ≠ 0) then
    ⟨0, none, st⟩
  else
    let sig := xlateSignum signum
    let st := { st with resolved := st.resolved || env.libcFound }
    let oldact := oldactOf env st.resolved (st.actions sig.toNat)
    let (ret, st) := install env sig (act.bind (shimAction env sig))
      (act.elim st fun act => shimSave env sig act st)
    ⟨ret, if old ∧ ret = 0 then some oldact else none, st⟩

/-- It compares the macOS number with Linux constants. The result is always `SIG_DFL`. -/
def signal (env : SignalEnv) (signum : W32) (handler : W64) (st : SignalState) : SignalState :=
  if signum = SIGALRM then st
  else if signum = SIGSEGV ∨ signum = SIGBUS ∨ signum = SIGABRT then
    (install env signum (some (LinuxAction.withRestorer env
      ⟨env.crashHandler, SA_SIGINFO ||| SA_ONSTACK ||| SA_NODEFER, 0, 0⟩)) st).2
  else if signum = SIGILL then st
  else
    let sig := xlateSignum signum
    if sig = SIGCHLD ∧ handler ≠ SIG_DFL ∧ handler ≠ SIG_IGN then
      (install env sig (some (LinuxAction.withRestorer env
        ⟨env.sigchldWrapper, SA_SIGINFO ||| SA_RESTART, 0, 0⟩))
        { st with savedSigchldHandler := handler }).2
    else (install env sig (some (LinuxAction.withRestorer env ⟨handler, 0, 0, 0⟩)) st).2

def actionAt (m : Mem) (p : W64) : LinuxAction :=
  ⟨m.read64 p, (m.read64 (p + 8)).setWidth 32, m.read64 (p + 16), m.read64 (p + 24)⟩

def rtSigactionCall (a : Args) (m : Mem) (st : SignalState) : SignalState :=
  if a.a4 = 8 then
    (rtSigaction (a.a1.setWidth 32) (if a.a2 = 0 then none else some (actionAt m a.a2)) st).2
  else st

/-- The raw `sigaction` syscall: the handler may leave without a call. -/
def rawSigaction (env : SignalEnv) (r : Regs) (w : World) (st : SignalState) : SignalState :=
  match (Frame.init r w).sigaction env.sys with
  | .error _ => st
  | .ok f => rtSigactionCall f.args f.world.mem st

abbrev MACOS_SYS_sigaction : ℕ := 46

lemma dispatch_sigaction {env : Env} {kernel : Kernel} {r : Regs} {w : World} (nr : r.bsdNr = MACOS_SYS_sigaction) :
    (∃ e, (Frame.init r w).sigaction env = .error e ∧ dispatch env kernel r w = e) ∨
      ∃ f, (Frame.init r w).sigaction env = .ok f ∧
        dispatch env kernel r w = issue env kernel MACOS_SYS_sigaction f ∧
        bsdToLinux MACOS_SYS_sigaction = SYS_rt_sigaction := by
  have flag : bsdArgFlags r.bsdNr &&& ARG_SIGACTION ≠ 0 := by rw [nr]; decide
  rw [dispatch_flagged flag (by decide), argFlags_sigaction flag, translateArgs_sigaction, nr]
  cases (Frame.init r w).sigaction env with
  | error e => exact .inl ⟨e, rfl, rfl⟩
  | ok f => exact .inr ⟨f, rfl, rfl, rfl⟩

section Tables

variable {sig : W32}

lemma signed_small_iff : ((0 : W32).sle sig = true ∧ sig.slt 32 = true) ↔ sig.toNat < 32 := by
  rw [BitVec.sle_iff_toInt_le, BitVec.slt_iff_toInt_lt, BitVec.toInt_eq_toNat_cond sig]
  show (0 ≤ _ ∧ _ < (32 : ℤ)) ↔ _
  have lt := sig.isLt
  split
  · omega
  · omega

lemma signed_large_iff : (sig.slt 0 || (32 : W32).sle sig) = true ↔ ¬ sig.toNat < 32 := by
  rw [Bool.or_eq_true, BitVec.sle_iff_toInt_le, BitVec.slt_iff_toInt_lt, BitVec.toInt_eq_toNat_cond sig]
  show (_ < (0 : ℤ) ∨ 32 ≤ _) ↔ _
  have lt := sig.isLt
  split
  · omega
  · omega

lemma xlateSignum_large (large : ¬ sig.toNat < 32) : xlateSignum sig = sig := by
  rw [xlateSignum, if_neg fun h => large (signed_small_iff.mp ⟨h.1, h.2.1⟩)]

lemma translateKillSignal_large (large : ¬ sig.toNat < 32) : translateKillSignal sig = sig := by
  rw [translateKillSignal, if_pos (signed_large_iff.mpr large)]

lemma signum_rule {P : W32 → Prop} (entries : ∀ n : Fin 32, P (BitVec.ofNat 32 n))
    (large : ¬ sig.toNat < 32 → P sig) : P sig := by
  by_cases lt : sig.toNat < 32
  · exact word_rule lt entries
  · exact large lt

end Tables

end Macify.Signals
