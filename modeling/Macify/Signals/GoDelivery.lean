import Macify.Signals.Actions

/-!
# Signals of a Go process

In a Go process the kernel calls `macify_go_signal_wrapper` (`shim/signal/go_signal.c`) in place of the guest's
handlers, which are saved. It calls the saved handler once the Go runtime is up. Before that, it holds a signal back
by blocking it, unless it comes from an instruction. Main result: `sync_fault_delivered_iff`.
-/

namespace Macify.Signals
open Lib Syscall

abbrev SIGFPE : W32 := 8

abbrev SI_KERNEL : W32 := 128

/-- `SI_USER`, `SI_TKILL`, `SI_QUEUE`, `SI_TIMER`, `SI_SIGIO`, `SI_ASYNCIO`, `SI_MESGQ` and `SI_KERNEL`. -/
def heldCodes : List W32 := [0, -6, -1, -2, -5, -4, -3, SI_KERNEL]

inductive Delivered where
  | handler (fn : W64)
  | crashHandler
  | deferred (mask : W64)
  deriving DecidableEq

section Code

variable (env : SignalEnv) (mem : Mem)

/-- `go_is_ready`. The flag `macify_go_signal_ready` is set from the first time on that this is true. -/
def goIsReady (ready : Bool) : Bool :=
  let g := mem.read64 env.sys.tlsGAddr
  let m := mem.read64 (g + 0x30)
  ready || (env.sys.tlsGAddr != 0 && g != 0 && m != 0 && mem.read64 (m + 0x48) != 0 &&
    mem.read64 (m + 0xb8) != 0)

/-- The classification of the code; there may be no `siginfo_t`. -/
def syncFault : Option W32 → Bool
  | some code => !heldCodes.contains code
  | none => true

/-- The set that is blocked: `sigaddset` refuses numbers that are none, and those of the C library. -/
def deferMask (sig : W32) : W64 :=
  if (1 : W32).sle sig ∧ sig.sle 64 ∧ sig ≠ 32 ∧ sig ≠ 33 then (1 : W64) <<< (sig.toNat - 1) else 0

def goSignalWrapper (st : SignalState) (ready : Bool) (sig : W32) (info : Option W32) : Delivered :=
  if goIsReady env mem ready then
    if (0 : W32).sle sig ∧ sig.slt 32 ∧ st.savedGoHandlers sig.toNat ≠ SIG_DFL then
      .handler (st.savedGoHandlers sig.toNat)
    -- the case without a handler is that of a runtime that is not up
    else .deferred (deferMask sig)
  else if syncFault info then .crashHandler
  else .deferred (deferMask sig)

end Code

/-- Neither of the two values that stand for an action. -/
def IsFunction (handler : W64) : Prop := handler ≠ SIG_DFL ∧ handler ≠ SIG_IGN

def Delivered.Prompt : Delivered → Prop
  | .handler fn => IsFunction fn
  | .crashHandler => True
  | .deferred _ => False

def faultSignals : List W32 := [SIGSEGV, SIGBUS, SIGILL, SIGFPE]

section Delivery

variable {env : SignalEnv} {mem : Mem} {st : SignalState} {ready : Bool} {sig code : W32}

lemma toNat_lt_of_fault (fault : sig ∈ faultSignals) : sig.toNat < 32 := by
  simp only [faultSignals, List.mem_cons, List.not_mem_nil, or_false] at fault
  rcases fault with rfl | rfl | rfl | rfl
  all_goals decide

lemma prompt_of_ready (up : goIsReady env mem ready = true) (small : sig.toNat < 32) {info : Option W32} :
    (goSignalWrapper env mem st ready sig info).Prompt ↔ IsFunction (st.savedGoHandlers sig.toNat) := by
  obtain ⟨ge, lt⟩ := signed_small_iff.mpr small
  rw [goSignalWrapper, if_pos up]
  by_cases default : st.savedGoHandlers sig.toNat = SIG_DFL
  · rw [if_neg fun all => all.2.2 default]
    exact iff_of_false id fun function => function.1 default
  · rw [if_pos ⟨ge, lt, default⟩]
    rfl

lemma syncFault_iff (sync : (0 : W32).slt code = true) : syncFault (some code) = true ↔ code ≠ SI_KERNEL := by
  rw [syncFault, Bool.not_eq_true', ← Bool.not_eq_true, List.contains_iff_mem, not_iff_not]
  constructor
  · intro held
    simp only [heldCodes, List.mem_cons, List.not_mem_nil, or_false] at held
    rcases held with rfl | rfl | rfl | rfl | rfl | rfl | rfl | rfl
    all_goals first | rfl | exact absurd sync (by decide)
  · rintro rfl
    decide

lemma prompt_of_not_ready (down : goIsReady env mem ready = false) (sync : (0 : W32).slt code = true) :
    (goSignalWrapper env mem st ready sig (some code)).Prompt ↔ code ≠ SI_KERNEL := by
  rw [goSignalWrapper, down, if_neg Bool.false_ne_true, ← syncFault_iff sync]
  cases syncFault (some code) with
  | true => exact iff_of_true trivial rfl
  | false => exact iff_of_false id Bool.false_ne_true

/-- A handler that is a function or the crash handler is called exactly when the runtime is up and the saved
    handler is a function, or it is not up and the code is not `SI_KERNEL`. -/
theorem sync_fault_delivered_iff (env : SignalEnv) (mem : Mem) (st : SignalState) (ready : Bool)
    (sig code : W32) (fault : sig ∈ faultSignals) (sync : (0 : W32).slt code = true) :
    (goSignalWrapper env mem st ready sig (some code)).Prompt ↔
      (goIsReady env mem ready = true ∧ IsFunction (st.savedGoHandlers sig.toNat)) ∨
        (goIsReady env mem ready = false ∧ code ≠ SI_KERNEL) := by
  cases up : goIsReady env mem ready with
  | true =>
    rw [prompt_of_ready up (toNat_lt_of_fault fault)]
    simp
  | false =>
    rw [prompt_of_not_ready up sync]
    simp

end Delivery

def goEnv : SignalEnv where
  sys := { plainEnv with tlsGAddr := 0x5000, linuxSa := 0x8000 }
  sigillHandler := 0x1000
  loaderCrashHandler := 0x1100
  crashHandler := 0x2000
  goSignalWrapper := 0x2100
  sigchldWrapper := 0x2200
  saRestorer := 0x2300
  libcRestorer := 0x3000
  libcFound := true
  stackFlags := 0
  linuxSa_ne := by decide

def goStart : SignalState := ⟨fun _ => ⟨0x2100, 0, 0, 0⟩, fun _ => 0x7000, 0, true⟩

theorem sync_fault_delivered_start :
    SIGSEGV ∈ faultSignals ∧ (0 : W32).slt 1 = true ∧
      (goSignalWrapper goEnv (fun _ => 0) goStart false SIGSEGV (some 1)).Prompt := by
  have fault : SIGSEGV ∈ faultSignals := .head _
  refine ⟨fault, by decide, ?_⟩
  exact (sync_fault_delivered_iff goEnv (fun _ => 0) goStart false SIGSEGV 1 fault (by decide)).mpr
    (.inr ⟨by decide, by decide⟩)

/-- A general-protection fault at the same time is held back. -/
theorem sync_fault_deferred_start :
    goSignalWrapper goEnv (fun _ => 0) goStart false SIGSEGV (some SI_KERNEL) = .deferred 0x400 ∧
      ¬(goSignalWrapper goEnv (fun _ => 0) goStart false SIGSEGV (some SI_KERNEL)).Prompt := by
  have held : goSignalWrapper goEnv (fun _ => 0) goStart false SIGSEGV (some SI_KERNEL) = .deferred 0x400 := by
    decide
  rw [held]
  exact ⟨rfl, id⟩

end Macify.Signals
