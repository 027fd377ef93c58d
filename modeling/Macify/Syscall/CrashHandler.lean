import Macify.Shim.Termination
import Macify.Syscall.SigillHandler

/-!
# The crash handler

Model of `crash_handler` (`src/syscall/crash_handler.c`), the loader's handler for `SIGSEGV`, `SIGBUS`, `SIGFPE` and
`SIGABRT`. It may end the process without an error, resume behind the faulting instruction, or resume at an address
in the guest's code that it finds on the stack.

Macros of macOS take the first word of a stream for a pointer, which makes for addresses with `0xFBAD` in the middle.
Main result: `stray_fault_recovered_iff`.
-/

namespace Macify.Syscall
open Lib
open Shim.Termination (Stream)

/-- The range of the guest's code, whether `MACIFY_TRACE_NULL_CRASH` is set, and the buffer of `stdout`. -/
structure CrashEnv where
  textLo : W64
  textHi : W64
  traceNullCrash : Bool
  stdout : Stream

structure SigInfo where
  code : W32
  addr : W64
  deriving DecidableEq

inductive CrashEnd where
  | resumed (r : Regs)
  | exited (status : W32)
  deriving DecidableEq

structure CrashResult where
  wrote : Buf
  ending : CrashEnd
  deriving DecidableEq

namespace Crash

abbrev SIGABRT : W32 := 6
abbrev SIGSEGV : W32 := 11
abbrev SI_KERNEL : W32 := 128

def within (lo hi v : W64) : Bool := decide (lo ≤ v) && decide (v < hi)

def userAddr (v : W64) : Bool := decide (0x10000 < v) && decide (v < 0x7fffffffffff)

section Code

variable (e : CrashEnv) (mem : Mem) (sig : W32) (info : SigInfo) (r : Regs)

def inText (v : W64) : Bool := within e.textLo e.textHi v

def flush : Buf := if e.stdout.flushable && e.stdout.sane then e.stdout.bytes mem else []

/-- The first block: an instruction pointer in the code, or up to a megabyte behind it. -/
def readlineCrash : Option CrashResult :=
  if sig = SIGSEGV ∧ within e.textLo (e.textHi + 0x100000) r.rip = true ∧ e.traceNullCrash = false then
    some ⟨flush e mem, .exited 0⟩
  else none

/-- The guess at the length of an instruction from its first two bytes. -/
def instrLen (b₀ b₁ : UInt8) : W64 :=
  if b₀ = 0x48 ∨ b₀ = 0x4C then if b₁ = 0x0F then 4 else 3
  else if b₀ = 0x0F then 3
  else if b₀ = 0x8A ∨ b₀ = 0x88 then 2
  else 3

def isFlagsAddr (addr : W64) : Bool := (addr >>> 16) &&& 0xFFFF == 0xFBAD

def skipped : Regs := { r with rip := r.rip + instrLen (mem r.rip) (mem (r.rip + 1)), rax := 0 }

def flagsFault : Option CrashResult :=
  if (sig = SIGSEGV ∨ sig = SIGABRT) ∧ isFlagsAddr info.addr = true then some ⟨[], .resumed (skipped mem r)⟩
  else none

def textFault : Option CrashResult :=
  if (sig = SIGSEGV ∨ sig = SIGABRT) ∧ inText e r.rip = true then some ⟨flush e mem, .exited 0⟩ else none

def returnTo (addr val : W64) : CrashEnd := .resumed { r with rip := val, rsp := addr + 8, rax := 0 }

def returnAddress (words : ℕ) : Option (W64 × W64) :=
  (List.range words).findSome? fun i =>
    let addr := r.rsp + BitVec.ofNat 64 i * 8
    if userAddr addr && inText e (mem.read64 addr) then some (addr, mem.read64 addr) else none

def kernelFault : Option CrashResult :=
  if sig = SIGSEGV ∧ info.code = SI_KERNEL ∧ info.addr = 0 ∧ e.traceNullCrash = false then
    let val := mem.read64 r.rsp
    if userAddr r.rsp && userAddr val && !within e.textLo (e.textHi + 0x200000) val then
      some ⟨[], returnTo r r.rsp val⟩
    else
      match returnAddress e mem r 16 with
      | some (addr, val) => some ⟨[], returnTo r addr val⟩
      | none => some ⟨flush e mem, .exited 0⟩
  else none

def jumpFault : Option CrashResult :=
  if sig = SIGSEGV ∧ (info.code = 1 ∨ info.code = 2) ∧ e.traceNullCrash = false ∧ userAddr r.rip = true ∧
      inText e r.rip = false then
    (returnAddress e mem r 32).map fun found => ⟨flush e mem, returnTo r found.1 found.2⟩
  else none

end Code

end Crash

open Crash in
def crashHandler (e : CrashEnv) (mem : Mem) (sig : W32) (info : SigInfo) (r : Regs) : CrashResult :=
  ((readlineCrash e mem sig r).or <| (flagsFault mem sig info r).or <| (textFault e mem sig r).or <|
    (kernelFault e mem sig info r).or <| jumpFault e mem sig info r).getD ⟨[], .exited (128 + sig)⟩

def CrashResult.Recovered (r : Regs) (length : W64) (out : CrashResult) : Prop :=
  out.ending = .resumed { r with rip := r.rip + length, rax := 0 }

namespace Crash

section Stray

variable {e : CrashEnv} {mem : Mem} {info : SigInfo} {r : Regs} {length : W64}

lemma readlineCrash_eq_none_iff (inside : inText e r.rip = true) :
    readlineCrash e mem SIGSEGV r = none ↔ e.traceNullCrash = true ∨ e.textHi + 0x100000 ≤ r.rip := by
  have above : e.textLo ≤ r.rip := by
    rw [inText, within, Bool.and_eq_true] at inside
    exact of_decide_eq_true inside.1
  rw [readlineCrash, ite_eq_right_iff]
  cases trace : e.traceNullCrash with
  | true => simp
  | false =>
    simp only [within, decide_eq_true above, Bool.true_and, decide_eq_true_eq, true_and, and_true,
      reduceCtorEq, imp_false, BitVec.not_lt, Bool.false_eq_true, false_or]

lemma crashHandler_of_readline {out : CrashResult} (first : readlineCrash e mem SIGSEGV r = some out) :
    crashHandler e mem SIGSEGV info r = out := by
  rw [crashHandler, first]
  rfl

lemma crashHandler_of_flags (first : readlineCrash e mem SIGSEGV r = none) (magic : isFlagsAddr info.addr = true) :
    crashHandler e mem SIGSEGV info r = ⟨[], .resumed (skipped mem r)⟩ := by
  rw [crashHandler, first, flagsFault, if_pos ⟨.inl rfl, magic⟩]
  rfl

lemma not_recovered_of_readline {out : CrashResult} (first : readlineCrash e mem SIGSEGV r = some out) :
    ¬out.Recovered r length := by
  rw [readlineCrash] at first
  split at first
  · cases first
    intro recovered
    cases recovered
  · cases first

lemma recovered_skipped_iff {wrote : Buf} :
    CrashResult.Recovered r length ⟨wrote, .resumed (skipped mem r)⟩ ↔
      instrLen (mem r.rip) (mem (r.rip + 1)) = length := by
  constructor
  · intro recovered
    have same := congrArg Regs.rip (CrashEnd.resumed.inj recovered)
    exact (BitVec.add_right_inj _).mp same
  · rintro rfl
    rfl

end Stray

end Crash

open Crash in
/-- Exactly when `MACIFY_TRACE_NULL_CRASH` is set, or the code ends within a megabyte of the end of the address
    space, and the length is the one guessed. -/
theorem stray_fault_recovered_iff (e : CrashEnv) (mem : Mem) (info : SigInfo) (r : Regs) (length : W64)
    (magic : isFlagsAddr info.addr = true) (inside : inText e r.rip = true) :
    (crashHandler e mem SIGSEGV info r).Recovered r length ↔
      (e.traceNullCrash = true ∨ e.textHi + 0x100000 ≤ r.rip) ∧
        instrLen (mem r.rip) (mem (r.rip + 1)) = length := by
  rw [← @readlineCrash_eq_none_iff e mem r inside]
  cases first : readlineCrash e mem SIGSEGV r with
  | none =>
    rw [crashHandler_of_flags first magic, recovered_skipped_iff]
    exact (and_iff_right rfl).symm
  | some out =>
    rw [crashHandler_of_readline first]
    exact iff_of_false (not_recovered_of_readline first) fun both => Option.some_ne_none _ both.1

namespace Crash

def strayEnv (traceNullCrash : Bool) : CrashEnv := ⟨0x1000, 0x2000, traceNullCrash, ⟨0, 0⟩⟩

def strayMem : Mem := fun a => byte [0x0F, 0xB6, 0x07] (a - 0x1100).toNat

def strayInfo : SigInfo := ⟨1, 0xFBAD2484⟩

def strayRegs : Regs := ⟨0, 0, 0, 0, 0, 0xFBAD2484, 0, 0, 0, 0, 0, 0, 0, 0, 0, 0, 0x1100, 0⟩

end Crash

open Crash in
theorem stray_fault_recovered_traced :
    isFlagsAddr strayInfo.addr = true ∧ inText (strayEnv true) strayRegs.rip = true ∧
      (crashHandler (strayEnv true) strayMem SIGSEGV strayInfo strayRegs).Recovered strayRegs 3 := by
  have magic : isFlagsAddr strayInfo.addr = true := by decide
  have inside : inText (strayEnv true) strayRegs.rip = true := by decide
  refine ⟨magic, inside, ?_⟩
  exact (stray_fault_recovered_iff (strayEnv true) strayMem strayInfo strayRegs 3 magic inside).mpr
    ⟨.inl rfl, by decide⟩

open Crash in
/-- Without the variable, the process ends at the same fault. -/
theorem stray_fault_ends_process :
    (crashHandler (strayEnv false) strayMem SIGSEGV strayInfo strayRegs).ending = .exited 0 ∧
      ∀ length, ¬(crashHandler (strayEnv false) strayMem SIGSEGV strayInfo strayRegs).Recovered
        strayRegs length := by
  have first : readlineCrash (strayEnv false) strayMem SIGSEGV strayRegs = some ⟨[], .exited 0⟩ := by decide
  rw [crashHandler_of_readline first]
  exact ⟨rfl, fun _ => not_recovered_of_readline first⟩

end Macify.Syscall
