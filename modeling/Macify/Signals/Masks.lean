import Macify.Lib.BitSets
import Macify.Signals.Protection

/-!
# Signal masks

A guest changes its signal mask by `sigprocmask` of the shim (`shim/signal/sigmask.c`) and by the raw syscall, which
`sigill_handler` translates. What that handler's `rt_sigprocmask` sets is the mask of the thread until it returns;
then the kernel puts back the mask of the interrupted code, kept in the frame. `MaskView` names the two moments.
-/

namespace Macify.Signals
open Lib Syscall

abbrev SIG_BLOCK : W32 := 0
abbrev SIG_UNBLOCK : W32 := 1
abbrev SIG_SETMASK : W32 := 2

def sigbit (sig : ℕ) : W64 := (1 : W64) <<< (sig - 1)

def unblockable : W64 := sigbit 9 ||| sigbit 19

def kernelSigmask (how : W32) (set : Option W64) (cur : W64) : Option W64 :=
  match set with
  | none => some cur
  | some set =>
    let set := set &&& ~~~unblockable
    if how = SIG_BLOCK then some (cur ||| set)
    else if how = SIG_UNBLOCK then some (cur &&& ~~~set)
    else if how = SIG_SETMASK then some set
    else none

def libcSigmask (how : W32) (set : Option W64) (cur : W64) : Option W64 :=
  kernelSigmask how (set.map (· &&& ~~~(sigbit 32 ||| sigbit 33))) cur

def rtSigprocmask (cur : W64) (a : Args) (m : Mem) : W64 × W64 × Mem :=
  if a.a4 = 8 then
    match kernelSigmask (a.a1.setWidth 32) (if a.a2 = 0 then none else some (m.read64 a.a2)) cur with
    | some blocked => (0, blocked, if a.a3 = 0 then m else m.write64 a.a3 cur)
    | none => (-EINVAL, cur, m)
  else (-EINVAL, cur, m)

def reverseXlate : List W32 :=
  (List.range 32).foldl (fun xlate m =>
    let l := macosSigToLinux (BitVec.ofNat 32 m)
    if (0 : W32).slt l ∧ l.slt 32 then xlate.set l.toNat (BitVec.ofNat 32 m) else xlate)
    (List.replicate 32 0)

def linuxSigToMacos (sig : W32) : W32 :=
  if sig.slt 0 ∨ (32 : W32).sle sig then sig
  else if reverseXlate.getD sig.toNat 0 = 0 then sig else reverseXlate.getD sig.toNat 0

def macosToLinuxSigset (set : W32) : W64 := shimMask set

def linuxToMacosSigset (set : W64) : W32 :=
  signals.foldl (fun mask ls =>
    let ms := linuxSigToMacos (BitVec.ofNat 32 ls)
    if set.getLsbD (ls - 1) ∧ (0 : W32).slt ms ∧ ms.sle 31 then
      mask ||| (1 : W32) <<< (ms.toNat - 1)
    else mask) 0

def sigdelset (set : W64) (sig : ℕ) : W64 := set &&& ~~~sigbit sig

def linuxHow (how : W32) : W32 :=
  if how = 1 then SIG_BLOCK else if how = 2 then SIG_UNBLOCK else if how = 3 then SIG_SETMASK else how

structure MaskResult where
  oldset : Option W32
  blocked : W64
  deriving DecidableEq

/-- `found` says whether the C library's `pthread_sigmask` is; otherwise the kernel is called directly. -/
def sigprocmask (found : Bool) (how : W32) (set : Option W32) (old : Bool) (cur : W64) : MaskResult :=
  let how := linuxHow how
  let linuxSet := set.map fun set =>
    if how = SIG_BLOCK ∨ how = SIG_SETMASK then [11, 7, 6, 4].foldl sigdelset (macosToLinuxSigset set)
    else macosToLinuxSigset set
  match (if found then libcSigmask how linuxSet cur else kernelSigmask how linuxSet cur) with
  | some blocked => ⟨if old then some (linuxToMacosSigset cur) else none, blocked⟩
  | none => ⟨none, cur⟩

/-- What `sigill_handler` reads, with static objects for its two sets, and the syscalls other than `rt_sigprocmask`. -/
structure MaskEnv where
  sys : Env
  set_ne : sys.linuxSetSigprocmask ≠ 0
  oset_ne : sys.linuxOsetSigprocmask ≠ 0
  rest : Kernel

def MaskEnv.kernel (env : MaskEnv) (cur : W64) : Kernel := fun nr a m =>
  if nr = SYS_rt_sigprocmask then
    ((rtSigprocmask cur a m).1, (rtSigprocmask cur a m).2.2)
  else env.rest nr a m

def rawSigprocmask (env : MaskEnv) (r : Regs) (w : World) (cur : W64) : MaskResult :=
  let f := (Frame.init r w).sigprocmask env.sys
  { oldset :=
      match sigillHandler env.sys (env.kernel cur) r w with
      | .returned r' w' => if r'.rax = 0 ∧ r.rdx ≠ 0 then some (w'.mem.read32 r.rdx) else none
      | .ended _ _ => none
    blocked := (rtSigprocmask cur f.args f.world.mem).2.1 }

abbrev MACOS_SYS_sigprocmask : ℕ := 48

inductive MaskView where
  | inHandler
  | afterReturn
  deriving DecidableEq

def MaskView.mask (v : MaskView) (cur blocked : W64) : W64 :=
  match v with
  | inHandler => blocked
  | afterReturn => cur

end Macify.Signals
