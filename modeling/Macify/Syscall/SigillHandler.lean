import Macify.Lib.Memory
import Macify.Image.Types
import Macify.Syscall.FlagTranslation
import Macify.Syscall.Table

/-!
# The SIGILL handler

Model of `sigill_handler` (`src/syscall/sigill_handler.c`), the slow path of every patched syscall. It translates the
arguments that the flags of the entry name, issues the Linux syscall, copies results back and resumes after the
`ud2`. The kernel is a parameter. `dispatch` does everything up to the point where the registers are written, and
`resume` writes them at the exit that was taken.
-/

namespace Macify.Syscall
open Lib Image

structure Regs where
  rax : W64
  rbx : W64
  rcx : W64
  rdx : W64
  rsi : W64
  rdi : W64
  rbp : W64
  rsp : W64
  r8 : W64
  r9 : W64
  r10 : W64
  r11 : W64
  r12 : W64
  r13 : W64
  r14 : W64
  r15 : W64
  rip : W64
  efl : W64
  deriving DecidableEq

structure Args where
  a1 : W64
  a2 : W64
  a3 : W64
  a4 : W64
  a5 : W64
  a6 : W64
  deriving DecidableEq

def Regs.args (r : Regs) : Args := ⟨r.rdi, r.rsi, r.rdx, r.r10, r.r8, r.r9⟩

def Regs.cf (r : Regs) : Bool := r.efl.getLsbD 0

abbrev Kernel := ℕ → Args → Mem → W64 × Mem

structure World where
  mem : Mem
  errno : W32
  calls : List (ℕ × Args)

/-- What the handler reads besides registers and memory: `MACIFY_LENIENT_SYSCALLS`, `g_tls_g_addr`, the two
    shim symbols, and the addresses of its buffers. -/
structure Env where
  lenient : Bool
  tlsGAddr : W64
  goSignalWrapper : W64
  savedGoHandlers : W64
  kpath : W64
  linuxSa : W64
  linuxOldSa : W64
  linuxSetSigprocmask : W64
  linuxOsetSigprocmask : W64
  linuxSsSigaltstack : W64
  linuxOssSigaltstack : W64
  fallbackSigstack : W64

def rawSyscall (kernel : Kernel) (nr : ℕ) (a : Args) (w : World) : W64 × World :=
  let (result, mem) := kernel nr a w.mem
  (result, { w with mem := mem, calls := w.calls ++ [(nr, a)] })

def isErr (result : W64) : Bool := result.slt 0 && (-4096 : W64).slt result

abbrev EINVAL : W64 := 22
abbrev ENOSYS : W64 := 38
abbrev AT_FDCWD : W64 := -100
abbrev SYS_exit_group : ℕ := 231

inductive Exit where
  | ended (status : W64)
  | finish (result : W64)
  | unsupportedFcntl
  | protectedSigaction
  | tail (result : W64)
  deriving DecidableEq

structure Frame where
  args : Args
  sigprocmaskOset : W64
  sigaltstackOss : W64
  sigactionOldact : W64
  world : World

def Frame.init (r : Regs) (w : World) : Frame := ⟨r.args, 0, 0, 0, w⟩

def viaInt (f : W32 → W32) (a : W64) : W64 :=
  (f (a.setWidth 32)).signExtend 64

def Frame.openFlags (f : Frame) : Frame :=
  { f with args := { f.args with a2 := viaInt translateOpenFlags f.args.a2 } }

def Frame.mmapFlags (f : Frame) : Frame :=
  { f with args := { f.args with a4 := viaInt translateMmapFlags f.args.a4 } }

def Frame.killSignal (f : Frame) : Frame :=
  { f with args := { f.args with a2 := viaInt translateKillSignal f.args.a2 } }

def Frame.madvise (f : Frame) : Frame :=
  { f with args := { f.args with a3 := viaInt translateMadvise f.args.a3 } }

abbrev MACOS_F_RDADVISE : W32 := 44
abbrev MACOS_F_RDAHEAD : W32 := 45
abbrev MACOS_F_NOCACHE : W32 := 48
abbrev MACOS_F_GETPATH : W32 := 50
abbrev MACOS_F_FULLFSYNC : W32 := 51
abbrev MACOS_F_GLOBAL_NOCACHE : W32 := 55
abbrev MACOS_F_SETNOSIGPIPE : W32 := 73
abbrev MACOS_F_GETNOSIGPIPE : W32 := 74

def fcntlNoOps : List W32 :=
  [MACOS_F_RDADVISE, MACOS_F_RDAHEAD, MACOS_F_NOCACHE, MACOS_F_GLOBAL_NOCACHE,
   MACOS_F_SETNOSIGPIPE, MACOS_F_GETNOSIGPIPE]

def fdPath (a1 : W64) : Buf := ascii "/proc/self/fd/" ++ ascii (toString a1.toInt) ++ [0]

def fcntlGetpath (env : Env) (kernel : Kernel) (f : Frame) : Exit × World :=
  let w := { f.world with mem := f.world.mem.store env.kpath (fdPath f.args.a1) }
  let (r, w) := rawSyscall kernel SYS_readlinkat
    ⟨AT_FDCWD, env.kpath, f.args.a3, f.args.a4, 0, 0⟩ w
  let w :=
    if (0 : W64).sle r && f.args.a3 != 0 && r.slt f.args.a4 then
      { w with mem := w.mem.store (f.args.a3 + r) [0] }
    else w
  (.finish (if (0 : W64).sle r then 0 else r), w)

def Frame.fcntlCmd (env : Env) (kernel : Kernel) (f : Frame) : Except (Exit × World) Frame :=
  let cmd := f.args.a2.setWidth 32
  if cmd = MACOS_F_GETPATH then .error (fcntlGetpath env kernel f)
  else if cmd = MACOS_F_FULLFSYNC then
    let (r, w) := rawSyscall kernel SYS_fsync ⟨f.args.a1, 0, 0, 0, 0, 0⟩ f.world
    .error (.finish r, w)
  else if cmd ∈ fcntlNoOps then .error (.finish 0, f.world)
  else if (translateFcntlCmd cmd).slt 0 then .error (.unsupportedFcntl, f.world)
  else .ok { f with args := { f.args with a2 := viaInt translateFcntlCmd f.args.a2 } }

def saFlagTable : List (W32 × W32) :=
  [(0x0001, 0x08000000), (0x0002, 0x10000000), (0x0004, 0x80000000), (0x0008, 0x00000001),
   (0x0010, 0x40000000), (0x0020, 0x00000002), (0x0040, 0x00000004)]

abbrev SA_SIGINFO : W32 := 0x00000004
abbrev SA_ONSTACK : W32 := 0x08000000
abbrev SA_NODEFER : W32 := 0x40000000

def signals : List ℕ := List.range' 1 31

def linuxMaskOf (macosMask : W32) : W64 :=
  signals.foldl (fun mask ms =>
    if macosMask.getLsbD (ms - 1) then
      let ls := translateKillSignal (BitVec.ofNat 32 ms)
      if (0 : W32).slt ls && ls.slt 64 then
        mask ||| (1 : W64) <<< (ls.toNat - 1)
      else mask
    else mask) 0

/-- The bit of the first macOS signal that `translate_kill_signal` sends to `ls`. -/
def macosBitOf (ls : ℕ) : W32 :=
  match signals.find? fun ms => translateKillSignal (BitVec.ofNat 32 ms) == BitVec.ofNat 32 ls with
  | some ms => (1 : W32) <<< (ms - 1)
  | none => 0

def macosMaskOf (mem : ℕ → Bool) : W32 :=
  signals.foldl (fun mask ls => if mem ls then mask ||| macosBitOf ls else mask) 0

/-- In a Go process with both shim symbols the wrapper is installed and the guest's handler is saved. -/
def Frame.buildLinuxSa (env : Env) (f : Frame) : Frame :=
  let macosSa := f.args.a2
  let m := f.world.mem.zero env.linuxSa 152
  let linuxFlags := mapBits (m.read32 (macosSa + 12)) saFlagTable 0
  let goHandler := m.read64 macosSa
  -- without the shim symbols a Go process falls back to the handler of the guest
  let (m, handler, flags) :=
    if env.tlsGAddr != 0 && (env.goSignalWrapper != 0 && env.savedGoHandlers != 0) then
      let ls := translateKillSignal (f.args.a1.setWidth 32)
      let m :=
        if (0 : W32).slt ls && ls.slt 32 then
          m.write64 (env.savedGoHandlers + 8 * ls.setWidth 64) goHandler
        else m
      (m, env.goSignalWrapper, SA_SIGINFO ||| SA_ONSTACK ||| SA_NODEFER)
    else (m, goHandler, linuxFlags ||| SA_ONSTACK)
  let m := m.write64 env.linuxSa handler
  let m := m.write64 (env.linuxSa + 8) (flags.setWidth 64)
  let linuxMask := linuxMaskOf (m.read32 (macosSa + 8))
  let m := m.store (env.linuxSa + 24) (Mem.leBytes 8 linuxMask.toNat ++ List.replicate 120 0)
  { f with
    args := { f.args with a1 := viaInt translateKillSignal f.args.a1, a2 := env.linuxSa }
    world := { f.world with mem := m } }

def Frame.translateSigaction (env : Env) (f : Frame) : Frame :=
  let f := if f.args.a2 = 0 then f else f.buildLinuxSa env
  { f with
    args := { f.args with a3 := if f.args.a3 = 0 then 0 else env.linuxOldSa }
    sigactionOldact := f.args.a3 }

def Frame.sigaction (env : Env) (f : Frame) : Except (Exit × World) Frame :=
  let a1 := f.args.a1
  if a1 = 4 ∨ a1 = 11 ∨ a1 = 10 then
    if a1 ≠ 4 ∧ env.tlsGAddr ≠ 0 then
      -- the number is translated here and once more after the label if there is an action
      let f := { f with args := { f.args with a1 := viaInt translateKillSignal a1 } }
      .ok (f.translateSigaction env)
    else .error (.protectedSigaction, f.world)
  else .ok (f.translateSigaction env)

def Frame.sigprocmask (env : Env) (f : Frame) : Frame :=
  let a := f.args
  let linuxMask := linuxMaskOf (f.world.mem.read32 a.a2)
  let linuxMask :=
    if a.a1 = 1 ∨ a.a1 = 3 then
      linuxMask &&& ~~~((1 : W64) <<< 10) &&& ~~~((1 : W64) <<< 5)
    else linuxMask
  { f with
    args := { a with
      a2 := if a.a2 = 0 then 0 else env.linuxSetSigprocmask
      a3 := if a.a3 = 0 then 0 else env.linuxOsetSigprocmask
      a4 := 8 }
    sigprocmaskOset := a.a3
    world :=
      if a.a2 = 0 then f.world
      else { f.world with mem := f.world.mem.write64 env.linuxSetSigprocmask linuxMask } }

/-- The Linux `stack_t`: `ss_sp`, `ss_flags` and `ss_size`. Disabling the stack installs the fallback stack,
    and `SS_ONSTACK` is cleared. -/
def linuxStack (env : Env) (m : Mem) (macosSs : W64) : W64 × W32 × W64 :=
  let flags := m.read32 (macosSs + 16)
  if flags &&& 1 = 0 then (m.read64 macosSs, flags &&& ~~~2, m.read64 (macosSs + 8))
  else (env.fallbackSigstack, 0 &&& ~~~2, 1024 * 1024)

def Frame.sigaltstack (env : Env) (f : Frame) : Frame :=
  let a := f.args
  let m := f.world.mem.zero env.linuxSsSigaltstack 24
  let (sp, flags, size) := linuxStack env m a.a1
  let m := m.write64 env.linuxSsSigaltstack sp
  let m := m.write32 (env.linuxSsSigaltstack + 8) flags
  let m := m.write64 (env.linuxSsSigaltstack + 16) size
  { f with
    args := { a with
      a1 := if a.a1 = 0 then 0 else env.linuxSsSigaltstack
      a2 := if a.a2 = 0 then 0 else env.linuxOssSigaltstack }
    sigaltstackOss := a.a2
    world := if a.a1 = 0 then f.world else { f.world with mem := m } }

def Frame.onFlag (flags flag : BitVec 16) (step : Frame → Frame) (f : Frame) : Frame :=
  if flags &&& flag = 0 then f else step f

/-- The translations in source order; two of them may leave the handler. -/
def translateArgs (env : Env) (kernel : Kernel) (flags : BitVec 16) (f : Frame) : Except (Exit × World) Frame := do
  let f := f.onFlag flags ARG_OPEN_FLAGS .openFlags
  let f := f.onFlag flags ARG_MMAP_FLAGS .mmapFlags
  let f := f.onFlag flags ARG_KILL_SIGNAL .killSignal
  let f ← if flags &&& ARG_FCNTL_CMD = 0 then .ok f else f.fcntlCmd env kernel
  let f := f.onFlag flags ARG_MADVISE .madvise
  let f ← if flags &&& ARG_SIGACTION = 0 then .ok f else f.sigaction env
  let f := f.onFlag flags ARG_SIGPROCMASK (.sigprocmask env)
  let f := f.onFlag flags ARG_SIGALTSTACK (.sigaltstack env)
  .ok f

/-- To the macOS layout at `mo`. The mask test is the source's: byte `ls / 8`, bit `ls % 8`. -/
def copyOldact (env : Env) (m : Mem) (mo : W64) : Mem :=
  let lsa := env.linuxOldSa
  let m := m.write64 mo (m.read64 lsa)
  let inMask := fun ls => (m (lsa + 24 + BitVec.ofNat 64 (ls / 8))).toNat.testBit (ls % 8)
  let m := m.write32 (mo + 8) (macosMaskOf inMask)
  let flags := (m.read64 (lsa + 8)).setWidth 32
  m.write32 (mo + 12) (mapBits flags (saFlagTable.map Prod.swap) 0)

def copyOset (env : Env) (m : Mem) (oset : W64) : Mem :=
  let linuxMask := m.read64 env.linuxOsetSigprocmask
  m.write32 oset (macosMaskOf fun ls => linuxMask.getLsbD (ls - 1))

def copyOss (env : Env) (m : Mem) (oss : W64) : Mem :=
  let m := m.write64 oss (m.read64 env.linuxOssSigaltstack)
  let m := m.write64 (oss + 8) (m.read64 (env.linuxOssSigaltstack + 16))
  m.write32 (oss + 16) (m.read32 (env.linuxOssSigaltstack + 8))

def Frame.copyBack (env : Env) (flags : BitVec 16) (f : Frame) (result : W64) (m : Mem) : Mem :=
  let m := if f.sigactionOldact ≠ 0 ∧ result = 0 then copyOldact env m f.sigactionOldact else m
  let m :=
    if flags &&& ARG_SIGPROCMASK ≠ 0 ∧ f.sigprocmaskOset ≠ 0 ∧ result = 0 then
      copyOset env m f.sigprocmaskOset
    else m
  if flags &&& ARG_SIGALTSTACK ≠ 0 ∧ f.sigaltstackOss ≠ 0 ∧ result = 0 then
    copyOss env m f.sigaltstackOss
  else m

def macosResult (result : W64) : W64 := if isErr result then -1 else result

def World.setErrno (w : World) (result : W64) : World :=
  if isErr result then { w with errno := (-result).setWidth 32 } else w

def issue (env : Env) (kernel : Kernel) (nr : ℕ) (f : Frame) : Exit × World :=
  let (result, w) := rawSyscall kernel (bsdToLinux nr) f.args f.world
  let w := w.setErrno result
  (.tail result, { w with mem := f.copyBack env (bsdArgFlags nr) (macosResult result) w.mem })

def conclude (env : Env) (kernel : Kernel) (nr : ℕ) : Except (Exit × World) Frame → Exit × World
  | .error e => e
  | .ok f => issue env kernel nr f

def unimplemented (env : Env) (w : World) : Exit × World :=
  if env.lenient then (.finish (-ENOSYS), w) else (.ended 127, w)

def Regs.bsdNr (r : Regs) : ℕ := (r.rax &&& 0xFFFFFF).toNat

def dispatch (env : Env) (kernel : Kernel) (r : Regs) (w : World) : Exit × World :=
  if bsdSyscallMax ≤ r.bsdNr then unimplemented env w
  else if bsdToLinux r.bsdNr = 0 then unimplemented env w
  else if r.bsdNr = 1 then
    -- `exit_group` does not come back, whatever the kernel function answers
    (.ended r.rdi, (rawSyscall kernel SYS_exit_group ⟨r.rdi, 0, 0, 0, 0, 0⟩ w).2)
  else conclude env kernel r.bsdNr (translateArgs env kernel (bsdArgFlags r.bsdNr) (.init r w))

def Regs.setCf (r : Regs) (err : Bool) : Regs :=
  { r with efl := if err then r.efl ||| 1 else r.efl &&& ~~~1 }

inductive Outcome where
  | ended (status : W64) (w : World)
  | returned (r : Regs) (w : World)

def finishSlowResult (r : Regs) (w : World) (result : W64) : Outcome :=
  .returned { r.setCf (isErr result) with rax := macosResult result, rip := r.rip + 2 }
    (w.setErrno result)

/-- The registers at each exit. The two special exits do not touch the flags. -/
def resume (r : Regs) : Exit × World → Outcome
  | (.ended status, w) => .ended status w
  | (.finish result, w) => finishSlowResult r w result
  | (.unsupportedFcntl, w) => .returned { r with rax := -EINVAL, rip := r.rip + 2 } w
  | (.protectedSigaction, w) => .returned { r with rax := 0, rip := r.rip + 2 } w
  | (.tail result, w) =>
    .returned { r.setCf (isErr result) with rax := macosResult result, rip := r.rip + 2 } w

def sigillHandler (env : Env) (kernel : Kernel) (r : Regs) (w : World) : Outcome :=
  resume r (dispatch env kernel r w)

end Macify.Syscall
