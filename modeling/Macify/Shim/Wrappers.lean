import Macify.Shim.Flags
import Macify.Shim.Sockets

/-!
# Wrappers that Linux libraries call

`setlocale` (`shim/sys/misc_stubs.c`), `clock_gettime` (`shim/pthread/core.c`), `fcntl`
(`shim/io/file.c`), and the ways of `sigaction` and `sigprocmask` (`shim/signal/`) for callers outside
the guest. What the last two do for the guest is modelled on the tables of the kernel in
`Macify.Signals`; here it is an arbitrary plan.
-/

namespace Macify.Shim
open Lib

abbrev LC_CTYPE : W32 := 0
abbrev LC_NUMERIC : W32 := 1
abbrev LC_TIME : W32 := 2
abbrev LC_COLLATE : W32 := 3
abbrev LC_MONETARY : W32 := 4
abbrev LC_MESSAGES : W32 := 5
abbrev LC_ALL : W32 := 6

def macosToLinuxCategory (category : W32) : W32 :=
  match category.toNat with
  | 0 => LC_ALL
  | 1 => LC_COLLATE
  | 2 => LC_CTYPE
  | 3 => LC_MONETARY
  | 4 => LC_NUMERIC
  | 5 => LC_TIME
  | 6 => LC_MESSAGES
  | _ => -1

def setlocale (env : Env) (category : W32) (locale : W64) (s : State) : Plan :=
  let cat := macosToLinuxCategory category
  let cat := if cat.slt 0 then category else cat
  if env.found then .pass (.setlocale cat locale) s else .done ⟨0, s⟩

abbrev CLOCK_MONOTONIC : W32 := 1
abbrev CLOCK_PROCESS_CPUTIME_ID : W32 := 2
abbrev CLOCK_THREAD_CPUTIME_ID : W32 := 3
abbrev CLOCK_MONOTONIC_RAW : W32 := 4

def linuxClock (clkId : W32) : W32 :=
  match clkId.toNat with
  | 6 => CLOCK_MONOTONIC
  | 12 => CLOCK_PROCESS_CPUTIME_ID
  | 16 => CLOCK_THREAD_CPUTIME_ID
  | 8 => CLOCK_MONOTONIC_RAW
  | 4 => CLOCK_MONOTONIC_RAW
  | _ => clkId

def clockGettime (env : Env) (clkId : W32) (tp : W64) (s : State) : Plan :=
  if env.found then .pass (.clockGettime (linuxClock clkId) tp) s
  else .done ⟨-1, { s with errno := 38 }⟩

/-- What the fallback hands to the kernel: 152 bytes, with `sa_flags` at 136 and `sa_restorer` at 144. -/
def modifiedAct (env : Env) (act : W64) (m : Mem) : Buf :=
  let bytes := m.load act 152
  let flags := m.read32 (act + 136)
  if flags &&& Signals.SA_RESTORER = 0 ∧ env.saRestorer ≠ 0 then
    bytes.take 136 ++ Mem.leBytes 4 (flags ||| Signals.SA_RESTORER).toNat ++ (bytes.drop 140).take 4 ++
      Mem.leBytes 8 env.saRestorer.toNat
  else bytes

def sigaction (env : Env) (guest : Plan) (signum : W32) (act oldact : W64) (s : State) : Plan :=
  if env.isMacos then guest
  else if env.found then .pass (.sigaction signum act oldact) s
  else
    .pass (.rtSigaction signum (if act = 0 then none else some (modifiedAct env act s.mem)) oldact) s

def sigprocmask (env : Env) (guest : Plan) (how : W32) (set oldset : W64) (s : State) : Plan :=
  if env.isMacos then guest
  else if env.found then .pass (.sigprocmask how set oldset) s
  else .pass (.rtSigprocmask how set oldset) s

abbrev F_RDLCK : BitVec 16 := 0
abbrev F_WRLCK : BitVec 16 := 1
abbrev F_UNLCK : BitVec 16 := 2

def linuxLockType (type : BitVec 16) : BitVec 16 :=
  match type.toNat with
  | 1 => F_RDLCK
  | 2 => F_UNLCK
  | 3 => F_WRLCK
  | _ => type

def macosLockType (type : BitVec 16) : BitVec 16 :=
  if type = F_RDLCK then 1 else if type = F_WRLCK then 3 else if type = F_UNLCK then 2 else type

/-- The type is at 20, `l_whence` at 22, `l_start`, `l_len` and `l_pid` at 0, 8 and 16. -/
def linuxFlock (lf mf : W64) (m : Mem) : Mem :=
  let type := linuxLockType (m.read16 (mf + 20))
  (m.zero lf 32).store lf
    (Mem.leBytes 2 type.toNat ++ m.load (mf + 22) 2 ++ [0, 0, 0, 0] ++ m.load mf 8 ++ m.load (mf + 8) 8 ++
      m.load (mf + 16) 4)

def macosFlock (lf mf : W64) (m : Mem) : Mem :=
  let type := macosLockType (m.read16 lf)
  m.store mf
    (m.load (lf + 8) 8 ++ m.load (lf + 16) 8 ++ m.load (lf + 24) 4 ++ Mem.leBytes 2 type.toNat ++
      m.load (lf + 2) 2)

def macosStatusFlags (linuxFl : W32) : W32 :=
  Syscall.mapBits linuxFl
    [(LINUX_O_APPEND, MACOS_O_APPEND), (LINUX_O_NONBLOCK, MACOS_O_NONBLOCK),
     (LINUX_O_CREAT, MACOS_O_CREAT), (LINUX_O_EXCL, MACOS_O_EXCL), (LINUX_O_TRUNC, MACOS_O_TRUNC),
     (LINUX_O_NOCTTY, MACOS_O_NOCTTY), (LINUX_O_SYNC, MACOS_O_SYNC),
     (LINUX_O_CLOEXEC, MACOS_O_CLOEXEC), (LINUX_O_DIRECTORY, MACOS_O_DIRECTORY),
     (LINUX_O_NOFOLLOW, MACOS_O_NOFOLLOW)]
    (linuxFl &&& 0x3)

/-- `F_FULLFSYNC` and `F_BARRIERFSYNC` flush the file, one command is refused with `ENOTSUP`, the others do nothing. -/
def macosFcntl (env : Env) (fd cmd : W32) (s : State) : Plan :=
  match cmd.toNat with
  | 50 => .done ⟨-1, { s with errno := 95 }⟩
  | 51 => env.call (.fsync fd) s id
  | 55 => env.call (.fdatasync fd) s id
  | _ => .done ⟨0, s⟩

/-- The calls of `translate_fcntl_cmd` and `translate_open_flags` bind to the loader's copies: the program comes before
    a library that it opens. -/
def guestFcntl (env : Env) (fd cmd : W32) (arg : W64) (s : State) : Plan :=
  let linuxCmd := Syscall.translateFcntlCmd cmd
  if cmd = 1 then env.call (.fcntl fd linuxCmd none) s id
  else if cmd = 3 then
    env.call (.fcntl fd linuxCmd none) s fun reply =>
      if reply.ret.slt 0 then reply
      else { reply with ret := (macosStatusFlags (reply.ret.setWidth 32)).signExtend 64 }
  else if cmd = 4 then
    env.call (.fcntl fd linuxCmd (some ((Syscall.translateOpenFlags (arg.setWidth 32)).setWidth 64))) s id
  else if cmd = 7 ∨ cmd = 8 ∨ cmd = 9 then
    env.call (.fcntl fd linuxCmd (some env.flock)) { s with mem := linuxFlock env.flock arg s.mem }
      fun reply =>
        if cmd = 7 ∧ (0 : W64).sle reply.ret then
          { reply with
            state := { reply.state with mem := macosFlock env.flock arg reply.state.mem } }
        else reply
  else if (16 : W32).sle cmd ∧ cmd ≠ 67 then macosFcntl env fd cmd s
  else env.call (.fcntl fd linuxCmd (some arg)) s id

def fcntl (env : Env) (fd cmd : W32) (arg : W64) (s : State) : Plan :=
  if env.isMacos then guestFcntl env fd cmd arg s else env.call (.fcntl fd cmd (some arg)) s id

end Macify.Shim
