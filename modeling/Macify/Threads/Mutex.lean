import Macify.Shim.Calls

/-!
# Mutexes

The wrappers of `shim/pthread/sync.c`. A mutex of a macOS static initialiser carries a signature in its
first word; the first call on it overwrites it with the initialiser of the C library of the same kind.
-/

namespace Macify.Threads
open Lib Shim

abbrev MACOS_PTHREAD_MUTEX_SIG : W32 := 0x32AAABA7
abbrev MACOS_PTHREAD_RECURSIVE_SIG : W32 := 0x32AAABA2
abbrev MACOS_PTHREAD_ERRORCHECK_SIG : W32 := 0x32AAABA1
abbrev MACOS_PTHREAD_FIRSTFIT_SIG : W32 := 0x32AAABA3

inductive MutexKind where
  | normal
  | recursive
  | errorcheck
  | adaptive
  deriving DecidableEq

def MutexKind.value : MutexKind → UInt8
  | normal => 0
  | recursive => 1
  | errorcheck => 2
  | adaptive => 3

def MutexKind.initializer (kind : MutexKind) : Buf :=
  List.replicate 16 0 ++ [kind.value] ++ List.replicate 23 0

/-- The initialiser that `convert_macos_mutex` chooses for a first word. -/
def macosMutexKind (sig : W32) : Option MutexKind :=
  if sig = MACOS_PTHREAD_MUTEX_SIG then some .normal
  else if sig = MACOS_PTHREAD_RECURSIVE_SIG then some .recursive
  else if sig = MACOS_PTHREAD_ERRORCHECK_SIG then some .errorcheck
  else if sig = MACOS_PTHREAD_FIRSTFIT_SIG then some .adaptive
  else none

def convertMacosMutex (m : W64) (mem : Mem) : Mem :=
  match macosMutexKind (mem.read32 m) with
  | some kind => mem.store m kind.initializer
  | none => mem

def syncErrnoOut (env : Env) (reply : Reply) : Reply :=
  if reply.ret ≠ 0 ∧ reply.ret ≠ -1 ∧ env.isMacos then
    { reply with ret := (linuxToMacosErrno (reply.ret.setWidth 32)).signExtend 64 }
  else reply

def mutexCall (env : Env) (request : W64 → Request) (m : W64) (s : State) : Plan :=
  env.call (request m) { s with mem := convertMacosMutex m s.mem } (syncErrnoOut env)

def pthreadMutexLock (env : Env) (m : W64) (s : State) : Plan := mutexCall env .mutexLock m s

def pthreadMutexTrylock (env : Env) (m : W64) (s : State) : Plan :=
  mutexCall env .mutexTrylock m s

def pthreadMutexUnlock (env : Env) (m : W64) (s : State) : Plan :=
  mutexCall env .mutexUnlock m s

end Macify.Threads
