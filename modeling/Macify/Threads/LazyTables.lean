import Mathlib.Data.BitVec
import Macify.Lib.LazyTable
import Macify.Threads.Mutex

/-!
# The tables of real functions

`shim/pthread/sync.c` and `shim/io/flags.c` call the C library through pointers that their first users look up:
`init_real_pthread_funcs` and `init_real_io_funcs` store them all and then set the flag that `MACIFY_LAZY_INIT`
(`shim/shim.h`) tests. Main result: `wrappers_call_real_functions`. A pointer `real_f` is called `f` here.
-/

namespace Macify.Threads
open Lib

abbrev MACOS_PTHREAD_COND_SIG : W32 := 0x3CB0B1BB
abbrev MACOS_PTHREAD_RWLOCK_SIG : W32 := 0x2DA8B3B4

inductive SyncFn where
  | mutexLock
  | mutexTrylock
  | mutexUnlock
  | mutexInit
  | mutexDestroy
  | condWait
  | condTimedwait
  | condSignal
  | condBroadcast
  | condInit
  | condDestroy
  | rwlockRdlock
  | rwlockWrlock
  | rwlockUnlock
  | rwlockInit
  | rwlockDestroy
  deriving DecidableEq

namespace SyncFn

def name : SyncFn → String
  | mutexLock => "pthread_mutex_lock"
  | mutexTrylock => "pthread_mutex_trylock"
  | mutexUnlock => "pthread_mutex_unlock"
  | mutexInit => "pthread_mutex_init"
  | mutexDestroy => "pthread_mutex_destroy"
  | condWait => "pthread_cond_wait"
  | condTimedwait => "pthread_cond_timedwait"
  | condSignal => "pthread_cond_signal"
  | condBroadcast => "pthread_cond_broadcast"
  | condInit => "pthread_cond_init"
  | condDestroy => "pthread_cond_destroy"
  | rwlockRdlock => "pthread_rwlock_rdlock"
  | rwlockWrlock => "pthread_rwlock_wrlock"
  | rwlockUnlock => "pthread_rwlock_unlock"
  | rwlockInit => "pthread_rwlock_init"
  | rwlockDestroy => "pthread_rwlock_destroy"

def initRealPthreadFuncs (lookup : String → W64) : List (SyncFn × W64) :=
  [(mutexLock, lookup "pthread_mutex_lock"),
   (mutexTrylock, lookup "pthread_mutex_trylock"),
   (mutexUnlock, lookup "pthread_mutex_unlock"),
   (mutexInit, lookup "pthread_mutex_init"),
   (mutexDestroy, lookup "pthread_mutex_destroy"),
   (condWait, lookup "pthread_cond_wait"),
   (condTimedwait, lookup "pthread_cond_timedwait"),
   (condSignal, lookup "pthread_cond_signal"),
   (condBroadcast, lookup "pthread_cond_broadcast"),
   (condInit, lookup "pthread_cond_init"),
   (condDestroy, lookup "pthread_cond_destroy"),
   (rwlockRdlock, lookup "pthread_rwlock_rdlock"),
   (rwlockWrlock, lookup "pthread_rwlock_wrlock"),
   (rwlockUnlock, lookup "pthread_rwlock_unlock"),
   (rwlockInit, lookup "pthread_rwlock_init"),
   (rwlockDestroy, lookup "pthread_rwlock_destroy")]

end SyncFn

structure SyncCall where
  fn : SyncFn
  sig : W32

def gatedCall {κ : Type*} (f : κ) : Wrapper κ := .gate (.call f .done)

/-- The wrapper that destroys an object does nothing to one that still has the signature of macOS. -/
def gatedDestroy {κ : Type*} (f : κ) (sig macos : W32) : Wrapper κ :=
  .gate (if sig ≠ macos then .call f .done else .done)

def SyncCall.body (call : SyncCall) : Wrapper SyncFn :=
  match call.fn with
  | .mutexLock => gatedCall .mutexLock
  | .mutexTrylock => gatedCall .mutexTrylock
  | .mutexUnlock => gatedCall .mutexUnlock
  | .mutexInit => gatedCall .mutexInit
  | .mutexDestroy => gatedDestroy .mutexDestroy call.sig MACOS_PTHREAD_MUTEX_SIG
  | .condWait => gatedCall .condWait
  | .condTimedwait => gatedCall .condTimedwait
  | .condSignal => gatedCall .condSignal
  | .condBroadcast => gatedCall .condBroadcast
  | .condInit => gatedCall .condInit
  | .condDestroy => gatedDestroy .condDestroy call.sig MACOS_PTHREAD_COND_SIG
  | .rwlockRdlock => gatedCall .rwlockRdlock
  | .rwlockWrlock => gatedCall .rwlockWrlock
  | .rwlockUnlock => gatedCall .rwlockUnlock
  | .rwlockInit => gatedCall .rwlockInit
  | .rwlockDestroy => gatedDestroy .rwlockDestroy call.sig MACOS_PTHREAD_RWLOCK_SIG

section Gated

variable {κ : Type*} {f f' : κ} {group : Set κ} {sig macos : W32}

lemma gatedCall_safe (mem : f ∈ group) : (gatedCall f).Safe group ∅ := ⟨.inr mem, trivial⟩

lemma gatedDestroy_safe (mem : f ∈ group) : (gatedDestroy f sig macos).Safe group ∅ :=
  .ite (gatedCall_safe mem) trivial

lemma gatedCall_calls (calls : (gatedCall f).Calls f') : f' = f := by
  rcases calls with same | none
  · exact same.symm
  · exact none.elim

lemma gatedDestroy_calls (calls : (gatedDestroy f sig macos).Calls f') : f' = f := by
  rw [gatedDestroy, Wrapper.Calls] at calls
  split at calls
  · exact gatedCall_calls calls
  · cases calls

end Gated

lemma sync_init (lookup : String → W64) :
    LazyInit Set.univ (SyncFn.initRealPthreadFuncs lookup) fun f => lookup f.name where
  right := by simp [SyncFn.initRealPthreadFuncs, SyncFn.name]
  complete f _ := by cases f <;> simp [SyncFn.initRealPthreadFuncs]

lemma SyncCall.body_safe (call : SyncCall) : call.body.Safe Set.univ ∅ := by
  obtain ⟨fn, sig⟩ := call
  cases fn <;> first | exact gatedCall_safe trivial | exact gatedDestroy_safe trivial

lemma SyncCall.body_calls {call : SyncCall} {f : SyncFn} (calls : call.body.Calls f) : f = call.fn := by
  obtain ⟨fn, sig⟩ := call
  cases fn <;> first | exact gatedCall_calls calls | exact gatedDestroy_calls calls

/-- The pointers of the table, and those that a single wrapper keeps for itself. -/
inductive IoFn where
  | mmap
  | open_
  | madvise
  | fcntl
  | mprotect
  | sysconf
  | open64
  | openat
  | munmap
  deriving DecidableEq

namespace IoFn

def name : IoFn → String
  | mmap => "mmap"
  | open_ => "open"
  | madvise => "madvise"
  | fcntl => "fcntl"
  | mprotect => "mprotect"
  | sysconf => "sysconf"
  | open64 => "open64"
  | openat => "openat"
  | munmap => "munmap"

def initRealIoFuncs (lookup : String → W64) : List (IoFn × W64) :=
  [(mmap, lookup "mmap"),
   (open_, lookup "open"),
   (madvise, lookup "madvise"),
   (fcntl, lookup "fcntl"),
   (mprotect, lookup "mprotect"),
   (sysconf, lookup "sysconf")]

def group : Set IoFn := {mmap, open_, madvise, fcntl, mprotect, sysconf}

end IoFn

/-- Whether the caller is macOS code, an address is asked for, the range is in the main stack, and the path is
    hidden. -/
inductive IoCall where
  | mmap (macos fixed onStack : Bool)
  | open_ (hidden : Bool)
  | open64 (hidden : Bool)
  | open2
  | open642
  | openat (hidden : Bool)
  | madvise
  | mprotect (macos onStack : Bool)
  | munmap (onStack : Bool)
  | fcntl (macos : Bool) (cmd : W32)
  | sysconf (macos : Bool)

def sysconf (macos : Bool) (next : Wrapper IoFn) : Wrapper IoFn :=
  if macos then .gate (.call .sysconf next)
  else .ifSet .sysconf (.call .sysconf next) (.gate (.call .sysconf next))

def ownCall (f : IoFn) : Wrapper IoFn := .ifSet f (.call f .done) (.fill f (.call f .done))

def mmap (macos fixed onStack : Bool) : Wrapper IoFn :=
  let protect := if onStack then .call .mprotect .done else .done
  let map := if fixed then sysconf false (.call .mmap protect) else .call .mmap protect
  if macos then .gate map else .ifSet .mmap (.call .mmap .done) (.gate map)

def open_ (hidden : Bool) : Wrapper IoFn := .gate (if hidden then .done else .call .open_ .done)

def open64 (hidden : Bool) : Wrapper IoFn := .gate (if hidden then .done else ownCall .open64)

/-- The shim is no macOS code, so no path is hidden from it. -/
def open2 : Wrapper IoFn := open_ false

def open642 : Wrapper IoFn := open64 false

def openat (hidden : Bool) : Wrapper IoFn := .gate (if hidden then .done else ownCall .openat)

def madvise : Wrapper IoFn := gatedCall .madvise

/-- For other callers than macOS code `mprotect` calls itself as long as the pointer is not set. -/
def mprotect (macos onStack : Bool) : Wrapper IoFn :=
  if macos then .gate (sysconf false (if onStack then .done else .call .mprotect .done))
  else .await .mprotect (.call .mprotect .done)

def munmap (onStack : Bool) : Wrapper IoFn := if onStack then .done else ownCall .munmap

/-- The commands of macOS from 16 on have an answer without a call, but for one. -/
def fcntl (macos : Bool) (cmd : W32) : Wrapper IoFn :=
  .gate (if macos ∧ 16 ≤ cmd.toInt ∧ cmd.toInt ≠ 67 then .done else .call .fcntl .done)

def IoCall.body : IoCall → Wrapper IoFn
  | mmap macos fixed onStack => Threads.mmap macos fixed onStack
  | open_ hidden => Threads.open_ hidden
  | open64 hidden => Threads.open64 hidden
  | open2 => Threads.open2
  | open642 => Threads.open642
  | openat hidden => Threads.openat hidden
  | madvise => Threads.madvise
  | mprotect macos onStack => Threads.mprotect macos onStack
  | munmap onStack => Threads.munmap onStack
  | fcntl macos cmd => Threads.fcntl macos cmd
  | sysconf macos => Threads.sysconf macos .done

lemma io_init (lookup : String → W64) :
    LazyInit IoFn.group (IoFn.initRealIoFuncs lookup) fun f => lookup f.name where
  right := by simp [IoFn.initRealIoFuncs, IoFn.name]
  complete f mem := by
    simp only [IoFn.group, Set.mem_insert_iff, Set.mem_singleton_iff] at mem
    simpa [IoFn.initRealIoFuncs] using mem

section Safe

variable {known : Set IoFn} {next : Wrapper IoFn}

lemma sysconf_safe (macos : Bool) (safe : next.Safe IoFn.group known) :
    (sysconf macos next).Safe IoFn.group known := by
  have gated : (Wrapper.gate (.call .sysconf next)).Safe IoFn.group known :=
    ⟨.inr (by simp [IoFn.group]), safe.mono Set.subset_union_left⟩
  exact .ite gated ⟨⟨Set.mem_insert _ _, safe.mono (Set.subset_insert _ _)⟩, gated⟩

lemma ownCall_safe (f : IoFn) : (ownCall f).Safe IoFn.group known :=
  ⟨⟨Set.mem_insert _ _, trivial⟩, ⟨Set.mem_insert _ _, trivial⟩⟩

lemma tableCall_safe {f : IoFn} (mem : f ∈ IoFn.group) (safe : next.Safe IoFn.group (known ∪ IoFn.group)) :
    (Wrapper.call f next).Safe IoFn.group (known ∪ IoFn.group) := ⟨.inr mem, safe⟩

lemma mmap_safe (macos fixed onStack : Bool) : (mmap macos fixed onStack).Safe IoFn.group ∅ := by
  have protect : (if onStack then Wrapper.call IoFn.mprotect .done else .done).Safe IoFn.group (∅ ∪ IoFn.group) :=
    .ite (tableCall_safe (by simp [IoFn.group]) trivial) trivial
  have map := tableCall_safe (show IoFn.mmap ∈ IoFn.group by simp [IoFn.group]) protect
  have gated : (Wrapper.gate (if fixed then sysconf false _ else _)).Safe IoFn.group ∅ :=
    .ite (sysconf_safe false map) map
  exact .ite gated ⟨⟨Set.mem_insert _ _, trivial⟩, gated⟩

end Safe

lemma IoCall.body_safe (call : IoCall) : call.body.Safe IoFn.group ∅ := by
  have opens : IoFn.open_ ∈ IoFn.group := by simp [IoFn.group]
  have protects : IoFn.mprotect ∈ IoFn.group := by simp [IoFn.group]
  have controls : IoFn.fcntl ∈ IoFn.group := by simp [IoFn.group]
  cases call with
  | mmap macos fixed onStack => exact mmap_safe macos fixed onStack
  | open_ hidden => exact .ite trivial (tableCall_safe opens trivial)
  | open64 hidden => exact .ite trivial (ownCall_safe _)
  | open2 => exact tableCall_safe opens trivial
  | open642 => exact ownCall_safe _
  | openat hidden => exact .ite trivial (ownCall_safe _)
  | madvise => exact gatedCall_safe (by simp [IoFn.group])
  | mprotect macos onStack =>
    exact .ite (sysconf_safe false (.ite trivial (tableCall_safe protects trivial)))
      ⟨Set.mem_insert _ _, trivial⟩
  | munmap onStack => exact .ite trivial (ownCall_safe _)
  | fcntl macos cmd => exact .ite trivial (tableCall_safe controls trivial)
  | sysconf macos => exact sysconf_safe macos trivial

abbrev syncCalls {ι : Type*} (lookup : String → W64) :
    Program ι (LazyShared SyncFn W64 SyncCall) (LazyThread SyncFn W64 SyncCall) :=
  lazyCalls (SyncFn.initRealPthreadFuncs lookup) (fun f => lookup f.name) SyncCall.body

/-- Threads that call the wrappers of `flags.c`, and the two of `file.c` that use the same table. -/
abbrev ioCalls {ι : Type*} (lookup : String → W64) :
    Program ι (LazyShared IoFn W64 IoCall) (LazyThread IoFn W64 IoCall) :=
  lazyCalls (IoFn.initRealIoFuncs lookup) (fun f => lookup f.name) IoCall.body

section Theorem

variable {ι : Type*} [DecidableEq ι] {lookup : String → W64}

/-- If the functions are found, every call of a wrapper goes to the function that was looked up under the name of
    its pointer. -/
theorem wrappers_call_real_functions (found : ∀ f : SyncFn, lookup f.name ≠ 0)
    (found' : ∀ f : IoFn, lookup f.name ≠ 0) :
    (∀ (calls : ι → List SyncCall) c, Program.Reaches (syncCalls lookup) (lazyStart calls) c →
      ∀ e ∈ c.shared.log, e.address = lookup e.wrapper.fn.name ∧ e.address ≠ 0) ∧
    (∀ (calls : ι → List IoCall) c, Program.Reaches (ioCalls lookup) (lazyStart calls) c →
      ∀ e ∈ c.shared.log, e.address = lookup e.pointer.name ∧ e.address ≠ 0) := by
  constructor
  · intro calls c reaches e mem
    obtain ⟨right, inBody⟩ := lazy_calls_right (sync_init lookup) SyncCall.body_safe reaches e mem
    rw [SyncCall.body_calls inBody] at right
    exact ⟨right, right.trans_ne (found _)⟩
  · intro calls c reaches e mem
    obtain ⟨right, -⟩ := lazy_calls_right (io_init lookup) IoCall.body_safe reaches e mem
    exact ⟨right, right.trans_ne (found' _)⟩

section Undisturbed

variable {κ ω : Type*} [DecidableEq κ] {init : List (κ × W64)} {value : κ → W64} {body : ω → Wrapper κ}
  {c c' : Config ι (LazyShared κ W64 ω) (LazyThread κ W64 ω)} {t : ι} {w : ω} {ws : List ω} {f : κ}

lemma init_runs {s : LazyShared κ W64 ω} {todo : List (κ × W64)} {k : Wrapper κ}
    (reaches : Program.Reaches (lazyCalls init value body) c (c'.put t s ⟨.init w todo k, ws⟩)) :
    ∃ table, Program.Reaches (lazyCalls init value body) c (c'.put t ⟨table, true, s.log⟩ ⟨.run w k, ws⟩) := by
  induction todo generalizing s with
  | nil => exact ⟨s.table, reaches.again .publish⟩
  | cons e todo ih =>
    obtain ⟨table, filled⟩ := ih (reaches.again .store)
    exact ⟨table, filled⟩

lemma first_calls {calls : ι → List ω} (some : calls t = w :: ws) (gated : body w = gatedCall f) :
    ∃ c, Program.Reaches (lazyCalls init value body) (lazyStart calls) c ∧ c.shared.log ≠ [] := by
  have start : (lazyStart calls).thread t = (⟨.idle, w :: ws⟩ : LazyThread κ W64 ω) := congrArg _ some
  have entered : Program.Reaches (lazyCalls init value body) (lazyStart calls)
      ((lazyStart calls).put t (lazyStart calls).shared ⟨.run w (gatedCall f), ws⟩) := by
    refine .step .refl ?_
    rw [start, ← gated]
    exact .enter
  obtain ⟨table, filled⟩ := init_runs (entered.again (.notReady rfl))
  exact ⟨_, filled.again .call, List.cons_ne_nil _ _⟩

end Undisturbed

def lengthLookup (name : String) : W64 := BitVec.ofNat 64 (0x1000 + name.length)

/-- Two threads are to call `pthread_mutex_lock`, and one of them does. -/
theorem mutex_lock_calls_real_function :
    ∃ c, Program.Reaches (syncCalls lengthLookup)
        (lazyStart fun _ : Fin 2 => [⟨.mutexLock, MACOS_PTHREAD_MUTEX_SIG⟩]) c ∧
      c.shared.log ≠ [] ∧ ∀ e ∈ c.shared.log, e.address = lengthLookup e.wrapper.fn.name ∧ e.address ≠ 0 := by
  have called : ∃ c, Program.Reaches (syncCalls lengthLookup)
      (lazyStart fun _ : Fin 2 => [⟨.mutexLock, MACOS_PTHREAD_MUTEX_SIG⟩]) c ∧ c.shared.log ≠ [] :=
    first_calls (t := 0) rfl rfl
  obtain ⟨c, reaches, some⟩ := called
  refine ⟨c, reaches, some, (wrappers_call_real_functions ?_ ?_).1 _ c reaches⟩
  · intro f
    cases f <;> decide
  · intro f
    cases f <;> decide

end Theorem

end Macify.Threads
