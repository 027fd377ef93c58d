import Macify.Lib.CStrings
import Macify.Image.Types

/-!
# The end of a process

What is left to do when a guest ends: its `atexit` handlers, and the bytes in the buffer of `stdout`. `exit` and
`_exit` (`shim/sys/misc_stubs.c`), `fflush(NULL)` (`shim/io/process.c`) and the loader behind the guest's `main`
(`src/runtime.c`) write that buffer with a call of `write` of their own. `exit_runs_handlers_iff` says when the
handlers run, and `pending_output_once_iff` when the bytes arrive just once.

The `_exit` that the shim's `exit` calls is not the shim's own: the shim is opened with `dlopen`, so that the call
binds to the C library's `_exit`, which ends the process and writes nothing.

`__stdoutp` is `stdout` and `__stderrp` is `stderr`: `macify_use_macos_stdio` is called by nobody.
-/

namespace Macify.Shim.Termination
open Lib

structure Stream where
  base : W64
  ptr : W64

/-- Memory and standard streams, what descriptors 1 and 2 got by how many writes, the handlers, those run, and
    how it ended. -/
structure World (H : Type*) where
  mem : Mem
  stdout : Stream
  stderr : Stream
  fd1 : Buf
  fd2 : Buf
  writes : ℕ
  handlers : List H
  ran : List H
  ended : Option W32

/-- How many bytes the kernel takes at each call of `write`. -/
abbrev Kernel := ℕ → Buf → ℕ

def macifyFlushSane (p : W64) : Bool := (0x10000 : W64).ult p && p >>> 47 == 0

namespace Stream

def length (f : Stream) : ℕ := (f.ptr - f.base).toNat

def flushable (f : Stream) : Bool := f.base.ult f.ptr && decide (f.length < 1048576)

def sane (f : Stream) : Bool := macifyFlushSane f.base && macifyFlushSane f.ptr

def reset (f : Stream) : Stream := { f with ptr := f.base }

def bytes (f : Stream) (mem : Mem) : Buf := mem.load f.base f.length

end Stream

section Code

variable {H : Type*} (kernel : Kernel)

def write1 (bytes : Buf) (w : World H) : World H :=
  { w with fd1 := w.fd1 ++ bytes.take (kernel w.writes bytes), writes := w.writes + 1 }

def write2 (bytes : Buf) (w : World H) : World H :=
  { w with fd2 := w.fd2 ++ bytes.take (kernel w.writes bytes), writes := w.writes + 1 }

def fflushStdout (w : World H) : World H :=
  if w.stdout.flushable && w.stdout.sane then
    { write1 kernel (w.stdout.bytes w.mem) w with stdout := w.stdout.reset }
  else w

def fflushStderr (w : World H) : World H :=
  if w.stderr.flushable && w.stderr.sane then
    { write2 kernel (w.stderr.bytes w.mem) w with stderr := w.stderr.reset }
  else w

def fflushAll (w : World H) : World H := fflushStderr kernel (fflushStdout kernel w)

def flushStdout (w : World H) : World H :=
  if w.stdout.flushable && w.stdout.sane then write1 kernel (w.stdout.bytes w.mem) w else w

def exitGroup (status : W32) (w : World H) : World H := { w with ended := some status }

/-- The shim's `exit`, which ends in the C library's `_exit`. A guest's own call of `_exit` does the same. -/
def exit (status : W32) (w : World H) : World H := exitGroup status (flushStdout kernel w)

def returnFromMain (ret : W32) (w : World H) : World H :=
  exitGroup ret (if w.stdout.flushable then write1 kernel (w.stdout.bytes w.mem) w else w)

def cxaAtexit (func : H) (w : World H) : World H := { w with handlers := func :: w.handlers }

def atexit (func : H) (w : World H) : World H := cxaAtexit func w

end Code

section Handlers

variable {H : Type*} {kernel : Kernel} {w : World H} {status : W32}

lemma ran_flushStdout : (flushStdout kernel w).ran = w.ran := by
  rw [flushStdout]
  split <;> rfl

/-- `_exit` runs no handler. -/
lemma ran_exit : (exit kernel status w).ran = w.ran := by
  rw [exit, exitGroup, ran_flushStdout]

lemma ran_atexits (fs : List H) : (fs.foldl (fun w f => atexit f w) w).ran = w.ran := by
  induction fs generalizing w with
  | nil => rfl
  | cons f fs ih => exact ih

def RunsHandlers (w w' : World H) (fs : List H) (status : W32) : Prop :=
  w'.ran = w.ran ++ fs.reverse ∧ w'.ended = some status

end Handlers

/-- Handlers run before the shim's `exit` ends the process just if there are none. -/
theorem exit_runs_handlers_iff {H : Type*} (kernel : Kernel) (w : World H) (fs : List H) (status : W32) :
    RunsHandlers w (exit kernel status (fs.foldl (fun w f => atexit f w) w)) fs status ↔ fs = [] := by
  rw [RunsHandlers, ran_exit, ran_atexits]
  constructor
  · rintro ⟨ran, -⟩
    exact List.reverse_eq_nil_iff.mp (List.append_right_eq_self.mp ran.symm)
  · rintro rfl
    exact ⟨(List.append_nil _).symm, rfl⟩

def pendingWorld (text : Buf) : World ℕ where
  mem := Mem.store (fun _ => 0) 0x20000 text
  stdout := ⟨0x20000, 0x20000 + BitVec.ofNat 64 text.length⟩
  stderr := ⟨0, 0⟩
  fd1 := []
  fd2 := []
  writes := 0
  handlers := []
  ran := []
  ended := none

def eager : Kernel := fun _ bytes => bytes.length

def sparing : Kernel := fun _ _ => 1

theorem exit_skips_handler :
    (atexit 7 (pendingWorld [])).handlers = [7] ∧
      (exit eager 0 (atexit 7 (pendingWorld []))).ran = [] ∧
      (exit eager 0 (atexit 7 (pendingWorld []))).ended = some 0 ∧
      ¬ RunsHandlers (pendingWorld []) (exit eager 0 (atexit 7 (pendingWorld []))) [7] 0 := by
  refine ⟨rfl, ran_exit, rfl, ?_⟩
  rintro ⟨ran, -⟩
  rw [ran_exit] at ran
  cases ran

inductive Route where
  | fflush
  | exit (status : W32)
  | fflushExit (status : W32)
  | mainReturns (ret : W32)

section Pending

variable {H : Type*}

def Route.run (kernel : Kernel) (w : World H) : Route → World H
  | .fflush => fflushAll kernel w
  | .exit status => Termination.exit kernel status w
  | .fflushExit status => Termination.exit kernel status (fflushAll kernel w)
  | .mainReturns ret => returnFromMain kernel ret w

/-- The kernel takes at least one byte of a write that has one, and no more than there are. -/
def Kernel.Progress (kernel : Kernel) : Prop :=
  ∀ n bytes, bytes ≠ [] → 0 < kernel n bytes ∧ kernel n bytes ≤ bytes.length

structure Stream.Plausible (f : Stream) : Prop where
  order : f.base.toNat ≤ f.ptr.toNat
  size : f.length ≤ 1048576
  sane : f.sane = true

/-- Descriptor 1 gets the pending bytes once, whatever the kernel takes at a time. -/
def Route.Once (w : World H) (route : Route) : Prop :=
  ∀ kernel : Kernel, kernel.Progress → (route.run kernel w).fd1 = w.fd1 ++ w.stdout.bytes w.mem

end Pending

section Once

variable {H : Type*} {kernel : Kernel} {w : World H} {status : W32} {f : Stream} {pending : Buf}

lemma sparing_progress : sparing.Progress := fun _ _ some => ⟨Nat.one_pos, List.length_pos_of_ne_nil some⟩

lemma length_bytes : (f.bytes w.mem).length = f.length := Mem.length_load

lemma Stream.Plausible.length_eq (ok : f.Plausible) : f.length = f.ptr.toNat - f.base.toNat := by
  rw [Stream.length, BitVec.toNat_sub_of_le (BitVec.le_def.mpr ok.order)]

lemma Stream.Plausible.flushable_iff (ok : f.Plausible) : f.flushable = true ↔ 0 < f.length ∧ f.length ≠ 1048576 := by
  have size := ok.size
  have order := ok.order
  have len := ok.length_eq
  rw [Stream.flushable, Bool.and_eq_true, decide_eq_true_eq, BitVec.ult, decide_eq_true_eq]
  omega

lemma reset_not_flushable : f.reset.flushable = false := by
  rw [Stream.flushable, Stream.reset, BitVec.ult, decide_eq_false (lt_irrefl _), Bool.false_and]

/-- What is pending is written, by one call. -/
lemma flushStdout_of_flushable (due : w.stdout.flushable = true) (sane : w.stdout.sane = true) :
    flushStdout kernel w = write1 kernel (w.stdout.bytes w.mem) w := by
  rw [flushStdout, due, sane]
  rfl

lemma flushStdout_of_not (not : w.stdout.flushable = false) : flushStdout kernel w = w := by
  rw [flushStdout, not]
  rfl

/-- Flushing `stderr` leaves `stdout` alone. -/
lemma fflushStderr_frame : (fflushStderr kernel w).fd1 = w.fd1 ∧ (fflushStderr kernel w).stdout = w.stdout := by
  rw [fflushStderr]
  split <;> exact ⟨rfl, rfl⟩

/-- `fflush(NULL)` writes by one call and forgets the rest. -/
lemma fflushAll_of_flushable (due : w.stdout.flushable = true) (sane : w.stdout.sane = true) :
    (fflushAll kernel w).fd1 = (write1 kernel (w.stdout.bytes w.mem) w).fd1 ∧
      (fflushAll kernel w).stdout = w.stdout.reset := by
  rw [fflushAll, fflushStderr_frame.1, fflushStderr_frame.2, fflushStdout, due, sane]
  exact ⟨rfl, rfl⟩

lemma fflushAll_of_not (not : w.stdout.flushable = false) :
    (fflushAll kernel w).fd1 = w.fd1 ∧ (fflushAll kernel w).stdout = w.stdout := by
  rw [fflushAll, fflushStderr_frame.1, fflushStderr_frame.2, fflushStdout, not]
  exact ⟨rfl, rfl⟩

/-- Every way out calls `write` once for the pending bytes, and leaves it at that. -/
lemma fd1_of_flushable (route : Route) (due : w.stdout.flushable = true) (sane : w.stdout.sane = true) :
    (route.run kernel w).fd1 = (write1 kernel (w.stdout.bytes w.mem) w).fd1 := by
  cases route with
  | fflush => exact (fflushAll_of_flushable due sane).1
  | exit status => rw [Route.run, Termination.exit, flushStdout_of_flushable due sane, exitGroup]
  | fflushExit status =>
    obtain ⟨fd1, stdout⟩ := @fflushAll_of_flushable H kernel w due sane
    have flushed : (fflushAll kernel w).stdout.flushable = false := by rw [stdout, reset_not_flushable]
    rw [Route.run, Termination.exit, flushStdout_of_not flushed]
    exact fd1
  | mainReturns ret =>
    rw [Route.run, returnFromMain, due]
    rfl

/-- An empty buffer, and one of 1 MiB, is not written. -/
lemma fd1_of_not (route : Route) (not : w.stdout.flushable = false) : (route.run kernel w).fd1 = w.fd1 := by
  cases route with
  | fflush => exact (fflushAll_of_not not).1
  | exit status => rw [Route.run, Termination.exit, flushStdout_of_not not, exitGroup]
  | fflushExit status =>
    obtain ⟨fd1, stdout⟩ := @fflushAll_of_not H kernel w not
    have still : (fflushAll kernel w).stdout.flushable = false := by rw [stdout, not]
    rw [Route.run, Termination.exit, flushStdout_of_not still]
    exact fd1
  | mainReturns ret =>
    rw [Route.run, returnFromMain, not]
    rfl

/-- One write does for every kernel just if there is at most one byte. -/
lemma take_eq_iff {n : ℕ} :
    (∀ kernel : Kernel, kernel.Progress → pending.take (kernel n pending) = pending) ↔ pending.length ≤ 1 := by
  constructor
  · intro whole
    rw [← whole sparing sparing_progress, List.length_take]
    exact Nat.min_le_left _ _
  · intro one kernel progress
    by_cases empty : pending = []
    · rw [empty, List.take_nil]
    · have takes := (progress n pending empty).1
      exact List.take_of_length_le (by omega)

end Once

/-- Each way delivers at most 1 MiB of output once for every kernel just if it has at most one byte. -/
theorem pending_output_once_iff {H : Type*} (w : World H) (route : Route) (sound : w.stdout.Plausible) :
    route.Once w ↔ (w.stdout.bytes w.mem).length ≤ 1 := by
  cases due : w.stdout.flushable with
  | true =>
    rw [← @take_eq_iff _ w.writes]
    refine forall₂_congr fun kernel _ => ?_
    rw [fd1_of_flushable route due sound.sane, write1, List.append_cancel_left_eq]
  | false =>
    -- Nothing is written: the buffer is empty, or it is full.
    have none : route.Once w ↔ (w.stdout.bytes w.mem).length = 0 := by
      rw [List.length_eq_zero_iff]
      refine ⟨fun once => ?_, fun empty kernel _ => ?_⟩
      · have same := once sparing sparing_progress
        rw [fd1_of_not route due] at same
        exact List.append_right_eq_self.mp same.symm
      · rw [fd1_of_not route due, empty, List.append_nil]
    have bounds := mt sound.flushable_iff.mpr (by rw [due]; exact Bool.false_ne_true)
    rw [none, length_bytes]
    omega

theorem pending_output_once_byte : (Route.exit 0).Once (pendingWorld [0x78]) :=
  (pending_output_once_iff (pendingWorld [0x78]) (.exit 0) ⟨by decide, by decide, by decide⟩).mpr (le_refl 1)

/-- A kernel that takes one byte of two at a time leaves the other one unwritten. -/
theorem pending_output_lost :
    (exit sparing 0 (pendingWorld [0x68, 0x69])).fd1 = [0x68] ∧
      (fflushAll sparing (pendingWorld [0x68, 0x69])).fd1 = [0x68] ∧
      (returnFromMain sparing 0 (pendingWorld [0x68, 0x69])).fd1 = [0x68] ∧
      (exit sparing 0 (fflushAll sparing (pendingWorld [0x68, 0x69]))).fd1 = [0x68] ∧
      ¬(Route.exit 0).Once (pendingWorld [0x68, 0x69]) ∧ ¬Route.fflush.Once (pendingWorld [0x68, 0x69]) := by
  refine ⟨by decide +kernel, by decide +kernel, by decide +kernel, by decide +kernel, fun once => ?_, fun once => ?_⟩
  · exact absurd (once sparing sparing_progress) (by decide +kernel)
  · exact absurd (once sparing sparing_progress) (by decide +kernel)

end Macify.Shim.Termination
