import Macify.Lib.Descriptors
import Macify.Image.Types

/-!
# The pipe of popen

`macify_popen` (`shim/io/process.c`) makes a pipe, forks, and in the child moves one end of the pipe to descriptor 0
or 1 before it closes the two descriptors that it got. A descriptor that is free is where the pipe itself may end up:
Main result: `popen_connects_iff`.
-/

namespace Macify.Exec.Popen
open Lib

inductive PipeEnd where
  | read
  | write
  deriving DecidableEq

abbrev STDIN_FILENO : ℕ := 0
abbrev STDOUT_FILENO : ℕ := 1

abbrev R : UInt8 := 0x72

section Code

variable {File : Type*} (limit : ℕ)

/-- The new descriptors and the table. The files are the ends of the pipe and those that were open before. -/
def pipe (fds : FdTable (PipeEnd ⊕ File)) : Option (ℕ × ℕ × FdTable (PipeEnd ⊕ File)) := do
  let (fds0, fds) ← fds.alloc limit (.inl .read)
  let (fds1, fds) ← fds.alloc limit (.inl .write)
  return (fds0, fds1, fds)

def child (mode : UInt8) (fds0 fds1 : ℕ) (fds : FdTable (PipeEnd ⊕ File)) : FdTable (PipeEnd ⊕ File) :=
  let fds := if mode = R then fds.dup2 limit fds1 STDOUT_FILENO else fds.dup2 limit fds0 STDIN_FILENO
  (fds.close fds0).close fds1

/-- The descriptors of the child of `macify_popen` at its `execve`; `none` if there is no pipe. -/
def popenChild (mode : UInt8) (fds : FdTable File) : Option (FdTable (PipeEnd ⊕ File)) :=
  (pipe limit fun n => (fds n).map .inr).map fun piped => child limit mode piped.1 piped.2.1 piped.2.2

end Code

def target (mode : UInt8) : ℕ := if mode = R then STDOUT_FILENO else STDIN_FILENO

def childEnd (mode : UInt8) : PipeEnd := if mode = R then .write else .read

structure Connected {File : Type*} (mode : UInt8) (fds : FdTable (PipeEnd ⊕ File)) : Prop where
  stream : fds (target mode) = some (.inl (childEnd mode))
  alone : ∀ n, n ≠ target mode → ∀ e, fds n ≠ some (.inl e)

section Pipes

variable {File : Type*} {limit : ℕ} {mode : UInt8} {fds : FdTable File} {table : FdTable (PipeEnd ⊕ File)}
  {fds0 fds1 : ℕ}

lemma before_ne {file : Option File} {e : PipeEnd} : file.map (Sum.inr : File → PipeEnd ⊕ File) ≠ some (.inl e) := by
  cases file with
  | none => exact (Option.some_ne_none _).symm
  | some file => exact fun same => Sum.inr_ne_inl (Option.some.inj same)

structure Piped (limit : ℕ) (fds : FdTable File) (fds0 fds1 : ℕ) (table : FdTable (PipeEnd ⊕ File)) : Prop where
  lt : fds0 < limit ∧ fds1 < limit
  order : fds0 < fds1
  free : fds fds0 = none ∧ fds fds1 = none
  lowest : ∀ n, fds n = none → n = fds0 ∨ fds1 ≤ n
  read : table fds0 = some (.inl .read)
  write : table fds1 = some (.inl .write)
  others : ∀ n, n ≠ fds0 → n ≠ fds1 → table n = (fds n).map .inr

lemma piped_of_pipe (done : pipe limit (fun n => (fds n).map .inr) = some (fds0, fds1, table)) :
    Piped limit fds fds0 fds1 table := by
  obtain ⟨⟨r, first⟩, reads, done⟩ := Option.bind_eq_some_iff.mp done
  obtain ⟨⟨w, second⟩, writes, done⟩ := Option.bind_eq_some_iff.mp done
  cases done
  obtain ⟨lt0, free0, lowest0, rfl⟩ := FdTable.alloc_spec reads
  obtain ⟨lt1, free1, lowest1, rfl⟩ := FdTable.alloc_spec writes
  have ne : fds1 ≠ fds0 := by
    rintro rfl
    rw [Function.update_self] at free1
    cases free1
  rw [Function.update_of_ne ne] at free1
  have before : ∀ {n}, fds n = none → (fds n).map (Sum.inr : File → PipeEnd ⊕ File) = none :=
    Option.map_eq_none_iff.mpr
  refine ⟨⟨lt0, lt1⟩, lt_of_le_of_ne (lowest0 _ free1) ne.symm,
    ⟨Option.map_eq_none_iff.mp free0, Option.map_eq_none_iff.mp free1⟩, fun n free => ?_, ?_, ?_, ?_⟩
  · refine or_iff_not_imp_left.mpr fun other => lowest1 n ?_
    rw [Function.update_of_ne other]
    exact before free
  · rw [Function.update_of_ne ne.symm, Function.update_self]
  · rw [Function.update_self]
  · intro n not0 not1
    rw [Function.update_of_ne not1, Function.update_of_ne not0]

lemma Piped.target_of_free (piped : Piped limit fds fds0 fds1 table) (free : fds (target mode) = none) :
    target mode = fds0 ∨ target mode = fds1 := by
  have order := piped.order
  have small : target mode ≤ 1 := by
    rw [target]
    split <;> decide
  rcases piped.lowest _ free with first | le
  · exact .inl first
  · exact .inr (by omega)

lemma child_eq (n : ℕ) (not0 : n ≠ fds0) (not1 : n ≠ fds1) (piped : Piped limit fds fds0 fds1 table) :
    child limit mode fds0 fds1 table n =
      if n = target mode then some (.inl (childEnd mode)) else (fds n).map .inr := by
  have lt := piped.lt
  have order := piped.order
  rw [child, FdTable.close_of_ne not1, FdTable.close_of_ne not0, target, childEnd]
  by_cases reads : mode = R
  · rw [if_pos reads, if_pos reads, if_pos reads]
    split
    · next is => rw [is, FdTable.dup2_self (show 1 < limit by omega) piped.write]
    · next isnt => rw [FdTable.dup2_of_ne isnt, piped.others n not0 not1]
  · rw [if_neg reads, if_neg reads, if_neg reads]
    split
    · next is => rw [is, FdTable.dup2_self (show 0 < limit by omega) piped.read]
    · next isnt => rw [FdTable.dup2_of_ne isnt, piped.others n not0 not1]

lemma child_closed {n : ℕ} (is : n = fds0 ∨ n = fds1) : child limit mode fds0 fds1 table n = none := by
  rw [child]
  rcases is with rfl | rfl
  · by_cases same : n = fds1
    · rw [same, FdTable.close_self]
    · rw [FdTable.close_of_ne same, FdTable.close_self]
  · exact FdTable.close_self

end Pipes

/-- The child's standard stream is its end of the pipe, and nothing else is, just if that stream was open before. -/
theorem popen_connects_iff {File : Type*} {limit : ℕ} {mode : UInt8} {fds : FdTable File}
    {childFds : FdTable (PipeEnd ⊕ File)} (forked : popenChild limit mode fds = some childFds) :
    Connected mode childFds ↔ (fds (target mode)).isSome = true := by
  obtain ⟨⟨fds0, fds1, table⟩, done, rfl⟩ := Option.map_eq_some_iff.mp forked
  have piped := piped_of_pipe done
  constructor
  · intro connected
    by_contra closed
    have free := Option.not_isSome_iff_eq_none.mp closed
    have lost := @child_closed File limit mode table fds0 fds1 _ (piped.target_of_free free)
    rw [connected.stream] at lost
    cases lost
  · intro isOpen
    obtain ⟨file, is⟩ := Option.isSome_iff_exists.mp isOpen
    have kept : ∀ {fd}, fds fd = none → target mode ≠ fd := by
      rintro fd free rfl
      rw [free] at is
      cases is
    refine ⟨?_, fun n other e => ?_⟩
    · rw [child_eq _ (kept piped.free.1) (kept piped.free.2) piped, if_pos rfl]
    · by_cases new : n = fds0 ∨ n = fds1
      · rw [child_closed new]
        exact (Option.some_ne_none _).symm
      · obtain ⟨not0, not1⟩ := not_or.mp new
        rw [child_eq n not0 not1 piped, if_neg other]
        exact before_ne

def opened (fds : List ℕ) : FdTable Unit := fun n => if fds.contains n then some () else none

theorem popen_connects_usual :
    ∃ childFds, popenChild 8 R (opened [0, 1, 2]) = some childFds ∧ Connected R childFds := by
  obtain ⟨childFds, forked⟩ := Option.isSome_iff_exists.mp
    (show (popenChild 8 R (opened [0, 1, 2])).isSome = true by decide +kernel)
  exact ⟨childFds, forked, (popen_connects_iff forked).mpr (by decide)⟩

/-- Without a standard output the pipe takes descriptor 1 itself, and the child closes it; likewise without a standard
    input for the other mode. -/
theorem popen_disconnects :
    (popenChild 8 R (opened [0, 2])).map (· 1) = some none ∧
      (popenChild 8 R (opened [2])).map (· 1) = some none ∧
      (popenChild 8 0x77 (opened [1, 2])).map (· 0) = some none ∧
      ∃ childFds, popenChild 8 R (opened [0, 2]) = some childFds ∧ ¬Connected R childFds := by
  have closed : (popenChild 8 R (opened [0, 2])).map (· 1) = some none := by decide +kernel
  obtain ⟨childFds, forked, free⟩ := Option.map_eq_some_iff.mp closed
  refine ⟨closed, by decide +kernel, by decide +kernel, childFds, forked, fun connected => ?_⟩
  exact absurd (free.symm.trans connected.stream) (Option.some_ne_none _).symm

end Macify.Exec.Popen
