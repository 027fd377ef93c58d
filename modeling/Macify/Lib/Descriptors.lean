import Macify.Lib.Bytes
import Macify.Lib.Loop

/-!
# File actions

What a process hands to a child: its descriptors and its working directory. File actions are performed before its
program starts, and the descriptors marked `cloexec` are closed when it does. The kernel is arbitrary.

`performAll_fussy` is for showing that something can go differently: actions that can be performed at all are
performed by a kernel that opens everything but what it was told to refuse.
-/

namespace Macify.Lib

structure Descriptor (File : Type*) where
  file : File
  cloexec : Bool

structure Process (Dir File Disk : Type*) where
  fds : ℤ → Option (Descriptor File)
  cwd : Dir
  disk : Disk

def Process.exec {Dir File Disk : Type*} (p : Process Dir File Disk) : Process Dir File Disk :=
  { p with fds := fun n => (p.fds n).filter (!·.cloexec) }

lemma Process.exec_fds {Dir File Disk : Type*} {p : Process Dir File Disk} {n : ℤ} :
    p.exec.fds n = (p.fds n).filter (!·.cloexec) := rfl

inductive FileAction
  | addclose (fd : ℤ)
  | adddup2 (fd newfd : ℤ)
  | addopen (fd : ℤ) (path : Buf) (oflag : W32) (mode : ℕ)
  | addchdir (path : Buf)
  | addfchdir (fd : ℤ)
  deriving DecidableEq

/-- `openFile` is for a process that has closed the descriptor: the new descriptor, and the disk. -/
structure Kernel (Dir File Disk : Type*) where
  openFile : Process Dir File Disk → ℤ → Buf → W32 → ℕ → Option (Descriptor File × Disk)
  lookup : Disk → Dir → Buf → Option Dir
  dirOf : File → Option Dir

namespace FileAction

def inRange (openMax : ℕ) : FileAction → Bool
  | addclose fd => decide (0 ≤ fd ∧ fd < openMax)
  | adddup2 fd newfd => decide (0 ≤ fd ∧ fd < openMax) && decide (0 ≤ newfd ∧ newfd < openMax)
  | addopen fd _ _ _ => decide (0 ≤ fd ∧ fd < openMax)
  | addchdir _ => true
  | addfchdir fd => decide (0 ≤ fd ∧ fd < openMax)

variable {Dir File Disk : Type*} (openMax : ℕ) (k : Kernel Dir File Disk)

def perform (p : Process Dir File Disk) (a : FileAction) : Option (Process Dir File Disk) :=
  if a.inRange openMax then
    match a with
    | addclose fd => some { p with fds := Function.update p.fds fd none }
    | adddup2 fd newfd =>
      (p.fds fd).map fun d => { p with fds := Function.update p.fds newfd (some ⟨d.file, false⟩) }
    | addopen fd path oflag mode =>
      let closed := { p with fds := Function.update p.fds fd none }
      (k.openFile closed fd path oflag mode).map fun r =>
        { p with fds := Function.update p.fds fd (some r.1), disk := r.2 }
    | addchdir path => (k.lookup p.disk p.cwd path).map fun dir => { p with cwd := dir }
    | addfchdir fd => ((p.fds fd).bind fun d => k.dirOf d.file).map fun dir => { p with cwd := dir }
  else none

def performAll (p : Process Dir File Disk) (actions : List FileAction) : Option (Process Dir File Disk) :=
  actions.foldlM (perform openMax k) p

variable {openMax k} {p q : Process Dir File Disk} {a : FileAction}

lemma performAll_cons {actions : List FileAction} :
    performAll openMax k p (a :: actions) =
      (perform openMax k p a).bind fun q => performAll openMax k q actions := rfl

lemma performAll_append {as bs : List FileAction} :
    performAll openMax k p (as ++ bs) =
      (performAll openMax k p as).bind fun q => performAll openMax k q bs := by
  induction as generalizing p with
  | nil => rfl
  | cons a as ih =>
    rw [List.cons_append, performAll_cons, performAll_cons]
    cases perform openMax k p a with
    | none => rfl
    | some q => exact ih

lemma performAll_concat {as : List FileAction} :
    performAll openMax k p (as ++ [a]) = (performAll openMax k p as).bind fun q => perform openMax k q a := by
  rw [performAll_append]
  congr 1
  funext q
  rw [performAll_cons]
  exact Option.bind_fun_some _

lemma inRange_of_perform (done : perform openMax k p a = some q) : a.inRange openMax = true := by
  rw [perform.eq_def] at done
  split at done
  · next ok => exact ok
  · cases done

lemma fds_of_addclose {fd : ℤ} (done : perform openMax k p (addclose fd) = some q) : q.fds fd = none := by
  have ok := inRange_of_perform done
  rw [perform.eq_def, if_pos ok] at done
  cases done
  exact Function.update_self fd none p.fds

lemma fds_of_adddup2 {fd newfd : ℤ}
    (done : perform openMax k p (adddup2 fd newfd) = some q) : ∃ file, q.fds newfd = some ⟨file, false⟩ := by
  have ok := inRange_of_perform done
  rw [perform.eq_def, if_pos ok] at done
  obtain ⟨d, -, rfl⟩ := Option.map_eq_some_iff.mp done
  exact ⟨d.file, Function.update_self newfd _ p.fds⟩

def opened : FileAction → Option (Buf × W32)
  | addopen _ path oflag _ => some (path, oflag)
  | _ => none

def stays : FileAction → Bool
  | addchdir _ | addfchdir _ => false
  | _ => true

def fussy (refuses : ℕ → Buf × W32 → Bool) : Kernel Unit Unit ℕ where
  openFile p _ path oflag _ :=
    if refuses p.disk (path, oflag) then none else some (⟨(), false⟩, p.disk + 1)
  lookup _ _ _ := none
  dirOf _ := none

section Fussy

variable {refuses : ℕ → Buf × W32 → Bool} {actions : List FileAction} {q q' : Process Unit Unit ℕ}

lemma fussy_inv (done : perform openMax (fussy refuses) q a = some q') :
    a.stays = true ∧ (∀ call, opened a = some call → refuses q.disk call = false) ∧
      q'.disk = q.disk + (opened a).toList.length := by
  have ok := inRange_of_perform done
  rw [perform.eq_def, if_pos ok] at done
  cases a with
  | addclose fd =>
    cases done
    exact ⟨rfl, nofun, rfl⟩
  | adddup2 fd newfd =>
    obtain ⟨d, -, rfl⟩ := Option.map_eq_some_iff.mp done
    exact ⟨rfl, nofun, rfl⟩
  | addopen fd path oflag mode =>
    obtain ⟨r, opens, rfl⟩ := Option.map_eq_some_iff.mp done
    dsimp only [fussy] at opens
    split at opens
    · cases opens
    · next accepted =>
      cases opens
      refine ⟨rfl, fun call is => ?_, rfl⟩
      cases is
      exact Bool.eq_false_iff.mpr accepted
  | addchdir path => cases done
  | addfchdir fd =>
    obtain ⟨dir, found, -⟩ := Option.map_eq_some_iff.mp done
    obtain ⟨d, -, none_here⟩ := Option.bind_eq_some_iff.mp found
    cases none_here

lemma performAll_disk (done : performAll openMax (fussy refuses) q actions = some q') :
    q'.disk = q.disk + (actions.filterMap opened).length := by
  induction actions generalizing q with
  | nil =>
    cases done
    rfl
  | cons a actions ih =>
    rw [performAll_cons] at done
    obtain ⟨r, first, rest⟩ := Option.bind_eq_some_iff.mp done
    rw [ih rest, (fussy_inv first).2.2, List.filterMap_cons]
    cases opened a with
    | none => rfl
    | some call =>
      rw [List.length_cons]
      exact Nat.add_right_comm _ _ _

lemma perform_fussy {p p' : Process Dir File Disk} (done : perform openMax k p a = some p')
    (still : a.stays = true) (more : ∀ n, (p.fds n).isSome = true → (q.fds n).isSome = true)
    (accepted : ∀ call, opened a = some call → refuses q.disk call = false) :
    ∃ q', perform openMax (fussy refuses) q a = some q' ∧
      ∀ n, (p'.fds n).isSome = true → (q'.fds n).isSome = true := by
  have ok := inRange_of_perform done
  rw [perform.eq_def, if_pos ok] at done ⊢
  have updated : ∀ {n fd : ℤ} {d : Option (Descriptor File)} {e : Option (Descriptor Unit)},
      (d.isSome = true → e.isSome = true) →
        (Function.update p.fds fd d n).isSome = true → (Function.update q.fds fd e n).isSome = true := by
    intro n fd d e same
    by_cases eq : n = fd
    · rw [eq, Function.update_self, Function.update_self]
      exact same
    · rw [Function.update_of_ne eq, Function.update_of_ne eq]
      exact more n
  cases a with
  | addclose fd =>
    cases done
    exact ⟨_, rfl, fun n => updated id⟩
  | adddup2 fd newfd =>
    obtain ⟨d, is, rfl⟩ := Option.map_eq_some_iff.mp done
    obtain ⟨e, there⟩ := Option.isSome_iff_exists.mp (more fd (by rw [is]; rfl))
    exact ⟨_, Option.map_eq_some_iff.mpr ⟨e, there, rfl⟩, fun n => updated fun _ => rfl⟩
  | addopen fd path oflag mode =>
    obtain ⟨r, -, rfl⟩ := Option.map_eq_some_iff.mp done
    have opens : ¬ refuses q.disk (path, oflag) = true := Bool.eq_false_iff.mp (accepted (path, oflag) rfl)
    exact ⟨_, Option.map_eq_some_iff.mpr ⟨_, if_neg opens, rfl⟩, fun n => updated fun _ => rfl⟩
  | addchdir path | addfchdir fd => cases still

lemma performAll_fussy {p p' : Process Dir File Disk} (done : performAll openMax k p actions = some p')
    (still : ∀ a ∈ actions, a.stays = true) (more : ∀ n, (p.fds n).isSome = true → (q.fds n).isSome = true)
    (accepted : ∀ i call, (actions.filterMap opened)[i]? = some call → refuses (q.disk + i) call = false) :
    ∃ q', performAll openMax (fussy refuses) q actions = some q' := by
  induction actions generalizing p q with
  | nil => exact ⟨q, rfl⟩
  | cons a actions ih =>
    rw [performAll_cons] at done ⊢
    obtain ⟨r, first, rest⟩ := Option.bind_eq_some_iff.mp done
    obtain ⟨s, first', more'⟩ := perform_fussy first (still a List.mem_cons_self) more fun call is => by
      refine accepted 0 call ?_
      rw [List.filterMap_cons, is]
      rfl
    rw [first']
    refine ih rest (fun b mem => still b (List.mem_cons_of_mem a mem)) more' fun i call is => ?_
    rw [(fussy_inv first').2.2, Nat.add_assoc]
    apply accepted
    rw [List.filterMap_cons]
    cases opened a with
    | none =>
      rw [Option.toList_none, List.length_nil, Nat.zero_add]
      exact is
    | some first =>
      rw [Option.toList_some, List.length_singleton, Nat.add_comm 1 i]
      exact is

end Fussy

end FileAction

abbrev FdTable (File : Type*) := ℕ → Option File

namespace FdTable

variable {File : Type*} (limit : ℕ)

def lowestFree (fds : FdTable File) : Option ℕ := (List.range limit).find? fun n => (fds n).isNone

def alloc (fds : FdTable File) (file : File) : Option (ℕ × FdTable File) :=
  (lowestFree limit fds).map fun n => (n, Function.update fds n (some file))

def close (fds : FdTable File) (fd : ℕ) : FdTable File := Function.update fds fd none

def dup2 (fds : FdTable File) (oldfd newfd : ℕ) : FdTable File :=
  if newfd < limit ∧ (fds oldfd).isSome then Function.update fds newfd (fds oldfd) else fds

variable {limit} {fds fds' : FdTable File} {n m : ℕ} {file : File}

lemma lowestFree_spec (found : lowestFree limit fds = some n) :
    n < limit ∧ fds n = none ∧ ∀ m, fds m = none → n ≤ m := by
  obtain ⟨free, lt, taken⟩ := List.find?_range_eq_some.mp found
  refine ⟨List.mem_range.mp lt, Option.isNone_iff_eq_none.mp free, fun m none => ?_⟩
  by_contra less
  have open_ := taken m (Nat.lt_of_not_le less)
  rw [none] at open_
  cases open_

lemma alloc_spec (done : alloc limit fds file = some (n, fds')) :
    n < limit ∧ fds n = none ∧ (∀ m, fds m = none → n ≤ m) ∧ fds' = Function.update fds n (some file) := by
  obtain ⟨k, found, eq⟩ := Option.map_eq_some_iff.mp done
  cases eq
  obtain ⟨lt, free, lowest⟩ := lowestFree_spec found
  exact ⟨lt, free, lowest, rfl⟩

lemma close_self : close fds n n = none := Function.update_self ..

lemma close_of_ne (ne : m ≠ n) : close fds n m = fds m := Function.update_of_ne ne ..

lemma dup2_self (lt : m < limit) (isOpen : fds n = some file) : dup2 limit fds n m m = some file := by
  rw [dup2, if_pos ⟨lt, by rw [isOpen]; rfl⟩, Function.update_self, isOpen]

lemma dup2_of_ne {k : ℕ} (ne : k ≠ m) : dup2 limit fds n m k = fds k := by
  rw [dup2]
  split
  · exact Function.update_of_ne ne ..
  · rfl

end FdTable

end Macify.Lib
