import Macify.Shim.FileClones

/-!
# Copying a file into the prefix

`copy_file` (`src/prefix.c`) reads a chunk, writes it in an inner loop until nothing is left of it, and removes the
destination if a call has failed. So the destination is then the source or is not there, however much the kernel
reads and writes at a time (`copy_file_all_or_nothing`).
-/

namespace Macify.Paths
open Lib Shim.Clones

structure CopyKernel where
  openSrc : Bool
  openDst : Bool
  reads : ℕ → Reply
  writes : ℕ → Reply

variable (k : CopyKernel)

def writeLoop (j : ℕ) (bytes dst : Buf) : Bool × ℕ × Buf :=
  if bytes = [] then (true, j, dst)
  else
    match writeChunk bytes (k.writes j) with
    | none => (false, j + 1, dst)
    | some 0 => (false, j + 1, dst)
    | some (w + 1) => writeLoop (j + 1) (bytes.drop (w + 1)) (dst ++ bytes.take (w + 1))
termination_by bytes.length
decreasing_by
  rw [List.length_drop]
  exact Nat.sub_lt (List.length_pos_of_ne_nil ‹_›) (Nat.succ_pos w)

lemma drop_chunk_lt {rest chunk : Buf} {c : UInt8} {r : Reply} (read : readChunk rest r = some (c :: chunk)) :
    (rest.drop (c :: chunk).length).length < rest.length := by
  rw [List.length_drop]
  refine Nat.sub_lt (List.length_pos_of_ne_nil ?_) (Nat.succ_pos _)
  rintro rfl
  cases r with
  | error => cases read
  | upTo n => cases (Option.some.inj read).symm.trans List.take_nil

def copyFrom (i j : ℕ) (rest dst : Buf) : Bool × Buf :=
  match _read : readChunk rest (k.reads i) with
  | none => (false, dst)
  | some [] => (true, dst)
  | some (c :: chunk) =>
    match writeLoop k j (c :: chunk) dst with
    | (false, _, dst) => (false, dst)
    | (true, j, dst) => copyFrom (i + 1) j (rest.drop (c :: chunk).length) dst
termination_by rest.length
decreasing_by exact drop_chunk_lt _read

def copyFile (contents : Buf) (before : Option Buf) : Outcome :=
  if !k.openSrc then ⟨-1, false, before⟩
  else if !k.openDst then ⟨-1, false, before⟩
  else
    match copyFrom k 0 0 contents [] with
    | (true, dst) => ⟨0, true, some dst⟩
    | (false, _) => ⟨-1, true, none⟩

variable {k} {i j j' : ℕ} {bytes rest dst dst' : Buf}

lemma writeLoop_append (wrote : writeLoop k j bytes dst = (true, j', dst')) : dst' = dst ++ bytes := by
  fun_induction writeLoop k j bytes dst with
  | case1 => cases wrote; rw [List.append_nil]
  | case2 | case3 => cases wrote
  | case4 j bytes dst _ w _ ih => rw [ih wrote, List.append_assoc, List.take_append_drop]

lemma copyFrom_append (copied : copyFrom k i j rest dst = (true, dst')) : dst' = dst ++ rest := by
  fun_induction copyFrom k i j rest dst with
  | case1 => cases copied
  | case2 i j rest dst read => cases copied; rw [readChunk_eq_nil read, List.append_nil]
  | case3 => cases copied
  | case4 i j rest dst c chunk read j' dst' wrote ih =>
    rw [ih copied, writeLoop_append wrote, List.append_assoc, readChunk_append read]

/-- If 0 is returned the destination is the whole source, and it is gone if the copy fails after opening it. -/
theorem copy_file_all_or_nothing (k : CopyKernel) (contents : Buf) (before : Option Buf) :
    ((copyFile k contents before).result = 0 → (copyFile k contents before).dst = some contents) ∧
      ((copyFile k contents before).result ≠ 0 → (copyFile k contents before).created = true →
        (copyFile k contents before).dst = none) := by
  have minus : (-1 : ℤ) ≠ 0 := by decide
  rw [copyFile]
  split
  · exact ⟨fun ok => absurd ok minus, fun _ opened => absurd opened Bool.false_ne_true⟩
  split
  · exact ⟨fun ok => absurd ok minus, fun _ opened => absurd opened Bool.false_ne_true⟩
  split
  · next dst copied =>
    refine ⟨fun _ => ?_, fun failed => absurd rfl failed⟩
    rw [copyFrom_append copied, List.nil_append]
  · exact ⟨fun ok => absurd ok minus, fun _ _ => rfl⟩

end Macify.Paths
