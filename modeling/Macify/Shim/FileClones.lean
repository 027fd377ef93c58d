import Macify.Lib.Bytes

/-!
# Cloning a file

`fclonefileat` (`shim/sys/fs.c`) is a copy: a loop reads from the source descriptor, wherever that stands, and writes
to the destination, in parts of any size. `clone_complete_iff` says when the destination is complete or absent
afterwards: a read that fails ends the loop as the end of the file does, and nothing removes a destination that
could not be written completely.
-/

namespace Macify.Shim.Clones
open Lib

/-- The answer to one call of `read` or `write`: it fails, or is for at most so many bytes. -/
inductive Reply where
  | error
  | upTo (n : ℕ)
  deriving DecidableEq

/-- The answers of the kernel. `aliased`: the destination is the source itself. -/
structure CloneKernel where
  fstat : Option W32
  openat : W32 → Bool
  aliased : Bool
  reads : ℕ → Reply
  writes : ℕ → Reply

def bufSize : ℕ := 65536

/-- `read` into the buffer, where `rest` is what is left of the file. Only the end of a file gives an empty read. -/
def readChunk (rest : Buf) : Reply → Option Buf
  | .error => none
  | .upTo n => some (rest.take (min (max 1 n) bufSize))

def writeChunk (bytes : Buf) : Reply → Option ℕ
  | .error => none
  | .upTo n => some (min n bytes.length)

structure Outcome where
  result : ℤ
  created : Bool
  dst : Option Buf
  deriving DecidableEq

def copyLoop (k : CloneKernel) (source : Buf) : ℕ → ℕ → ℕ → Buf → Option (ℤ × Buf)
  | 0, _, _, _ => none
  | fuel + 1, i, offset, dst =>
    match readChunk (source.drop offset) (k.reads i) with
    -- the loop ends for -1 as it does for 0
    | none => some (0, dst)
    | some [] => some (0, dst)
    | some (c :: chunk) =>
      let w := writeChunk (c :: chunk) (k.writes i)
      let dst := dst ++ (c :: chunk).take (w.getD 0)
      if w = some (c :: chunk).length then
        copyLoop k source fuel (i + 1) (offset + (c :: chunk).length) dst
      else some (-1, dst)

/-- For a source with some contents and a destination that was `before`, which is made empty. -/
def fclonefileat (k : CloneKernel) (contents : Buf) (offset : ℕ) (before : Option Buf) : Option Outcome :=
  match k.fstat with
  | none => some ⟨-1, false, before⟩
  | some mode =>
    if !k.openat (mode &&& 0o777) then some ⟨-1, false, before⟩
    else
      let source := if k.aliased then [] else contents
      (copyLoop k source (source.length + 1) 0 offset []).map fun r => ⟨r.1, true, some r.2⟩

def Outcome.CompleteOrAbsent (contents : Buf) (out : Outcome) : Prop :=
  (out.result = 0 → out.dst = some contents) ∧
    (out.result = -1 → out.created = true → ∀ partly, out.dst = some partly → partly = contents)

namespace CloneKernel

variable (k : CloneKernel) (source : Buf) (offset : ℕ)

def reached : ℕ → ℕ
  | 0 => offset
  | i + 1 => reached i + ((readChunk (source.drop (reached i)) (k.reads i)).getD []).length

def chunk (i : ℕ) : Option Buf := readChunk (source.drop (k.reached source offset i)) (k.reads i)

def Whole (i : ℕ) : Prop :=
  ∃ bytes, k.chunk source offset i = some bytes ∧ writeChunk bytes (k.writes i) = some bytes.length

def WholeFrom (i : ℕ) : Prop :=
  ∀ j, i ≤ j → k.reached source offset j < source.length → k.Whole source offset j

end CloneKernel

section Turns

variable {k : CloneKernel} {source dst : Buf} {offset fuel i : ℕ}

lemma readChunk_eq_nil {rest : Buf} {r : Reply} (empty : readChunk rest r = some []) : rest = [] := by
  cases r with
  | error => cases empty
  | upTo n =>
    rw [readChunk, Option.some.injEq, List.take_eq_nil_iff] at empty
    exact empty.resolve_left (by simp [bufSize])

lemma readChunk_append {rest bytes : Buf} {r : Reply} (read : readChunk rest r = some bytes) :
    bytes ++ rest.drop bytes.length = rest := by
  cases r with
  | error => cases read
  | upTo n =>
    cases read
    rw [List.length_take]
    conv_rhs => rw [← List.take_append_drop (min (max 1 n) bufSize) rest]
    congr 1
    rcases Nat.le_total (min (max 1 n) bufSize) rest.length with le | ge
    · rw [min_eq_left le]
    · rw [min_eq_right ge, List.drop_of_length_le ge, List.drop_length]

lemma writeChunk_le {bytes : Buf} {r : Reply} {w : ℕ} (wrote : writeChunk bytes r = some w) :
    w ≤ bytes.length := by
  cases r with
  | error => cases wrote
  | upTo n =>
    cases wrote
    exact Nat.min_le_right _ _

lemma writeChunk_lt {bytes : Buf} {r : Reply} (some : bytes ≠ [])
    (less : writeChunk bytes r ≠ .some bytes.length) : (writeChunk bytes r).getD 0 < bytes.length := by
  cases wrote : writeChunk bytes r with
  | none => exact List.length_pos_of_ne_nil some
  | some w =>
    refine Nat.lt_of_le_of_ne (writeChunk_le wrote) fun eq => less ?_
    rw [wrote]
    exact congrArg Option.some eq

lemma reached_succ {bytes : Buf} (read : k.chunk source offset i = some bytes) :
    k.reached source offset (i + 1) = k.reached source offset i + bytes.length := by
  rw [CloneKernel.chunk] at read
  rw [CloneKernel.reached, read]
  rfl

lemma WholeFrom.of_succ (here : k.Whole source offset i) (later : k.WholeFrom source offset (i + 1)) :
    k.WholeFrom source offset i := by
  intro j le lt
  rcases Nat.eq_or_lt_of_le le with rfl | gt
  · exact here
  · exact later j gt lt

lemma wholeFrom_of_end (done : source.length ≤ k.reached source offset i) : k.WholeFrom source offset i := by
  have mono : ∀ j, i ≤ j → source.length ≤ k.reached source offset j := by
    intro j le
    induction j, le using Nat.le_induction with
    | base => exact done
    | succ j _ ih => exact ih.trans (Nat.le_add_right _ _)
  intro j le lt
  exact absurd (mono j le) (Nat.not_le.mpr lt)

/-- The loop comes to an end. It writes all that is left if all turns are whole, and less otherwise. -/
lemma copyLoop_spec (enough : source.length - k.reached source offset i < fuel) :
    ∃ ret more, copyLoop k source fuel i (k.reached source offset i) dst = some (ret, dst ++ more) ∧
      (ret = 0 ∨ ret = -1) ∧
      (k.WholeFrom source offset i → ret = 0 ∧ more = source.drop (k.reached source offset i)) ∧
      (¬k.WholeFrom source offset i → more.length < (source.drop (k.reached source offset i)).length) := by
  induction fuel generalizing i dst with
  | zero => exact absurd enough (Nat.not_lt_zero _)
  | succ fuel ih =>
    rw [copyLoop]
    cases read : readChunk (source.drop (k.reached source offset i)) (k.reads i) with
    | none =>
      have left : k.WholeFrom source offset i → source.length ≤ k.reached source offset i := by
        intro whole
        by_contra lt
        obtain ⟨bytes, got, -⟩ := whole i le_rfl (Nat.not_le.mp lt)
        cases read.symm.trans got
      refine ⟨0, [], by rw [List.append_nil], .inl rfl, fun whole => ⟨rfl, ?_⟩, fun broken => ?_⟩
      · rw [List.drop_of_length_le (left whole)]
      · have lt := Nat.not_le.mp (mt wholeFrom_of_end broken)
        rw [List.length_nil, List.length_drop]
        exact Nat.sub_pos_of_lt lt
    | some bytes =>
      cases bytes with
      | nil =>
        have done := readChunk_eq_nil read
        have whole : k.WholeFrom source offset i := wholeFrom_of_end (List.drop_eq_nil_iff.mp done)
        exact ⟨0, [], by rw [List.append_nil], .inl rfl, fun _ => ⟨rfl, done.symm⟩,
          fun broken => absurd whole broken⟩
      | cons c chunk =>
        have split := readChunk_append read
        have moved := reached_succ (k := k) (i := i) read
        rw [List.drop_drop, ← moved] at split
        have long : (c :: chunk).length ≤ source.length - k.reached source offset i := by
          rw [← List.length_drop, ← split, List.length_append]
          exact Nat.le_add_right _ _
        by_cases all : writeChunk (c :: chunk) (k.writes i) = some (c :: chunk).length
        · have here : k.Whole source offset i := ⟨_, read, all⟩
          have less : source.length - k.reached source offset (i + 1) < fuel := by
            rw [List.length_cons] at long moved
            omega
          obtain ⟨ret, more, run, ends, good, bad⟩ := @ih (dst ++ (c :: chunk)) (i + 1) less
          refine ⟨ret, (c :: chunk) ++ more, ?_, ends, fun whole => ?_, fun broken => ?_⟩
          · simp only [all, Option.getD_some, List.take_length, if_true]
            rw [← moved, run, List.append_assoc]
          · obtain ⟨rfl, rfl⟩ := good fun j le lt => whole j (Nat.le_of_succ_le le) lt
            exact ⟨rfl, split⟩
          · have less := bad fun later => broken (WholeFrom.of_succ here later)
            rw [← split, List.length_append, List.length_append]
            exact Nat.add_lt_add_left less _
        · refine ⟨-1, _, if_neg all, .inr rfl, fun whole => ?_, fun _ => ?_⟩
          · have lt : k.reached source offset i < source.length := by
              rw [List.length_cons] at long
              omega
            obtain ⟨bytes, got, wrote⟩ := whole i le_rfl lt
            cases read.symm.trans got
            exact absurd wrote all
          · have short := writeChunk_lt (List.cons_ne_nil c chunk) all
            rw [List.length_take, List.length_drop]
            exact lt_of_lt_of_le (lt_of_le_of_lt (Nat.min_le_left _ _) short) long

end Turns

section Clones

variable {k : CloneKernel} {contents : Buf} {offset : ℕ}

lemma completeOrAbsent_iff {ret : ℤ} {dst : Buf} (ends : ret = 0 ∨ ret = -1) :
    Outcome.CompleteOrAbsent contents ⟨ret, true, some dst⟩ ↔ dst = contents := by
  constructor
  · rintro ⟨success, failure⟩
    rcases ends with rfl | rfl
    · exact Option.some.inj (success rfl)
    · exact failure rfl rfl dst rfl
  · rintro rfl
    exact ⟨fun _ => rfl, fun _ _ partly eq => (Option.some.inj eq).symm⟩

lemma drop_eq_self_iff : contents.drop offset = contents ↔ contents = [] ∨ offset = 0 := by
  constructor
  · intro eq
    have len := congrArg List.length eq
    rw [List.length_drop] at len
    rw [← List.length_eq_zero_iff]
    omega
  · rintro (rfl | rfl)
    · exact List.drop_nil
    · rfl

lemma copied_iff :
    ∃ ret dst, copyLoop k contents (contents.length + 1) 0 offset [] = some (ret, dst) ∧
      (ret = 0 ∨ ret = -1) ∧
      (dst = contents ↔ contents = [] ∨ offset = 0 ∧ k.WholeFrom contents offset 0) := by
  obtain ⟨ret, dst, run, ends, good, bad⟩ :=
    @copyLoop_spec k contents [] offset (contents.length + 1) 0 (Nat.lt_succ_of_le (Nat.sub_le _ _))
  refine ⟨ret, dst, run, ends, ?_⟩
  by_cases whole : k.WholeFrom contents offset 0
  · obtain ⟨-, rfl⟩ := good whole
    rw [CloneKernel.reached, drop_eq_self_iff]
    exact or_congr_right (and_iff_left whole).symm
  · have less := bad whole
    rw [List.length_drop] at less
    constructor
    · rintro rfl
      omega
    · rintro (rfl | ⟨-, whole'⟩)
      · rw [List.length_nil, Nat.zero_sub] at less
        exact absurd less (Nat.not_lt_zero _)
      · exact absurd whole' whole

/-- A complete copy or none is left exactly when the destination could not be opened, the source is empty, or it
    is another file read from its beginning, no read fails and no write is short. -/
theorem clone_complete_iff (k : CloneKernel) (contents : Buf) (offset : ℕ) (before : Option Buf) :
    ∃ out, fclonefileat k contents offset before = some out ∧
      (out.CompleteOrAbsent contents ↔
        (out.created = true →
          contents = [] ∨ offset = 0 ∧ k.aliased = false ∧ k.WholeFrom contents offset 0)) := by
  have refused : Outcome.CompleteOrAbsent contents ⟨-1, false, before⟩ ↔
      (false = true → contents = [] ∨ offset = 0 ∧ k.aliased = false ∧ k.WholeFrom contents offset 0) :=
    iff_of_true ⟨fun zero => absurd zero (show (-1 : ℤ) ≠ 0 by decide),
      fun _ created => absurd created Bool.false_ne_true⟩ fun created => absurd created Bool.false_ne_true
  unfold fclonefileat
  cases k.fstat with
  | none => exact ⟨_, rfl, refused⟩
  | some mode =>
    cases opens : k.openat (mode &&& 0o777) with
    | false =>
      refine ⟨⟨-1, false, before⟩, ?_, refused⟩
      simp only [opens, Bool.not_false, if_true]
    | true =>
      obtain ⟨ret, dst, run, ends, whole⟩ :=
        @copied_iff k (if k.aliased then [] else contents) offset
      refine ⟨⟨ret, true, some dst⟩, ?_, ?_⟩
      · simp only [opens, Bool.not_true, Bool.false_eq_true, if_false, run, Option.map_some]
      rw [completeOrAbsent_iff ends, forall_prop_of_true rfl]
      cases same : k.aliased with
      | false =>
        rw [same] at whole
        simpa using whole
      | true =>
        -- opening the destination has emptied the source
        rw [same] at whole
        obtain rfl : dst = [] := by simpa using whole
        simp [eq_comm]

def willingKernel : CloneKernel := ⟨some 0o644, fun _ => true, false, fun _ => .upTo 9, fun _ => .upTo 9⟩

/-- A source of two bytes whose descriptor stands behind the first one. -/
theorem clone_skips_before_offset :
    ∃ out, fclonefileat willingKernel [1, 2] 1 none = some out ∧ out.result = 0 ∧ out.dst = some [2] ∧
      ¬out.CompleteOrAbsent [1, 2] := by
  refine ⟨⟨0, true, some [2]⟩, by decide, rfl, rfl, fun right => ?_⟩
  exact absurd (right.1 rfl) (show some [2] ≠ some [1, 2] by decide)

end Clones

end Macify.Shim.Clones
