import Macify.Lib.CStrings

/-!
# Bytes of a string

`CFStringGetBytes` (`shim/misc/cf.c`) copies a range of a string into a buffer. Its start and length are signed, and
so is their sum, so that a long range can look as if it ended before the string does. Main result: `stringBytes_iff`.
-/

namespace Macify.Shim
open Lib

structure ScObj where
  tag : W32
  count : W32
  data : W64
  deriving DecidableEq

def scTagString : W32 := 0x5C01

structure StringObj extends ScObj where
  isString : tag = scTagString
  empty : data = 0 → count = 0

/-- What a call does: the result, what it stores at `usedBytes`, and the offset and number of bytes for `memcpy`. -/
structure Taken where
  result : W64
  used : W64
  copy : Option (W64 × W64)
  deriving DecidableEq

def clipStart (total rangeStart : W64) : W64 :=
  let rangeStart := if rangeStart.slt 0#64 then 0#64 else rangeStart
  if total.slt rangeStart then total else rangeStart

def clipLength (total rangeStart rangeLength : W64) : W64 :=
  let rangeLength := if rangeLength.slt 0#64 then 0#64 else rangeLength
  -- a signed sum
  if total.slt (rangeStart + rangeLength) then total - rangeStart else rangeLength

def cfStringGetBytes (theString : Option ScObj) (rangeStart rangeLength bytes maxBytes : W64) : Taken :=
  match theString with
  | none => ⟨0, 0, none⟩
  | some s =>
    if s.tag ≠ scTagString then ⟨0, 0, none⟩
    else if s.data = 0 then ⟨0, 0, none⟩
    else
      let total := s.count.setWidth 64
      let start := clipStart total rangeStart
      let length := clipLength total start rangeLength
      if length = 0 then ⟨0, 0, none⟩
      -- a query for the size
      else if bytes = 0 ∨ maxBytes = 0 then ⟨length, length, none⟩
      else
        let toCopy := if maxBytes < length then maxBytes else length
        ⟨toCopy, toCopy, some (start, toCopy)⟩

def cfStringGetLength (cfstr : Option ScObj) : W64 :=
  match cfstr with
  | none => 0
  | some s => if s.tag ≠ scTagString then 0 else s.count.setWidth 64

def capacity (bytes maxBytes : W64) : ℕ := if bytes = 0 then 0 else maxBytes.toNat

namespace StringObj

variable (o : StringObj) (mem : Mem)

def text : Buf := mem.load o.data o.count.toNat

def part (rangeStart rangeLength : W64) (room : ℕ) : Buf :=
  (((o.text mem).drop rangeStart.toInt.toNat).take rangeLength.toInt.toNat).take room

def copied (t : Taken) : Buf :=
  match t.copy with
  | none => []
  | some (start, n) => mem.load (o.data + start) n.toNat

def Right (rangeStart rangeLength : W64) (room : ℕ) (t : Taken) : Prop :=
  o.copied mem t = o.part mem rangeStart rangeLength room ∧
    ∀ start n, t.copy = some (start, n) → start.toNat + n.toNat ≤ o.count.toNat

/-- The clipped start and the length have a sum, or the buffer is too small for more than the rest of the string. -/
def Fits (rangeStart rangeLength : W64) (room : ℕ) : Prop :=
  min rangeStart.toInt.toNat o.count.toNat + rangeLength.toInt.toNat < 2 ^ 63 ∨
    room ≤ o.count.toNat - min rangeStart.toInt.toNat o.count.toNat

/-- Read a string chunk by chunk; `want` says how long a range is asked for. The result has the starts of the chunks
    and what was read. -/
def readChunks (bytes maxBytes : W64) (want : ℕ → W64) : ℕ → ℕ → Option (List ℕ × Buf)
  | 0, _ => none
  | fuel + 1, start =>
    if (cfStringGetLength (some o.toScObj)).toNat ≤ start then some ([], [])
    else
      let t := cfStringGetBytes (some o.toScObj) (BitVec.ofNat 64 start) (want start) bytes maxBytes
      (readChunks bytes maxBytes want fuel (start + t.result.toNat)).map fun r =>
        (start :: r.1, o.copied mem t ++ r.2)

end StringObj

section Clipping

variable {total start length : W64}

lemma toInt_of_small {x : W64} (small : x.toNat < 2 ^ 63) : x.toInt = x.toNat :=
  BitVec.toInt_eq_toNat_of_lt (by omega)

lemma toInt_nonneg_or (x : W64) : x.toInt = x.toNat ∧ x.toNat < 2 ^ 63 ∨ x.toInt < 0 ∧ 2 ^ 63 ≤ x.toNat := by
  rw [BitVec.toInt_eq_toNat_cond]
  have lt := x.isLt
  split <;> omega

lemma toNat_clipStart (small : total.toNat < 2 ^ 32) :
    (clipStart total start).toNat = min start.toInt.toNat total.toNat := by
  have whole : total.toInt = total.toNat := toInt_of_small (by omega)
  simp only [clipStart, BitVec.slt_iff_toInt_lt, BitVec.toInt_zero]
  rcases toInt_nonneg_or start with ⟨same, lt⟩ | ⟨neg, ge⟩
  · rw [if_neg (show ¬start.toInt < 0 by omega)]
    split <;> omega
  · rw [if_pos neg, BitVec.toInt_zero, if_neg (by omega), BitVec.toNat_zero]
    omega

lemma toNat_clipLength (le : start.toNat ≤ total.toNat) (small : total.toNat < 2 ^ 32)
    (sum : start.toNat + length.toInt.toNat < 2 ^ 63) :
    (clipLength total start length).toNat = min length.toInt.toNat (total.toNat - start.toNat) := by
  have whole : total.toInt = total.toNat := toInt_of_small (by omega)
  simp only [clipLength, BitVec.slt_iff_toInt_lt, BitVec.toInt_zero]
  rcases toInt_nonneg_or length with ⟨same, lt⟩ | ⟨neg, ge⟩
  · have noWrap : (start + length).toNat = start.toNat + length.toNat :=
      BitVec.toNat_add_of_lt (by omega)
    have value : (start + length).toInt = start.toNat + length.toNat := by
      rw [toInt_of_small (by omega), noWrap]
      rfl
    rw [if_neg (show ¬length.toInt < 0 by omega), value]
    split
    · rw [BitVec.toNat_sub_of_le le]
      omega
    · omega
  · have value : start.toInt = start.toNat := toInt_of_small (by omega)
    rw [if_pos neg, BitVec.add_zero, if_neg (by omega), BitVec.toNat_zero]
    omega

lemma clipLength_of_overflow (le : start.toNat ≤ total.toNat) (small : total.toNat < 2 ^ 32)
    (overflow : 2 ^ 63 ≤ start.toNat + length.toInt.toNat) : clipLength total start length = length := by
  have whole : total.toInt = total.toNat := toInt_of_small (by omega)
  simp only [clipLength, BitVec.slt_iff_toInt_lt, BitVec.toInt_zero]
  rcases toInt_nonneg_or length with ⟨same, lt⟩ | ⟨neg, ge⟩
  · have noWrap : (start + length).toNat = start.toNat + length.toNat :=
      BitVec.toNat_add_of_lt (by omega)
    have value : (start + length).toInt < 0 := by
      rcases toInt_nonneg_or (start + length) with ⟨-, lt⟩ | ⟨neg, -⟩
      · omega
      · exact neg
    rw [if_neg (show ¬length.toInt < 0 by omega), if_neg (by omega)]
  · omega

end Clipping

namespace StringObj

variable {o : StringObj} {mem : Mem} {rangeStart rangeLength bytes maxBytes : W64}

lemma length_text : (o.text mem).length = o.count.toNat := Mem.length_load

lemma toNat_total : (o.count.setWidth 64).toNat = o.count.toNat := by
  rw [BitVec.toNat_setWidth]
  exact Nat.mod_eq_of_lt (lt_trans o.count.isLt (by decide))

lemma toNat_start :
    (clipStart (o.count.setWidth 64) rangeStart).toNat = min rangeStart.toInt.toNat o.count.toNat := by
  rw [toNat_clipStart (by rw [toNat_total]; exact o.count.isLt), toNat_total]

lemma start_le_total : (clipStart (o.count.setWidth 64) rangeStart).toNat ≤ (o.count.setWidth 64).toNat := by
  rw [toNat_start, toNat_total]
  exact min_le_right _ _

def amount (o : StringObj) (rangeStart rangeLength : W64) (room : ℕ) : ℕ :=
  let total := o.count.setWidth 64
  min (clipLength total (clipStart total rangeStart) rangeLength).toNat room

lemma toNat_clipped (sum : min rangeStart.toInt.toNat o.count.toNat + rangeLength.toInt.toNat < 2 ^ 63) :
    (clipLength (o.count.setWidth 64) (clipStart (o.count.setWidth 64) rangeStart) rangeLength).toNat =
      min rangeLength.toInt.toNat (o.count.toNat - min rangeStart.toInt.toNat o.count.toNat) := by
  have start := @toNat_start o rangeStart
  have whole := @toNat_total o
  rw [toNat_clipLength start_le_total (whole.trans_lt o.count.isLt) (by rw [start]; exact sum), start, whole]

lemma toNat_unclipped (overflow : 2 ^ 63 ≤ min rangeStart.toInt.toNat o.count.toNat + rangeLength.toInt.toNat) :
    (clipLength (o.count.setWidth 64) (clipStart (o.count.setWidth 64) rangeStart) rangeLength).toNat =
      rangeLength.toInt.toNat := by
  have start := @toNat_start o rangeStart
  have whole := @toNat_total o
  rw [clipLength_of_overflow start_le_total (whole.trans_lt o.count.isLt) (by rw [start]; exact overflow)]
  rcases toInt_nonneg_or rangeLength with ⟨same, -⟩ | ⟨neg, -⟩
  · rw [same]
    rfl
  · have small := o.count.isLt
    omega

lemma amount_of_fits {room : ℕ} (fits : o.Fits rangeStart rangeLength room) :
    o.amount rangeStart rangeLength room = min (min rangeLength.toInt.toNat
      (o.count.toNat - min rangeStart.toInt.toNat o.count.toNat)) room := by
  rw [amount]
  by_cases sum : min rangeStart.toInt.toNat o.count.toNat + rangeLength.toInt.toNat < 2 ^ 63
  · rw [toNat_clipped sum]
  · have small := o.count.isLt
    have room_le := fits.resolve_left sum
    rw [toNat_unclipped (Nat.not_lt.mp sum)]
    omega

lemma lt_amount {room : ℕ} (unfit : ¬o.Fits rangeStart rangeLength room) :
    o.count.toNat - min rangeStart.toInt.toNat o.count.toNat < o.amount rangeStart rangeLength room := by
  have small := o.count.isLt
  rw [Fits] at unfit
  push Not at unfit
  obtain ⟨overflow, roomy⟩ := unfit
  rw [amount, toNat_unclipped overflow]
  omega

lemma getBytes_copy :
    let t := cfStringGetBytes (some o.toScObj) rangeStart rangeLength bytes maxBytes
    let n := o.amount rangeStart rangeLength (capacity bytes maxBytes)
    n = 0 ∧ t.copy = none ∨
      0 < n ∧ ∃ start k, t.copy = some (start, k) ∧ t.result = k ∧ k.toNat = n ∧
        start.toNat = min rangeStart.toInt.toNat o.count.toNat := by
  intro t n
  by_cases null : o.data = 0
  · -- the string is empty, and every range has a sum
    have zero := congrArg BitVec.toNat (o.empty null)
    rw [BitVec.ofNat_eq_ofNat, BitVec.toNat_zero] at zero
    have fits : o.Fits rangeStart rangeLength (capacity bytes maxBytes) := by
      left
      rcases toInt_nonneg_or rangeLength with ⟨same, lt⟩ | ⟨neg, ge⟩ <;> omega
    have amount := amount_of_fits fits
    refine .inl ⟨by omega, ?_⟩
    simp only [t, cfStringGetBytes, o.isString, null, ne_eq, not_true_eq_false, if_true, if_false]
  have call : t = cfStringGetBytes (some o.toScObj) rangeStart rangeLength bytes maxBytes := rfl
  simp only [cfStringGetBytes, o.isString, null, ne_eq, not_true_eq_false, if_false] at call
  have amount : n = min (clipLength (o.count.setWidth 64) (clipStart (o.count.setWidth 64) rangeStart)
      rangeLength).toNat (capacity bytes maxBytes) := rfl
  have start := @toNat_start o rangeStart
  generalize clipStart (o.count.setWidth 64) rangeStart = first at call amount start
  generalize clipLength (o.count.setWidth 64) first rangeLength = length at call amount
  split at call
  next none =>
    refine .inl ⟨?_, by rw [call]⟩
    rw [amount, none]
    exact Nat.zero_min _
  next some =>
    have long : 0 < length.toNat := toNat_pos some
    split at call
    next query =>
      refine .inl ⟨?_, by rw [call]⟩
      rw [amount, capacity]
      rcases query with rfl | rfl
      · exact Nat.min_zero _
      · split <;> exact Nat.min_zero _
    next buffer =>
      push Not at buffer
      have room : capacity bytes maxBytes = maxBytes.toNat := if_neg buffer.1
      have wide : 0 < maxBytes.toNat := toNat_pos buffer.2
      rw [room] at amount
      refine .inr ⟨by omega, first, _, by rw [call], by rw [call], ?_, start⟩
      rw [amount]
      split
      next less =>
        rw [BitVec.lt_def] at less
        omega
      next le =>
        rw [BitVec.lt_def] at le
        omega

lemma copied_of_fits (fits : o.Fits rangeStart rangeLength (capacity bytes maxBytes)) :
    o.copied mem (cfStringGetBytes (some o.toScObj) rangeStart rangeLength bytes maxBytes) =
      ((o.text mem).drop (min rangeStart.toInt.toNat o.count.toNat)).take
        (o.amount rangeStart rangeLength (capacity bytes maxBytes)) := by
  have amount := amount_of_fits fits
  rcases @getBytes_copy o rangeStart rangeLength bytes maxBytes with
    ⟨zero, copy⟩ | ⟨-, start, k, copy, -, size, first⟩
  · rw [copied, copy, zero, List.take_zero]
  · have place : start = BitVec.ofNat 64 (min rangeStart.toInt.toNat o.count.toNat) := by
      rw [← first, BitVec.ofNat_toNat, BitVec.setWidth_eq]
    rw [copied, copy]
    show mem.load (o.data + start) k.toNat = _
    rw [place, size, text, Mem.load_slice (by omega)]

lemma part_eq {room : ℕ} :
    o.part mem rangeStart rangeLength room =
      ((o.text mem).drop (min rangeStart.toInt.toNat o.count.toNat)).take (min (min rangeLength.toInt.toNat
        (o.count.toNat - min rangeStart.toInt.toNat o.count.toNat)) room) := by
  have clipped : (o.text mem).drop rangeStart.toInt.toNat =
      (o.text mem).drop (min rangeStart.toInt.toNat o.count.toNat) := by
    rcases Nat.le_total rangeStart.toInt.toNat o.count.toNat with le | ge
    · rw [min_eq_left le]
    · rw [min_eq_right ge, List.drop_of_length_le (length_text.trans_le ge), List.drop_of_length_le length_text.le]
  rw [part, clipped, List.take_take, min_comm]
  -- taking more than there is changes nothing
  apply List.take_eq_take_iff.mpr
  rw [List.length_drop, length_text]
  omega

lemma right_iff :
    o.Right mem rangeStart rangeLength (capacity bytes maxBytes)
        (cfStringGetBytes (some o.toScObj) rangeStart rangeLength bytes maxBytes) ↔
      o.Fits rangeStart rangeLength (capacity bytes maxBytes) := by
  constructor
  · rintro ⟨-, inside⟩
    by_contra unfit
    have past := lt_amount unfit
    rcases @getBytes_copy o rangeStart rangeLength bytes maxBytes with
      ⟨zero, -⟩ | ⟨-, start, k, copy, -, size, first⟩
    · omega
    · have le := inside start k copy
      omega
  · intro fits
    have amount := amount_of_fits fits
    refine ⟨?_, fun start k copy => ?_⟩
    · rw [copied_of_fits fits, part_eq, amount]
    · rcases @getBytes_copy o rangeStart rangeLength bytes maxBytes with
        ⟨-, none⟩ | ⟨-, start', k', copy', -, size, first⟩
      · cases copy.symm.trans none
      · cases copy.symm.trans copy'
        omega

lemma toNat_length : (cfStringGetLength (some o.toScObj)).toNat = o.count.toNat := by
  rw [cfStringGetLength, if_neg (not_not.mpr o.isString), toNat_total]

section Chunks

variable {want : ℕ → W64} {fuel start : ℕ}

lemma clip_position (lt : start < o.count.toNat) :
    min (BitVec.ofNat 64 start).toInt.toNat o.count.toNat = start := by
  have small := o.count.isLt
  have value : (BitVec.ofNat 64 start).toNat = start := Nat.mod_eq_of_lt (by omega)
  rw [toInt_of_small (by omega), value]
  exact min_eq_left lt.le

lemma readChunks_spec (positive : ∀ p, 0 < (want p).toInt) (buffer : 0 < capacity bytes maxBytes)
    (enough : o.count.toNat - start < fuel) :
    ∃ ps out, o.readChunks mem bytes maxBytes want fuel start = some (ps, out) ∧
      (out = (o.text mem).drop start ↔
        ∀ p ∈ ps, o.Fits (BitVec.ofNat 64 p) (want p) (capacity bytes maxBytes)) := by
  induction fuel generalizing start with
  | zero => exact absurd enough (Nat.not_lt_zero _)
  | succ fuel ih =>
    rw [readChunks, toNat_length]
    by_cases done : o.count.toNat ≤ start
    · rw [if_pos done]
      refine ⟨[], [], rfl, ?_⟩
      rw [List.drop_of_length_le (length_text.trans_le done)]
      exact iff_of_true rfl (List.forall_mem_nil _)
    rw [if_neg done]
    have place := @clip_position o start (Nat.not_le.mp done)
    have request := positive start
    rcases @getBytes_copy o (BitVec.ofNat 64 start) (want start) bytes maxBytes with
      ⟨zero, -⟩ | ⟨pos, first, k, copy, result, size, -⟩
    · by_cases fits : o.Fits (BitVec.ofNat 64 start) (want start) (capacity bytes maxBytes)
      · have amount := amount_of_fits fits
        omega
      · have past := lt_amount fits
        omega
    obtain ⟨ps, out, run, right⟩ := @ih (start + k.toNat) (by omega)
    refine ⟨start :: ps, o.copied mem (cfStringGetBytes (some o.toScObj) (BitVec.ofNat 64 start)
      (want start) bytes maxBytes) ++ out, ?_, ?_⟩
    · simp only [result, run, Option.map_some]
    rw [List.forall_mem_cons]
    by_cases fits : o.Fits (BitVec.ofNat 64 start) (want start) (capacity bytes maxBytes)
    · have here := @copied_of_fits o mem _ _ bytes maxBytes fits
      rw [place, ← size] at here
      have cut : (o.text mem).drop start =
          ((o.text mem).drop start).take k.toNat ++ (o.text mem).drop (start + k.toNat) := by
        rw [← List.drop_drop, List.take_append_drop]
      rw [here, and_iff_right fits, ← right]
      conv_lhs => rhs; rw [cut]
      exact List.append_right_inj _
    · have past := lt_amount fits
      refine iff_of_false (fun eq => ?_) fun all => fits all.1
      have long := congrArg List.length eq
      rw [List.length_append, copied, copy, List.length_drop, length_text] at long
      simp only [Mem.length_load] at long
      omega

end Chunks

/-- A call copies just the part in the clipped range that fits exactly when start and length have a signed sum or
    the buffer is too small for more than the rest; chunks make up the string when each call does. -/
theorem stringBytes_iff (o : StringObj) (mem : Mem) (bytes maxBytes : W64) :
    (∀ rangeStart rangeLength,
      o.Right mem rangeStart rangeLength (capacity bytes maxBytes)
          (cfStringGetBytes (some o.toScObj) rangeStart rangeLength bytes maxBytes) ↔
        o.Fits rangeStart rangeLength (capacity bytes maxBytes)) ∧
    ∀ want : ℕ → W64, (∀ p, 0 < (want p).toInt) → 0 < capacity bytes maxBytes →
      ∃ ps out, o.readChunks mem bytes maxBytes want (o.count.toNat + 1) 0 = some (ps, out) ∧
        (out = o.text mem ↔ ∀ p ∈ ps, o.Fits (BitVec.ofNat 64 p) (want p) (capacity bytes maxBytes)) := by
  refine ⟨fun _ _ => right_iff, fun want positive buffer => ?_⟩
  have whole := @readChunks_spec o mem bytes maxBytes want (o.count.toNat + 1) 0 positive buffer (by omega)
  rwa [List.drop_zero] at whole

def twoBytes : StringObj := ⟨⟨scTagString, 2, 0x1000⟩, rfl, by decide⟩

theorem stringBytes_iff_twoBytes :
    0 < capacity 1 1 ∧
      (twoBytes.Right (fun _ => 7) 0 2 (capacity 1 1)
          (cfStringGetBytes (some twoBytes.toScObj) 0 2 1 1) ↔ twoBytes.Fits 0 2 (capacity 1 1)) ∧
      ∃ ps out, twoBytes.readChunks (fun _ => 7) 1 1 (fun _ => 2) 3 0 = some (ps, out) ∧
        (out = twoBytes.text (fun _ => 7) ↔
          ∀ p ∈ ps, twoBytes.Fits (BitVec.ofNat 64 p) 2 (capacity 1 1)) := by
  have both := stringBytes_iff twoBytes (fun _ => 7) 1 1
  exact ⟨by decide, both.1 0 2, both.2 (fun _ => 2) (fun _ => by decide) (by decide)⟩

/-- With the largest length and a buffer of four bytes the copy goes past the end of the string. -/
theorem stringBytes_past_end :
    (cfStringGetBytes (some twoBytes.toScObj) 1 0x7FFFFFFFFFFFFFFF 1 4).copy = some (1, 4) ∧
      twoBytes.count = 2 ∧
      ¬∀ mem, twoBytes.Right mem 1 0x7FFFFFFFFFFFFFFF (capacity 1 4)
        (cfStringGetBytes (some twoBytes.toScObj) 1 0x7FFFFFFFFFFFFFFF 1 4) := by
  have copy : (cfStringGetBytes (some twoBytes.toScObj) 1 0x7FFFFFFFFFFFFFFF 1 4).copy = some (1, 4) := by
    decide
  refine ⟨copy, rfl, fun right => ?_⟩
  exact absurd ((right fun _ => 0).2 1 4 copy) (by decide)

end StringObj

end Macify.Shim
