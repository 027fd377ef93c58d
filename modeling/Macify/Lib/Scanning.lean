import Mathlib.Data.Nat.Digits.Lemmas
import Mathlib.Data.BitVec
import Mathlib.Data.List.DropRight
import Macify.Lib.Bytes

/-!
# Numbers in texts

Decimal numbers as `printf` writes them, and the conversions by which `scanf` reads them. Numbers that were
printed with a blank before each are read again (`sscanf_printed`). A byte that no number contains ends the
scan: there are not more numbers than bytes before it (`sscanf_stops`).
-/

namespace Macify.Lib

def isspace (b : UInt8) : Bool := b == 32 || (9 ≤ b && b ≤ 13)

def isdigit (b : UInt8) : Bool := 48 ≤ b && b ≤ 57

abbrev MINUS : UInt8 := 45
abbrev PLUS : UInt8 := 43

def digit (d : ℕ) : UInt8 := UInt8.ofNat (48 + d)

def decimal (n : ℕ) : Buf := if n = 0 then [digit 0] else (Nat.digits 10 n).reverse.map digit

def decimalInt (i : ℤ) : Buf := if i < 0 then MINUS :: decimal i.natAbs else decimal i.natAbs

def valueOf (ds : Buf) : ℕ := ds.foldl (fun v b => 10 * v + (b.toNat - 48)) 0

section Printing

variable {n d k : ℕ} {i : ℤ} {b : UInt8}

lemma isspace_of_digit (is : isdigit b = true) : isspace b = false := by
  rw [isdigit, Bool.and_eq_true, decide_eq_true_iff, decide_eq_true_iff, UInt8.le_iff_toNat_le] at is
  have ne : b ≠ 32 := by rintro rfl; exact absurd is.1 (by decide)
  have gt : ¬ b ≤ 13 := fun le => absurd (is.1.trans (UInt8.le_iff_toNat_le.mp le)) (by decide)
  rw [isspace, beq_eq_false_iff_ne.mpr ne, decide_eq_false gt, Bool.and_false, Bool.or_false]

lemma digit_spec (lt : d < 10) : isdigit (digit d) = true ∧ (digit d).toNat - 48 = d := by
  revert d
  decide

lemma decimal_of_ne_zero (ne : n ≠ 0) : decimal n = (Nat.digits 10 n).reverse.map digit := if_neg ne

lemma decimal_ne_nil : decimal n ≠ [] := by
  by_cases zero : n = 0
  · rw [decimal, if_pos zero]
    exact List.cons_ne_nil _ _
  · rw [decimal_of_ne_zero zero, Ne, List.map_eq_nil_iff, List.reverse_eq_nil_iff]
    exact Nat.digits_ne_nil_iff_ne_zero.mpr zero

lemma isdigit_of_mem_decimal (mem : b ∈ decimal n) : isdigit b = true := by
  by_cases zero : n = 0
  · rw [decimal, if_pos zero, List.mem_singleton] at mem
    rw [mem]
    exact (digit_spec (by decide)).1
  · rw [decimal_of_ne_zero zero, List.mem_map] at mem
    obtain ⟨d, mem, rfl⟩ := mem
    exact (digit_spec (Nat.digits_lt_base (by decide) (List.mem_reverse.mp mem))).1

lemma valueOf_decimal : valueOf (decimal n) = n := by
  by_cases zero : n = 0
  · rw [zero]
    rfl
  · have small : ∀ d ∈ Nat.digits 10 n, (digit d).toNat - 48 = d := fun d mem =>
      (digit_spec (Nat.digits_lt_base (by decide) mem)).2
    calc valueOf (decimal n)
      _ = (Nat.digits 10 n).foldr (fun d v => 10 * v + ((digit d).toNat - 48)) 0 := by
        rw [decimal_of_ne_zero zero, valueOf, List.foldl_map, List.foldl_reverse]
      _ = (Nat.digits 10 n).foldr (fun d v => d + 10 * v) 0 := by
        refine List.foldr_ext _ _ _ fun d mem v => ?_
        rw [small d mem, Nat.add_comm]
      _ = Nat.ofDigits 10 (Nat.digits 10 n) := (Nat.ofDigits_eq_foldr 10 _).symm
      _ = n := Nat.ofDigits_digits 10 n

lemma length_decimal_le (pos : 0 < k) (lt : n < 10 ^ k) : (decimal n).length ≤ k := by
  by_cases zero : n = 0
  · rw [decimal, if_pos zero]
    exact pos
  · rw [decimal_of_ne_zero zero, List.length_map, List.length_reverse]
    exact (Nat.digits_length_le_iff (by decide) n).mpr lt

lemma length_decimalInt_le (pos : 0 < k) (lt : i.natAbs < 10 ^ k) : (decimalInt i).length ≤ k + 1 := by
  have le := length_decimal_le pos lt
  rw [decimalInt]
  split
  · exact Nat.succ_le_succ le
  · exact Nat.le_succ_of_le le

lemma of_mem_decimalInt (mem : b ∈ decimalInt i) : isdigit b = true ∨ b = MINUS := by
  rw [decimalInt] at mem
  split at mem
  · rw [List.mem_cons] at mem
    exact mem.symm.imp_left isdigit_of_mem_decimal
  · exact .inl (isdigit_of_mem_decimal mem)

end Printing

def takeSign (s : Buf) : Bool × Buf :=
  if s.head? = some MINUS then (true, s.tail)
  else if s.head? = some PLUS then (false, s.tail)
  else (false, s)

def scanNumber (s : Buf) : Option (ℤ × Buf) :=
  let (neg, s) := takeSign (s.dropWhile isspace)
  let ds := s.takeWhile isdigit
  if ds = [] then none else some (if neg then -valueOf ds else valueOf ds, s.dropWhile isdigit)

def strtol (v : ℤ) : W64 := BitVec.ofInt 64 (max (-2 ^ 63) (min (2 ^ 63 - 1) v))

def strtoul (v : ℤ) : W64 := if v.natAbs < 2 ^ 64 then BitVec.ofInt 64 v else BitVec.allOnes 64

inductive Conv where
  | c
  | d
  | lu
  | llu
  | ld
  deriving DecidableEq

def Conv.store : Conv → ℤ → W64
  | .c, _ => 0
  | .d, v => ((strtol v).setWidth 32).signExtend 64
  | .lu, v => strtoul v
  | .llu, v => strtoul v
  | .ld, v => strtol v

def Conv.scan (conv : Conv) (s : Buf) : Option (W64 × Buf) :=
  if conv = .c then s.head?.map fun b => (b.toNat, s.tail)
  else (scanNumber s).map fun r => (conv.store r.1, r.2)

/-- The values read, up to the first conversion that fails. There is a blank before each but the first. -/
def sscanf : List Conv → Buf → List W64
  | [], _ => []
  | conv :: convs, s =>
    match conv.scan s with
    | none => []
    | some (v, s) => v :: sscanf convs (s.dropWhile isspace)

def Conv.Fits : Conv → ℤ → Prop
  | .c, _ => False
  | .d, v => -2 ^ 31 ≤ v ∧ v < 2 ^ 31
  | .lu, v => -2 ^ 63 ≤ v ∧ v < 2 ^ 64
  | .llu, v => -2 ^ 63 ≤ v ∧ v < 2 ^ 64
  | .ld, v => -2 ^ 63 ≤ v ∧ v < 2 ^ 63

section Values

variable {conv : Conv} {v : ℤ}

lemma strtol_of_le (lo : -2 ^ 63 ≤ v) (hi : v < 2 ^ 63) : strtol v = BitVec.ofInt 64 v := by
  rw [strtol, min_eq_right (by omega), max_eq_right lo]

lemma strtoul_of_lt (lo : -2 ^ 63 ≤ v) (hi : v < 2 ^ 64) : strtoul v = BitVec.ofInt 64 v :=
  if_pos (by omega)

lemma Conv.natAbs_of_fits (fits : conv.Fits v) : v.natAbs < 10 ^ 20 := by
  cases conv with
  | c => exact fits.elim
  | d | lu | llu | ld => have := fits.1; have := fits.2; omega

lemma Conv.store_of_fits (fits : conv.Fits v) : conv.store v = BitVec.ofInt 64 v := by
  cases conv with
  | c => exact fits.elim
  | d =>
    obtain ⟨lo, hi⟩ := fits
    rw [Conv.store, strtol_of_le (by omega) (by omega), BitVec.signExtend]
    congr 1
    rw [BitVec.toInt_setWidth, BitVec.toNat_ofInt]
    simp only [Int.bmod]
    omega
  | lu | llu => exact strtoul_of_lt fits.1 fits.2
  | ld => exact strtol_of_le fits.1 fits.2

end Values

section Reading

variable {conv : Conv} {convs : List Conv} {s more : Buf} {n : ℕ} {i : ℤ}

lemma dropWhile_decimal (ended : ∀ b ∈ more.head?, isdigit b = false) :
    (decimal n ++ more).dropWhile isdigit = more := by
  rw [List.dropWhile_append_of_pos fun b mem => isdigit_of_mem_decimal mem]
  cases more with
  | nil => rfl
  | cons b more => exact List.dropWhile_cons_of_neg (by rw [ended b rfl]; exact Bool.false_ne_true)

lemma takeWhile_decimal (ended : ∀ b ∈ more.head?, isdigit b = false) :
    (decimal n ++ more).takeWhile isdigit = decimal n := by
  rw [List.takeWhile_append_of_pos fun b mem => isdigit_of_mem_decimal mem]
  cases more with
  | nil => rw [List.takeWhile_nil, List.append_nil]
  | cons b more =>
    rw [List.takeWhile_cons_of_neg (by rw [ended b rfl]; exact Bool.false_ne_true), List.append_nil]

lemma decimal_cons (n : ℕ) : ∃ b ds, decimal n = b :: ds ∧ isspace b = false ∧ b ≠ MINUS ∧ b ≠ PLUS := by
  obtain ⟨b, ds, eq⟩ := List.exists_cons_of_ne_nil (decimal_ne_nil (n := n))
  have is : isdigit b = true := isdigit_of_mem_decimal (n := n) (by rw [eq]; exact .head _)
  refine ⟨b, ds, eq, isspace_of_digit is, ?_, ?_⟩
  · rintro rfl
    exact absurd is (by decide)
  · rintro rfl
    exact absurd is (by decide)

lemma takeSign_decimalInt : takeSign (decimalInt i ++ more) = (decide (i < 0), decimal i.natAbs ++ more) := by
  rw [decimalInt]
  split
  · next neg => rw [decide_eq_true neg]; rfl
  · next nonneg =>
    obtain ⟨b, ds, eq, -, minus, plus⟩ := decimal_cons i.natAbs
    rw [decide_eq_false nonneg, eq, takeSign, List.cons_append, List.head?_cons,
      if_neg fun eq => minus (Option.some.inj eq), if_neg fun eq => plus (Option.some.inj eq)]

lemma dropWhile_space_decimalInt : (32 :: (decimalInt i ++ more)).dropWhile isspace = decimalInt i ++ more := by
  rw [List.dropWhile_cons_of_pos rfl, decimalInt]
  split
  · rfl
  · obtain ⟨b, ds, eq, space, -⟩ := decimal_cons i.natAbs
    rw [eq]
    exact List.dropWhile_cons_of_neg (by rw [space]; exact Bool.false_ne_true)

lemma scanNumber_printed (ended : ∀ b ∈ more.head?, isdigit b = false) :
    scanNumber (32 :: (decimalInt i ++ more)) = some (i, more) := by
  rw [scanNumber, dropWhile_space_decimalInt, takeSign_decimalInt]
  dsimp only
  rw [takeWhile_decimal ended, dropWhile_decimal ended, if_neg decimal_ne_nil, valueOf_decimal]
  congr 2
  split
  · next neg => have := of_decide_eq_true neg; omega
  · next nonneg => have := of_decide_eq_false (Bool.eq_false_of_not_eq_true nonneg); omega

lemma scanNumber_skip : scanNumber (s.dropWhile isspace) = scanNumber s := by
  rw [scanNumber, scanNumber, List.dropWhile_idempotent]

lemma scanNumber_decimalInt : scanNumber (decimalInt i) = some (i, []) := by
  have read := @scanNumber_printed [] i fun b no => absurd no (Option.not_mem_none b)
  rw [← scanNumber_skip, dropWhile_space_decimalInt, List.append_nil] at read
  exact read

lemma Conv.scan_number (number : conv ≠ .c) :
    conv.scan s = (scanNumber s).map fun r => (conv.store r.1, r.2) := if_neg number

lemma sscanf_skip (numbers : ∀ conv ∈ convs, conv ≠ .c) :
    sscanf convs (s.dropWhile isspace) = sscanf convs s := by
  cases convs with
  | nil => rfl
  | cons conv convs =>
    have number := numbers conv (.head _)
    rw [sscanf, sscanf, Conv.scan_number number, Conv.scan_number number, scanNumber_skip]

def printed (numbers : List ℤ) : Buf := numbers.flatMap fun i => 32 :: decimalInt i

lemma printed_cons {is : List ℤ} : printed (i :: is) ++ more = 32 :: (decimalInt i ++ (printed is ++ more)) := by
  rw [printed, List.flatMap_cons, ← printed, List.cons_append, List.cons_append, List.append_assoc]

lemma printed_ended {is : List ℤ} (ended : ∀ b ∈ more.head?, isdigit b = false) :
    ∀ b ∈ (printed is ++ more).head?, isdigit b = false := by
  cases is with
  | nil => exact ended
  | cons i is =>
    intro b mem
    rw [printed_cons] at mem
    cases mem
    rfl

lemma not_mem_decimalInt {b : UInt8} (digit : isdigit b = false) (minus : b ≠ MINUS) : b ∉ decimalInt i := by
  intro mem
  rcases of_mem_decimalInt mem with is | is
  · rw [digit] at is
    exact Bool.false_ne_true is
  · exact minus is

lemma not_mem_printed {b : UInt8} {is : List ℤ} (digit : isdigit b = false) (minus : b ≠ MINUS)
    (space : b ≠ 32) : b ∉ printed is := by
  intro mem
  obtain ⟨i, -, mem⟩ := List.mem_flatMap.mp mem
  rw [List.mem_cons] at mem
  exact mem.elim space (not_mem_decimalInt digit minus)

lemma length_printed_le {is : List ℤ} {k : ℕ} (small : ∀ i ∈ is, (decimalInt i).length ≤ k) :
    (printed is).length ≤ is.length * (k + 1) := by
  induction is with
  | nil => exact Nat.zero_le _
  | cons i is ih =>
    have first := small i (.head _)
    have rest := ih fun j mem => small j (.tail _ mem)
    rw [printed, List.flatMap_cons, ← printed, List.length_append, List.length_cons, List.length_cons, Nat.succ_mul]
    omega

lemma sscanf_printed {α : Type*} {conv : α → Conv} {num : α → ℤ} {fields : List α}
    (fits : ∀ f ∈ fields, (conv f).Fits (num f)) (ended : ∀ b ∈ more.head?, isdigit b = false) :
    sscanf (fields.map conv) (printed (fields.map num) ++ more) = fields.map fun f => BitVec.ofInt 64 (num f) := by
  induction fields with
  | nil => rfl
  | cons f fields ih =>
    have number : ∀ f' ∈ f :: fields, conv f' ≠ .c := fun f' mem eq => by
      have no := fits f' mem
      rw [eq] at no
      exact no
    have rest : ∀ conv' ∈ fields.map conv, conv' ≠ .c := by
      intro conv' mem
      obtain ⟨f', mem', rfl⟩ := List.mem_map.mp mem
      exact number f' (.tail _ mem')
    rw [List.map_cons, List.map_cons, List.map_cons, sscanf, printed_cons, Conv.scan_number (number f (.head _)),
      scanNumber_printed (printed_ended ended), Option.map_some]
    dsimp only
    rw [sscanf_skip rest, ih fun f' mem => fits f' (.tail _ mem), Conv.store_of_fits (fits f (.head _))]

end Reading

section Stopping

variable {p : UInt8 → Bool} {stop : UInt8} {r more s : Buf} {convs : List Conv}

def Stops (b : UInt8) : Prop := isspace b = false ∧ isdigit b = false ∧ b ≠ MINUS ∧ b ≠ PLUS

instance : Decidable (Stops stop) := inferInstanceAs (Decidable (_ ∧ _ ∧ _ ∧ _))

lemma dropWhile_stop (no : p stop = false) : (r ++ stop :: more).dropWhile p = r.dropWhile p ++ stop :: more := by
  rw [List.dropWhile_append]
  split
  · next empty =>
    rw [List.isEmpty_iff.mp empty, List.dropWhile_cons_of_neg (by rw [no]; exact Bool.false_ne_true)]
    rfl
  · rfl

lemma takeWhile_stop (no : p stop = false) : (r ++ stop :: more).takeWhile p = r.takeWhile p := by
  induction r with
  | nil => exact List.takeWhile_cons_of_neg (by rw [no]; exact Bool.false_ne_true)
  | cons b r ih => rw [List.cons_append, List.takeWhile_cons, List.takeWhile_cons, ih]

lemma takeSign_stop (stops : Stops stop) :
    ∃ r', (takeSign (r ++ stop :: more)).2 = r' ++ stop :: more ∧ r'.length ≤ r.length := by
  obtain ⟨-, -, minus, plus⟩ := stops
  cases r with
  | nil =>
    refine ⟨[], ?_, le_refl _⟩
    rw [takeSign, List.nil_append, List.head?_cons, if_neg fun eq => minus (Option.some.inj eq),
      if_neg fun eq => plus (Option.some.inj eq)]
  | cons b r =>
    rw [takeSign]
    split
    · exact ⟨r, rfl, Nat.le_succ _⟩
    · split
      · exact ⟨r, rfl, Nat.le_succ _⟩
      · exact ⟨b :: r, rfl, le_refl _⟩

lemma scanNumber_stop {v : ℤ} (stops : Stops stop) (read : scanNumber (r ++ stop :: more) = some (v, s)) :
    ∃ r', s = r' ++ stop :: more ∧ r'.length < r.length := by
  rw [scanNumber, dropWhile_stop stops.1] at read
  obtain ⟨r', left, le⟩ := @takeSign_stop stop (r.dropWhile isspace) more stops
  rcases signed : takeSign (r.dropWhile isspace ++ stop :: more) with ⟨neg, t⟩
  rw [signed] at read left
  dsimp only at read left
  rw [left, takeWhile_stop stops.2.1, dropWhile_stop stops.2.1] at read
  split at read
  · exact absurd read.symm (Option.some_ne_none _)
  · next some_digit =>
    obtain ⟨-, rfl⟩ := Prod.mk.inj (Option.some.inj read)
    refine ⟨r'.dropWhile isdigit, rfl, ?_⟩
    have whole := congrArg List.length (@List.takeWhile_append_dropWhile _ isdigit r')
    have pos := List.length_pos_iff.mpr some_digit
    have blanks := (List.dropWhile_sublist isspace (l := r)).length_le
    rw [List.length_append] at whole
    omega

lemma sscanf_stops (stops : Stops stop) (numbers : ∀ conv ∈ convs, conv ≠ .c) :
    (sscanf convs (r ++ stop :: more)).length ≤ r.length := by
  induction convs generalizing r with
  | nil => exact Nat.zero_le _
  | cons conv convs ih =>
    have rest : ∀ conv' ∈ convs, conv' ≠ .c := fun conv' mem => numbers conv' (.tail _ mem)
    rw [sscanf, Conv.scan_number (numbers conv (.head _))]
    cases read : scanNumber (r ++ stop :: more) with
    | none => exact Nat.zero_le _
    | some result =>
      obtain ⟨v, s⟩ := result
      obtain ⟨r', rfl, lt⟩ := scanNumber_stop stops read
      rw [Option.map_some]
      dsimp only
      rw [sscanf_skip rest, List.length_cons]
      exact Nat.lt_of_le_of_lt (ih rest) lt

end Stopping

end Macify.Lib
