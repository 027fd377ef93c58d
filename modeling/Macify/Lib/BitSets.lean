import Mathlib.Data.BitVec
import Mathlib.Tactic

/-!
# Sets of small numbers as words

A word stands for the set of the positions of its ones. Loops that go over a list of candidates and add
a bit for some of them collect a union; `getLsbD_union` says which positions it has. Equalities
between sets are proved position by position.
-/

namespace Macify.Lib

section Union

variable {α : Type*} {w : ℕ} {p : α → Bool} {f : α → BitVec w} {l : List α}

lemma any_congr_mem {q : α → Bool} (same : ∀ a ∈ l, p a = q a) : l.any p = l.any q := by
  rw [Bool.eq_iff_iff, List.any_eq_true, List.any_eq_true]
  exact exists_congr fun a => and_congr_right fun mem => by rw [same a mem]

lemma getLsbD_foldl_or {acc : BitVec w} {k : ℕ} :
    (l.foldl (fun set a => if p a then set ||| f a else set) acc).getLsbD k =
      (acc.getLsbD k || l.any fun a => p a && (f a).getLsbD k) := by
  induction l generalizing acc with
  | nil => rw [List.foldl_nil, List.any_nil, Bool.or_false]
  | cons a l ih =>
    rw [List.foldl_cons, ih, List.any_cons]
    cases p a with
    | false => rw [if_neg Bool.false_ne_true, Bool.false_and, Bool.false_or]
    | true => rw [if_pos rfl, BitVec.getLsbD_or, Bool.true_and, Bool.or_assoc]

lemma getLsbD_union {k : ℕ} :
    (l.foldl (fun set a => if p a then set ||| f a else set) 0).getLsbD k =
      l.any fun a => p a && (f a).getLsbD k := by
  rw [getLsbD_foldl_or, BitVec.ofNat_eq_ofNat, BitVec.getLsbD_zero, Bool.false_or]

end Union

section Sets

variable {w : ℕ} {s t : BitVec w}

lemma getLsbD_single {n k : ℕ} (lt : n < w) : ((1 : BitVec w) <<< n).getLsbD k = decide (k = n) := by
  have pos : 0 < w := by omega
  rw [BitVec.getLsbD_shiftLeft]
  rcases Nat.lt_trichotomy k n with lt' | rfl | gt
  · simp [lt', lt'.ne]
  · simp [lt, pos]
  · have ne : k - n ≠ 0 := by omega
    simp [ne, gt.ne', Nat.not_lt.mpr gt.le]

lemma and_single_ne_zero {n : ℕ} (lt : n < w) : (s &&& (1 : BitVec w) <<< n != 0) = s.getLsbD n := by
  rw [Bool.eq_iff_iff, bne_iff_ne]
  constructor
  · intro meets
    by_contra out
    refine meets (BitVec.eq_of_getLsbD_eq fun k _ => ?_)
    rw [BitVec.getLsbD_and, getLsbD_single lt, BitVec.ofNat_eq_ofNat, BitVec.getLsbD_zero]
    by_cases same : k = n
    · rw [same, Bool.eq_false_of_not_eq_true out, Bool.false_and]
    · rw [decide_eq_false same, Bool.and_false]
  · intro member empty
    have bit : (s &&& (1 : BitVec w) <<< n).getLsbD n = (0 : BitVec w).getLsbD n := by rw [empty]
    rw [BitVec.getLsbD_and, getLsbD_single lt, member, decide_eq_true rfl, BitVec.ofNat_eq_ofNat,
      BitVec.getLsbD_zero] at bit
    exact absurd bit (by decide)

lemma and_single_cases {n : ℕ} (lt : n < w) :
    s &&& (1 : BitVec w) <<< n = 0 ∨ s &&& (1 : BitVec w) <<< n = (1 : BitVec w) <<< n := by
  cases member : s.getLsbD n with
  | false => exact .inl (by simpa [member] using @and_single_ne_zero w s n lt)
  | true =>
    refine .inr (BitVec.eq_of_getLsbD_eq fun k _ => ?_)
    rw [BitVec.getLsbD_and, getLsbD_single lt]
    by_cases same : k = n
    · rw [same, member, Bool.true_and]
    · rw [decide_eq_false same, Bool.and_false]

lemma getLsbD_compl {k : ℕ} (lt : k < w) : (~~~s).getLsbD k = !s.getLsbD k := by
  rw [BitVec.getLsbD_not, decide_eq_true lt, Bool.true_and]

lemma bits_iff : s = t ↔ ∀ k < w, s.getLsbD k = t.getLsbD k :=
  ⟨fun same _ _ => by rw [same], BitVec.eq_of_getLsbD_eq⟩

lemma eq_zero_iff : s = 0 ↔ ∀ k < w, s.getLsbD k = false := by
  rw [bits_iff]
  exact forall₂_congr fun k _ => by rw [BitVec.ofNat_eq_ofNat, BitVec.getLsbD_zero]

end Sets

section Routes

variable {w : ℕ} {f g : BitVec w → BitVec w} {a b : ℕ → List ℕ} {s mask : BitVec w}

def Routes (f : BitVec w → BitVec w) (sources : ℕ → List ℕ) : Prop :=
  ∀ s k, k < w → (f s).getLsbD k = (sources k).any s.getLsbD

lemma Routes.comp (first : Routes f a) (second : Routes g b) (inside : ∀ k < w, ∀ j ∈ b k, j < w) :
    Routes (fun s => g (f s)) fun k => (b k).flatMap a := by
  intro s k lt
  dsimp only
  rw [second (f s) k lt, List.any_flatMap]
  exact any_congr_mem fun j mem => first s j (inside k lt j mem)

lemma Routes.kept_iff (routes : Routes f a) :
    f s &&& mask = s &&& mask ↔
      ∀ k < w, mask.getLsbD k = true → (a k).any s.getLsbD = s.getLsbD k := by
  rw [bits_iff]
  refine forall₂_congr fun k lt => ?_
  rw [BitVec.getLsbD_and, BitVec.getLsbD_and, routes s k lt]
  cases mask.getLsbD k with
  | false => simp only [Bool.and_false, Bool.false_eq_true, false_implies]
  | true => simp only [Bool.and_true, true_implies]

lemma Routes.kept_iff_lost {lost : BitVec w} (routes : Routes f a) (inside : lost &&& mask = lost)
    (table : ∀ k < w, mask.getLsbD k = true → a k = if lost.getLsbD k then [] else [k]) :
    f s &&& mask = s &&& mask ↔ s &&& lost = 0 := by
  rw [routes.kept_iff, eq_zero_iff]
  refine forall₂_congr fun k lt => ?_
  rw [BitVec.getLsbD_and]
  cases hit : lost.getLsbD k with
  | true =>
    have masked : mask.getLsbD k = true := by
      rw [← inside, BitVec.getLsbD_and, Bool.and_eq_true] at hit
      exact hit.2
    rw [Bool.and_true]
    refine ⟨fun kept => ?_, fun clear _ => ?_⟩
    · have same := kept masked
      rw [table k lt masked, if_pos hit, List.any_nil] at same
      exact same.symm
    · rw [table k lt masked, if_pos hit, List.any_nil, clear]
  | false =>
    rw [Bool.and_false]
    refine iff_of_true (fun masked => ?_) rfl
    rw [table k lt masked, hit, if_neg Bool.false_ne_true, List.any_cons, List.any_nil, Bool.or_false]

end Routes

lemma setWidth_signExtend_self {w v : ℕ} {s : BitVec w} (le : w ≤ v) : (s.signExtend v).setWidth w = s := by
  refine BitVec.eq_of_getLsbD_eq fun k lt => ?_
  rw [BitVec.getLsbD_setWidth, BitVec.getLsbD_signExtend, if_pos lt, decide_eq_true lt,
    decide_eq_true (by omega), Bool.true_and, Bool.true_and]

@[elab_as_elim]
lemma word_rule {w n : ℕ} {P : BitVec w → Prop} {s : BitVec w} (lt : s.toNat < n)
    (small : ∀ i : Fin n, P (BitVec.ofNat w i)) : P s := by
  have entry := small ⟨s.toNat, lt⟩
  rwa [BitVec.ofNat_toNat, BitVec.setWidth_eq] at entry

end Macify.Lib
