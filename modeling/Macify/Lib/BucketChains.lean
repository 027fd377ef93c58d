import Mathlib.Tactic

/-!
# Chains in one array

A hash table whose chains are segments of one array, one after the other. For each bucket there is the index of the
first item of its chain, or zero, and each item says whether it is the last of its chain. The highest index that a
bucket has begins the last chain (`BucketChains.isLast_iff_of_top_le`).
-/

namespace Macify.Lib

structure BucketChains (bucketOf : ℕ → ℕ) (size lo hi : ℕ) (first : ℕ → ℕ) (isLast : ℕ → Prop) : Prop where
  positive : 0 < lo
  nonempty : lo < hi
  bucket_lt : ∀ i, lo ≤ i → i < hi → bucketOf i < size
  empty : ∀ b < size, first b = 0 → ∀ i, lo ≤ i → i < hi → bucketOf i ≠ b
  first_ge : ∀ b < size, first b ≠ 0 → lo ≤ first b
  first_lt : ∀ b < size, first b ≠ 0 → first b < hi
  bucketOf_first : ∀ b < size, first b ≠ 0 → bucketOf (first b) = b
  none_before : ∀ b < size, first b ≠ 0 → ∀ i, lo ≤ i → i < first b → bucketOf i ≠ b
  segment : ∀ i k j, lo ≤ i → i ≤ k → k ≤ j → j < hi → bucketOf i = bucketOf j → bucketOf k = bucketOf j
  isLast_iff : ∀ i, lo ≤ i → i < hi → (isLast i ↔ i + 1 = hi ∨ bucketOf (i + 1) ≠ bucketOf i)

namespace BucketChains

variable {bucketOf first : ℕ → ℕ} {size lo hi top : ℕ} {isLast : ℕ → Prop}

lemma first_last (chains : BucketChains bucketOf size lo hi first isLast) :
    bucketOf (hi - 1) < size ∧ first (bucketOf (hi - 1)) ≠ 0 := by
  have lt := chains.nonempty
  have bound := chains.bucket_lt (hi - 1) (by omega) (by omega)
  refine ⟨bound, fun none => ?_⟩
  exact chains.empty _ bound none (hi - 1) (by omega) (by omega) rfl

/-- `top` is the highest of the indices that the buckets have. -/
structure IsTop (first : ℕ → ℕ) (size top : ℕ) : Prop where
  le : ∀ b < size, first b ≤ top
  mem : top ≠ 0 → ∃ b < size, first b = top

lemma IsTop.zero : IsTop first 0 0 := ⟨nofun, fun ne => absurd rfl ne⟩

lemma IsTop.succ (isTop : IsTop first size top) :
    IsTop first (size + 1) (if top < first size then first size else top) := by
  split
  case isTrue higher =>
    refine ⟨fun b lt => ?_, fun _ => ⟨size, Nat.lt_succ_self size, rfl⟩⟩
    rcases Nat.lt_succ_iff_lt_or_eq.mp lt with before | rfl
    · exact (isTop.le b before).trans higher.le
    · exact le_refl _
  case isFalse lower =>
    refine ⟨fun b lt => ?_, fun some => ?_⟩
    · rcases Nat.lt_succ_iff_lt_or_eq.mp lt with before | rfl
      · exact isTop.le b before
      · exact Nat.le_of_not_lt lower
    · obtain ⟨b, lt, here⟩ := isTop.mem some
      exact ⟨b, Nat.lt_succ_of_lt lt, here⟩

lemma top_eq (chains : BucketChains bucketOf size lo hi first isLast) (isTop : IsTop first size top) :
    top = first (bucketOf (hi - 1)) := by
  obtain ⟨bound, some⟩ := chains.first_last
  have positive := chains.positive
  have ge := chains.first_ge _ bound some
  have le := isTop.le _ bound
  obtain ⟨b, lt, here⟩ := isTop.mem (by omega)
  have some' : first b ≠ 0 := by omega
  refine le_antisymm ?_ le
  by_contra higher
  -- The chain of the last item would go on behind the beginning of another one.
  have below := chains.first_lt b lt some'
  have inside := chains.segment _ (first b) (hi - 1) ge (by omega) (by omega) (by omega)
    (chains.bucketOf_first _ bound some)
  rw [chains.bucketOf_first b lt some'] at inside
  rw [← inside, here] at higher
  exact higher (le_refl top)

variable (chains : BucketChains bucketOf size lo hi first isLast) (isTop : IsTop first size top)

include chains isTop

lemma lo_le_top : lo ≤ top := by
  obtain ⟨bound, some⟩ := chains.first_last
  rw [chains.top_eq isTop]
  exact chains.first_ge _ bound some

lemma top_lt_hi : top < hi := by
  obtain ⟨bound, some⟩ := chains.first_last
  rw [chains.top_eq isTop]
  exact chains.first_lt _ bound some

lemma bucketOf_of_top_le {i : ℕ} (ge : top ≤ i) (lt : i < hi) : bucketOf i = bucketOf (hi - 1) := by
  obtain ⟨bound, some⟩ := chains.first_last
  refine chains.segment top i (hi - 1) (chains.lo_le_top isTop) ge (by omega) (by omega) ?_
  rw [chains.top_eq isTop]
  exact chains.bucketOf_first _ bound some

lemma isLast_iff_of_top_le {i : ℕ} (ge : top ≤ i) (lt : i < hi) : isLast i ↔ i + 1 = hi := by
  rw [chains.isLast_iff i ((chains.lo_le_top isTop).trans ge) lt]
  constructor
  · rintro (last | differs)
    · exact last
    · by_contra inner
      refine differs ?_
      rw [chains.bucketOf_of_top_le isTop (by omega) (by omega), chains.bucketOf_of_top_le isTop ge lt]
  · exact .inl

lemma top_eq_lo_iff : top = lo ↔ ∀ i, lo ≤ i → i < hi → bucketOf i = bucketOf lo := by
  have lt := chains.nonempty
  constructor
  · rintro rfl i ge below
    rw [chains.bucketOf_of_top_le isTop ge below, chains.bucketOf_of_top_le isTop (le_refl top) lt]
  · intro same
    obtain ⟨bound, some⟩ := chains.first_last
    refine le_antisymm ?_ (chains.lo_le_top isTop)
    by_contra higher
    rw [chains.top_eq isTop] at higher
    exact chains.none_before _ bound some lo (le_refl lo) (by omega) (same (hi - 1) (by omega) (by omega)).symm

end BucketChains

end Macify.Lib
