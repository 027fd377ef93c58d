import Mathlib.Tactic

/-!
# Arrays that are filled from the front

An array of pointers gets its elements by stores at indices that are counted up. A store that misses the array is
remembered. `filled n l` is the array of `n` cells after the elements of `l` have been stored; a null pointer after
them ends the vector if a cell is left for it (`ends_of_lt`, `inside_end_iff`).
-/

namespace Macify.Lib

structure Cells (α : Type*) where
  cells : List (Option α)
  inside : Bool
  deriving DecidableEq

namespace Cells

variable {α : Type*} {n : ℕ} {l : List α} {x : α}

def calloc (n : ℕ) : Cells α := ⟨List.replicate n none, true⟩

def store (a : Cells α) (i : ℕ) (v : Option α) : Cells α :=
  ⟨a.cells.set i v, a.inside && decide (i < a.cells.length)⟩

/-- An array for which something else has to be right as well, such as the size it was allocated with. -/
def guard (ok : Bool) (a : Cells α) : Cells α := ⟨a.cells, ok && a.inside⟩

lemma store_guard {ok : Bool} {a : Cells α} {i : ℕ} {v : Option α} :
    (a.guard ok).store i v = (a.store i v).guard ok := by
  rw [store, guard, Bool.and_assoc]
  rfl

/-- The array is read up to its first null pointer, and what is read is `l`. -/
def Ends (a : Cells α) (l : List α) : Prop := l.map some ++ [none] <+: a.cells

instance [DecidableEq α] (a : Cells α) (l : List α) : Decidable (a.Ends l) :=
  inferInstanceAs (Decidable (_ <+: _))

def filled (n : ℕ) (l : List α) : Cells α :=
  ⟨(l.map some ++ List.replicate (n - l.length) none).take n, decide (l.length ≤ n)⟩

lemma calloc_eq : (calloc n : Cells α) = filled n [] := by
  rw [calloc, filled, List.map_nil, List.nil_append, List.length_nil, Nat.sub_zero,
    List.take_of_length_le (by rw [List.length_replicate]), decide_eq_true (Nat.zero_le n)]

lemma length_filled : (filled n l).cells.length = n := by
  rw [filled, List.length_take, List.length_append, List.length_map, List.length_replicate]
  omega

lemma filled_of_le (room : l.length ≤ n) :
    filled n l = ⟨l.map some ++ List.replicate (n - l.length) none, true⟩ := by
  rw [filled, List.take_of_length_le, decide_eq_true room]
  rw [List.length_append, List.length_map, List.length_replicate]
  omega

lemma filled_of_ge (full : n ≤ l.length) : filled n l = ⟨(l.map some).take n, decide (l.length ≤ n)⟩ := by
  rw [filled, List.take_append_of_le_length (by rw [List.length_map]; exact full)]

lemma store_filled : (filled n l).store l.length (some x) = filled n (l ++ [x]) := by
  have next : (l ++ [x]).length = l.length + 1 := List.length_append
  rcases Nat.lt_or_ge l.length n with room | full
  · have left : n - l.length = (n - (l ++ [x]).length) + 1 := by omega
    rw [filled_of_le room.le, filled_of_le (by omega), store]
    congr 1
    · rw [left, List.set_append_right _ _ (by rw [List.length_map]), List.length_map, Nat.sub_self,
        List.replicate_succ, List.set_cons_zero, List.map_append, List.append_assoc]
      rfl
    · rw [List.length_append, List.length_map, List.length_replicate]
      exact decide_eq_true (by omega)
  · rw [store, length_filled, filled_of_ge full, filled_of_ge (by omega)]
    congr 1
    · rw [List.set_eq_of_length_le, List.map_append, List.take_append_of_le_length]
      · rw [List.length_map]
        exact full
      · rw [List.length_take]
        omega
    · rw [decide_eq_false (by omega : ¬ l.length < n), Bool.and_false,
        decide_eq_false (by omega : ¬ (l ++ [x]).length ≤ n)]

lemma inside_end_iff : ((filled n l).store l.length none).inside = true ↔ l.length < n := by
  rw [store, length_filled, Bool.and_eq_true, decide_eq_true_eq, filled, decide_eq_true_eq]
  exact ⟨And.right, fun room => ⟨room.le, room⟩⟩

lemma ends_of_lt (room : l.length < n) : ((filled n l).store l.length none).Ends l := by
  have left : n - l.length = (n - l.length - 1) + 1 := by omega
  rw [filled_of_le room.le, Ends, store, left, List.set_append_right _ _ (by rw [List.length_map]),
    List.length_map, Nat.sub_self, List.replicate_succ, List.set_cons_zero]
  exact ⟨_, List.append_assoc _ _ _⟩

end Cells

end Macify.Lib
