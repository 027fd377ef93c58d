import Mathlib.Data.List.Perm.Basic
import Mathlib.Tactic

/-!
# Tables without an order

A table is a list of keys and values. New entries come last, and an entry is removed by writing the last
one into its place. If no key is there twice, removal leaves the other entries (`mem_swapTake_of_ne`).
-/

namespace Macify.Lib
open scoped List

variable {α κ ν : Type*}

def swapRemove (l : List α) (i : ℕ) : List α :=
  match l.getLast? with
  | some last => (l.set i last).dropLast
  | none => l

lemma swapRemove_append {l : List α} {last : α} {i : ℕ} :
    swapRemove (l ++ [last]) i = ((l ++ [last]).set i last).dropLast := by
  rw [swapRemove, List.getLast?_append, List.getLast?_singleton]
  rfl

lemma swapRemove_perm {l : List α} {i : ℕ} (lt : i < l.length) : (l[i] :: swapRemove l i).Perm l := by
  induction l using List.reverseRecOn with
  | nil => exact absurd lt (Nat.not_lt_zero i)
  | append_singleton l last _ =>
    have room := lt
    rw [List.length_append, List.length_singleton] at room
    rw [swapRemove_append, List.set_append]
    rcases Nat.lt_succ_iff_lt_or_eq.mp room with before | rfl
    · rw [if_pos before, List.dropLast_concat, List.getElem_append_left before]
      calc l[i] :: l.set i last
        _ ~ l[i] :: last :: l.eraseIdx i := (List.set_perm_cons_eraseIdx before last).cons _
        _ ~ last :: l[i] :: l.eraseIdx i := .swap ..
        _ ~ last :: l := (List.getElem_cons_eraseIdx_perm before).cons _
        _ ~ l ++ [last] := (List.perm_append_singleton last l).symm
    · rw [if_neg (lt_irrefl _), Nat.sub_self, List.set_cons_zero, List.dropLast_concat,
        List.getElem_concat_length rfl]
      exact (List.perm_append_singleton last l).symm

def swapTake [DecidableEq κ] (k : κ) (table : List (κ × ν)) : Option ν × List (κ × ν) :=
  match table.findIdx? fun e => e.1 = k with
  | some i => (table[i]?.map Prod.snd, swapRemove table i)
  | none => (none, table)

section Take

variable [DecidableEq κ] {k : κ} {v : ν} {table : List (κ × ν)}

lemma swapTake_of_forall (absent : ∀ e ∈ table, e.1 ≠ k) : swapTake k table = (none, table) := by
  have none : table.findIdx? (fun e => e.1 = k) = none :=
    List.findIdx?_eq_none_iff.mpr fun e mem => decide_eq_false (absent e mem)
  rw [swapTake, none]

lemma swapTake_of_mem (nodup : (table.map Prod.fst).Nodup) (mem : (k, v) ∈ table) :
    (swapTake k table).1 = some v ∧ ((k, v) :: (swapTake k table).2).Perm table := by
  cases found : table.findIdx? fun e => e.1 = k with
  | none =>
    have absent := List.findIdx?_eq_none_iff.mp found (k, v) mem
    exact absurd rfl (of_decide_eq_false absent)
  | some i =>
    obtain ⟨lt, same, -⟩ := List.findIdx?_eq_some_iff_getElem.mp found
    -- Two entries with one key are one entry.
    have here : table[i] = (k, v) :=
      List.inj_on_of_nodup_map nodup (List.getElem_mem lt) mem (of_decide_eq_true same)
    rw [swapTake, found]
    constructor
    · show table[i]?.map Prod.snd = some v
      rw [List.getElem?_eq_getElem lt, here]
      rfl
    · rw [← here]
      exact swapRemove_perm lt

variable {k' : κ} {v' : ν}

lemma swapTake_keys (nodup : (table.map Prod.fst).Nodup) (mem : (k, v) ∈ table) :
    k ∉ (swapTake k table).2.map Prod.fst ∧ ((swapTake k table).2.map Prod.fst).Nodup := by
  obtain ⟨-, rest⟩ := swapTake_of_mem nodup mem
  have keys := (rest.map Prod.fst).nodup_iff.mpr nodup
  rw [List.map_cons, List.nodup_cons] at keys
  exact keys

lemma not_mem_swapTake (nodup : (table.map Prod.fst).Nodup) (mem : (k, v) ∈ table) :
    (k, v') ∉ (swapTake k table).2 := by
  intro left
  exact (swapTake_keys nodup mem).1 (List.mem_map.mpr ⟨(k, v'), left, rfl⟩)

lemma mem_swapTake_of_ne (nodup : (table.map Prod.fst).Nodup) (mem : (k, v) ∈ table) (ne : k' ≠ k) :
    (k', v') ∈ (swapTake k table).2 ↔ (k', v') ∈ table := by
  obtain ⟨-, rest⟩ := swapTake_of_mem nodup mem
  rw [← rest.mem_iff, List.mem_cons]
  exact (or_iff_right fun eq => ne (congrArg Prod.fst eq)).symm

lemma length_swapTake_le (nodup : (table.map Prod.fst).Nodup) (mem : (k, v) ∈ table) :
    (swapTake k table).2.length ≤ table.length := by
  obtain ⟨-, rest⟩ := swapTake_of_mem nodup mem
  have length := rest.length_eq
  rw [List.length_cons] at length
  exact Nat.le_of_succ_le length.le

end Take

lemma nodup_keys_append {table : List (κ × ν)} {k : κ} {v : ν} (nodup : (table.map Prod.fst).Nodup)
    (new : ∀ v, (k, v) ∉ table) : ((table ++ [(k, v)]).map Prod.fst).Nodup := by
  rw [List.map_append, List.map_singleton, List.nodup_append_comm, List.singleton_append, List.nodup_cons]
  refine ⟨fun mem => ?_, nodup⟩
  obtain ⟨⟨k', v'⟩, there, eq⟩ := List.mem_map.mp mem
  cases eq
  exact new v' there

end Macify.Lib
