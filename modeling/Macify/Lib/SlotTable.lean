import Mathlib.Tactic

/-!
# Tables of a fixed number of slots

A slot is free or holds a key with a value. A value is put into the slot that holds its key, or into the
first free slot; when there is none the table stays as it is.
-/

namespace Macify.Lib

abbrev Slots (κ ν : Type*) := List (Option (κ × ν))

namespace Slots

variable {κ ν : Type*} [DecidableEq κ]

def find (k : κ) : Slots κ ν → Option ν
  | [] => none
  | some (k', v) :: slots => if k' = k then some v else find k slots
  | none :: slots => find k slots

def update (k : κ) (v : ν) : Slots κ ν → Slots κ ν
  | [] => []
  | some (k', v') :: slots => if k' = k then some (k, v) :: slots else some (k', v') :: update k v slots
  | none :: slots => none :: update k v slots

def insert (k : κ) (v : ν) : Slots κ ν → Slots κ ν
  | [] => []
  | some e :: slots => some e :: insert k v slots
  | none :: slots => some (k, v) :: slots

def put (k : κ) (v : ν) (slots : Slots κ ν) : Slots κ ν :=
  if (slots.find k).isSome then slots.update k v else slots.insert k v

def Room (k : κ) (slots : Slots κ ν) : Prop := (slots.find k).isSome ∨ none ∈ slots

instance {k : κ} {slots : Slots κ ν} [DecidableEq ν] : Decidable (slots.Room k) := by
  unfold Room
  infer_instance

variable {k k' : κ} {v : ν} {slots : Slots κ ν}

@[simp] lemma length_update : (slots.update k v).length = slots.length := by
  induction slots with
  | nil => rfl
  | cons slot slots ih =>
    rcases slot with _ | ⟨k₀, v₀⟩
    · rw [update, List.length_cons, List.length_cons, ih]
    · rw [update]
      split
      · rfl
      · rw [List.length_cons, List.length_cons, ih]

omit [DecidableEq κ] in
@[simp] lemma length_insert : (slots.insert k v).length = slots.length := by
  induction slots with
  | nil => rfl
  | cons slot slots ih =>
    rcases slot with _ | e
    · rfl
    · rw [insert, List.length_cons, List.length_cons, ih]

@[simp] lemma length_put : (slots.put k v).length = slots.length := by
  rw [put]
  split
  · exact length_update
  · exact length_insert

lemma find_update_self (found : (slots.find k).isSome) : (slots.update k v).find k = some v := by
  induction slots with
  | nil => cases found
  | cons slot slots ih =>
    rcases slot with _ | ⟨k₀, v₀⟩
    · exact ih found
    · rw [find] at found
      rw [update]
      split
      next => rw [find, if_pos rfl]
      next ne =>
        rw [if_neg ne] at found
        rw [find, if_neg ne, ih found]

lemma find_update_other (ne : k' ≠ k) : (slots.update k v).find k' = slots.find k' := by
  induction slots with
  | nil => rfl
  | cons slot slots ih =>
    rcases slot with _ | ⟨k₀, v₀⟩
    · exact ih
    · rw [update]
      split
      next eq => rw [find, find, if_neg ne.symm, if_neg (eq ▸ ne.symm)]
      next => rw [find, find, ih]

lemma find_insert_self (absent : slots.find k = none) (free : none ∈ slots) :
    (slots.insert k v).find k = some v := by
  induction slots with
  | nil => cases free
  | cons slot slots ih =>
    rcases slot with _ | ⟨k₀, v₀⟩
    · rw [insert, find, if_pos rfl]
    · rw [find] at absent
      split at absent
      next => cases absent
      next ne =>
        rw [insert, find, if_neg ne]
        exact ih absent ((List.mem_cons.mp free).resolve_left nofun)

lemma find_insert_other (ne : k' ≠ k) : (slots.insert k v).find k' = slots.find k' := by
  induction slots with
  | nil => rfl
  | cons slot slots ih =>
    rcases slot with _ | ⟨k₀, v₀⟩
    · rw [insert, find, find, if_neg ne.symm]
    · rw [insert, find, find, ih]

omit [DecidableEq κ] in
lemma insert_full (full : none ∉ slots) : slots.insert k v = slots := by
  induction slots with
  | nil => rfl
  | cons slot slots ih =>
    rcases slot with _ | e
    · exact absurd List.mem_cons_self full
    · rw [insert, ih fun mem => full (List.mem_cons_of_mem _ mem)]

lemma find_put_other (ne : k' ≠ k) : (slots.put k v).find k' = slots.find k' := by
  rw [put]
  split
  · exact find_update_other ne
  · exact find_insert_other ne

lemma find_put_self (room : slots.Room k) : (slots.put k v).find k = some v := by
  rw [put]
  split
  next found => exact find_update_self found
  next absent =>
    exact find_insert_self (Option.not_isSome_iff_eq_none.mp absent) (room.resolve_left absent)

lemma find_put_full (full : ¬slots.Room k) : (slots.put k v).find k = none := by
  obtain ⟨absent, noFree⟩ := not_or.mp full
  rw [put, if_neg absent, insert_full noFree]
  exact Option.not_isSome_iff_eq_none.mp absent

end Slots

end Macify.Lib
