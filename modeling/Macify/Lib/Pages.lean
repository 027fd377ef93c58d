import Macify.Lib.Loop

/-!
# Pages of an address space

What is mapped at each page, and the calls that change it. A call acts on a range of pages, given by the
first one and their number. `mprotect` goes from page to page and ends at the first one that is not
mapped; `limit` is the number of pages after which the system gives up for other reasons.
-/

namespace Macify.Lib

abbrev Space (π : Type*) := ℕ → Option π

namespace Space

variable {π : Type*}

def Within (p n q : ℕ) : Prop := p ≤ q ∧ q < p + n

instance (p n q : ℕ) : Decidable (Within p n q) := inferInstanceAs (Decidable (_ ∧ _))

def map (m : Space π) (p n : ℕ) (x : π) : Space π := fun q => if Within p n q then some x else m q

def unmap (m : Space π) (p n : ℕ) : Space π := fun q => if Within p n q then none else m q

def change (m : Space π) (p n : ℕ) (f : π → π) : Space π := fun q => if Within p n q then (m q).map f else m q

def mapped (m : Space π) : ℕ → ℕ → ℕ
  | _, 0 => 0
  | p, n + 1 => if (m p).isSome then mapped m (p + 1) n + 1 else 0

def reached (m : Space π) (p n limit : ℕ) : ℕ := min limit (m.mapped p n)

def mprotect (m : Space π) (p n : ℕ) (f : π → π) (limit : ℕ) : Space π × Bool :=
  (m.change p (m.reached p n limit) f, m.reached p n limit == n)

section Lemmas

variable {m : Space π} {p n q limit : ℕ} {x : π} {f : π → π}

lemma map_within (within : Within p n q) : m.map p n x q = some x := if_pos within

lemma map_outside (outside : ¬Within p n q) : m.map p n x q = m q := if_neg outside

lemma unmap_outside (outside : ¬Within p n q) : m.unmap p n q = m q := if_neg outside

lemma change_within (within : Within p n q) : m.change p n f q = (m q).map f := if_pos within

lemma change_outside (outside : ¬Within p n q) : m.change p n f q = m q := if_neg outside

lemma mapped_le : m.mapped p n ≤ n := by
  induction n generalizing p with
  | zero => exact Nat.le_refl 0
  | succ n ih =>
    rw [mapped]
    split
    · exact Nat.succ_le_succ ih
    · exact Nat.zero_le _

lemma reached_le : m.reached p n limit ≤ n := Nat.le_trans (Nat.min_le_right _ _) mapped_le

lemma mapped_eq (all : ∀ q, Within p n q → (m q).isSome = true) : m.mapped p n = n := by
  induction n generalizing p with
  | zero => rfl
  | succ n ih =>
    have rest : m.mapped (p + 1) n = n := by
      refine ih fun q within => all q ?_
      unfold Within at within ⊢
      omega
    rw [mapped, if_pos (all p ⟨Nat.le_refl p, by omega⟩), rest]

lemma Within.mono {k : ℕ} (within : Within p k q) (le : k ≤ n) : Within p n q := by
  unfold Within at within ⊢
  omega

lemma map_change {k : ℕ} (le : k ≤ n) : (m.change p k f).map p n x = m.map p n x := by
  funext q
  by_cases within : Within p n q
  · rw [map_within within, map_within within]
  · rw [map_outside within, map_outside within, change_outside fun inside => within (inside.mono le)]

end Lemmas

lemma foldl_local {ι : Type*} {on : ι → ℕ → Prop} {g : Space π → ι → Space π} {m : Space π} {l : List ι} {i : ι} {q : ℕ}
    (others : ∀ m i q, ¬on i q → g m i q = m q) (apart : l.Pairwise fun i j => ∀ q, on i q → ¬on j q) (mem : i ∈ l)
    (here : on i q) : ∃ m', m' q = m q ∧ l.foldl g m q = g m' i q := by
  have skip : ∀ (l : List ι) (m : Space π), (∀ j ∈ l, ¬on j q) → l.foldl g m q = m q := by
    intro l
    induction l with
    | nil => exact fun m _ => rfl
    | cons j l ih =>
      intro m none
      rw [List.foldl_cons, ih _ fun k mem => none k (.tail j mem), others m j q (none j (.head l))]
  induction l generalizing m with
  | nil => cases mem
  | cons j l ih =>
    obtain ⟨first, rest⟩ := List.pairwise_cons.mp apart
    cases mem with
    | head => exact ⟨m, rfl, skip l _ fun k mem => first k mem q here⟩
    | tail _ mem =>
      obtain ⟨m', same, last⟩ := @ih (g m j) rest mem
      exact ⟨m', same.trans (others m j q fun on => first i mem q on here), last⟩

def pageOf (a : BitVec 64) : ℕ := a.toNat / 4096

def pagesOf (len : BitVec 64) : ℕ := (len.toNat + 4095) / 4096

end Space

end Macify.Lib
