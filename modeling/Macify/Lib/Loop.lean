import Mathlib.Tactic

/-!
# Loops and tables

The loop shapes of a byte scanner, with their invariant rules: `forUp a n f s` is `for (i = a; i < a + n; i++)`, and
`searchDown p lo hi` is `for (j = hi; j >= lo; j--) if (p(j)) return j;`; `searchUp` is its counterpart for a test that
may fail. A table of designated initialisers is an association list.
-/

namespace Macify.Lib

def forUp {σ} (f : ℕ → σ → σ) : ℕ → ℕ → σ → σ
  | _, 0, s => s
  | a, n + 1, s => forUp f (a + 1) n (f a s)

lemma forUp_invariant {σ} {f : ℕ → σ → σ} (P : ℕ → σ → Prop) {a n s} (init : P a s)
    (step : ∀ i s, a ≤ i → i < a + n → P i s → P (i + 1) (f i s)) :
    P (a + n) (forUp f a n s) := by
  induction n generalizing a s with
  | zero => exact init
  | succ n ih =>
    have h := ih (step a s (Nat.le_refl a) (by omega) init)
      (fun i s ge lt inv => step i s (by omega) (by omega) inv)
    rw [show a + 1 + n = a + (n + 1) from by omega] at h
    exact h

/-- The first `i` from `a` on for which `f` has a result; an `i` for which `f` fails ends the loop as well. -/
def searchUp {α} (f : ℕ → Option (Option α)) : ℕ → ℕ → Option (Option α)
  | _, 0 => some none
  | a, n + 1 =>
    match f a with
    | none => none
    | some none => searchUp f (a + 1) n
    | some (some x) => some (some x)

lemma searchUp_spec {α} {f : ℕ → Option (Option α)} (P : ℕ → α → Prop) {a n : ℕ}
    (test : ∀ i, a ≤ i → i < a + n → ∃ r, f i = some r ∧ ∀ x, r = some x → P i x) :
    ∃ r, searchUp f a n = some r ∧ ∀ x, r = some x → ∃ i, a ≤ i ∧ i < a + n ∧ P i x := by
  induction n generalizing a with
  | zero => exact ⟨none, rfl, nofun⟩
  | succ n ih =>
    obtain ⟨r, result, found⟩ := test a (Nat.le_refl a) (by omega)
    rw [searchUp, result]
    cases r with
    | some x =>
      refine ⟨some x, rfl, fun y eq => ⟨a, Nat.le_refl a, by omega, ?_⟩⟩
      exact found y eq
    | none =>
      obtain ⟨r, rest, found⟩ := @ih (a + 1) fun i ge lt => test i (by omega) (by omega)
      refine ⟨r, rest, fun x eq => ?_⟩
      obtain ⟨i, ge, lt, here⟩ := found x eq
      exact ⟨i, by omega, by omega, here⟩

def searchDown (p : ℕ → Bool) (lo : ℕ) : ℕ → Option ℕ
  | 0 => if lo = 0 ∧ p 0 then some 0 else none
  | j + 1 =>
    if j + 1 < lo then none
    else if p (j + 1) then some (j + 1)
    else searchDown p lo j

lemma searchDown_eq_none {p lo hi} : searchDown p lo hi = none ↔ ∀ j, lo ≤ j → j ≤ hi → p j = false := by
  induction hi with
  | zero =>
    constructor
    · intro h j ge le
      obtain rfl : j = 0 := by omega
      by_cases hp : p 0 <;> simp_all [searchDown]
    · intro h
      by_cases hlo : lo = 0
      · subst hlo
        simp [searchDown, h 0]
      · simp [searchDown, hlo]
  | succ hi ih =>
    by_cases hlt : hi + 1 < lo
    · simp only [searchDown, if_pos hlt, true_iff]
      intro j ge le
      omega
    by_cases hp : p (hi + 1)
    · simp only [searchDown, if_neg hlt, if_pos hp]
      constructor
      · intro h
        cases h
      · intro h
        rw [h (hi + 1) (by omega) (Nat.le_refl _)] at hp
        cases hp
    · simp only [searchDown, if_neg hlt, if_neg hp, ih]
      constructor
      · intro h j ge le
        by_cases e : j = hi + 1
        · subst e
          simpa using hp
        · exact h j ge (by omega)
      · intro h j ge le
        exact h j ge (by omega)

lemma searchDown_eq_some {p lo hi m} :
    searchDown p lo hi = some m ↔
      lo ≤ m ∧ m ≤ hi ∧ p m = true ∧ ∀ j, m < j → j ≤ hi → p j = false := by
  induction hi with
  | zero =>
    constructor
    · intro h
      by_cases hc : lo = 0 ∧ p 0 = true
      · simp only [searchDown, if_pos hc, Option.some.injEq] at h
        subst h
        exact ⟨by omega, Nat.le_refl 0, hc.2, fun j gt le => by omega⟩
      · simp [searchDown, hc] at h
    · rintro ⟨ge, le, hp, _⟩
      obtain rfl : m = 0 := by omega
      have hlo : lo = 0 := by omega
      simp [searchDown, hlo, hp]
  | succ hi ih =>
    by_cases hlt : hi + 1 < lo
    · simp only [searchDown, if_pos hlt]
      constructor
      · intro h
        cases h
      · rintro ⟨ge, le, _⟩
        omega
    by_cases hp : p (hi + 1)
    · simp only [searchDown, if_neg hlt, if_pos hp, Option.some.injEq]
      constructor
      · rintro rfl
        exact ⟨by omega, Nat.le_refl _, hp, fun j gt le => by omega⟩
      · rintro ⟨ge, le, hm, last⟩
        by_contra ne
        rw [last (hi + 1) (by omega) (Nat.le_refl _)] at hp
        cases hp
    · simp only [searchDown, if_neg hlt, if_neg hp, ih]
      constructor
      · rintro ⟨ge, le, hm, last⟩
        refine ⟨ge, by omega, hm, fun j gt lej => ?_⟩
        by_cases e : j = hi + 1
        · subst e
          simpa using hp
        · exact last j gt (by omega)
      · rintro ⟨ge, le, hm, last⟩
        have ne : m ≠ hi + 1 := by
          rintro rfl
          exact hp hm
        exact ⟨ge, by omega, hm, fun j gt lej => last j gt (by omega)⟩

lemma searchDown_congr {p q lo hi} (h : ∀ j, lo ≤ j → j ≤ hi → p j = q j) :
    searchDown p lo hi = searchDown q lo hi := by
  cases hq : searchDown q lo hi with
  | none =>
    rw [searchDown_eq_none] at hq ⊢
    intro j ge le
    rw [h j ge le, hq j ge le]
  | some m =>
    rw [searchDown_eq_some] at hq ⊢
    obtain ⟨ge, le, hm, last⟩ := hq
    refine ⟨ge, le, by rw [h m ge le, hm], fun j gt lej => ?_⟩
    rw [h j (by omega) lej, last j gt lej]

lemma searchDown_isSome {p lo hi} : (searchDown p lo hi).isSome = true ↔ ∃ j, lo ≤ j ∧ j ≤ hi ∧ p j = true := by
  rw [Option.isSome_iff_ne_none, ne_eq, searchDown_eq_none]
  constructor
  · intro h
    by_contra none
    apply h
    intro j ge le
    by_contra hp
    exact none ⟨j, ge, le, by simpa using hp⟩
  · rintro ⟨j, ge, le, hp⟩ h
    rw [h j ge le] at hp
    cases hp

lemma foldlM_append {σ α β} {f : σ → α → Option σ} (out : σ → List β) (g : α → List β)
    (step : ∀ s a s', f s a = some s' → out s' = out s ++ g a) {l : List α} {s s'}
    (run : l.foldlM f s = some s') : out s' = out s ++ l.flatMap g := by
  induction l generalizing s with
  | nil =>
    cases run
    simp
  | cons a l ih =>
    rw [List.foldlM_cons] at run
    obtain ⟨s₁, one, rest⟩ := Option.bind_eq_some_iff.mp run
    rw [ih rest, step s a s₁ one, List.flatMap_cons, List.append_assoc]

lemma foldlM_total {σ α} {f : σ → α → Option σ} (P : σ → Prop) {l : List α} {s} (init : P s)
    (step : ∀ a ∈ l, ∀ s, P s → ∃ s', f s a = some s' ∧ P s') :
    ∃ s', l.foldlM f s = some s' ∧ P s' := by
  induction l generalizing s with
  | nil => exact ⟨s, rfl, init⟩
  | cons a l ih =>
    obtain ⟨s₁, one, inv⟩ := step a List.mem_cons_self s init
    obtain ⟨s', rest, inv'⟩ := ih inv fun b mem => step b (List.mem_cons_of_mem a mem)
    refine ⟨s', ?_, inv'⟩
    rw [List.foldlM_cons, one]
    exact rest

lemma foldl_id {α σ} {f : σ → α → σ} {l : List α} {s : σ} (same : ∀ a ∈ l, ∀ s, f s a = s) : l.foldl f s = s := by
  induction l with
  | nil => rfl
  | cons a l ih =>
    rw [List.foldl_cons, same a List.mem_cons_self, ih fun b mem => same b (List.mem_cons_of_mem a mem)]

lemma foldl_single {α σ} {f : σ → α → σ} {l : List α} {x : α} {s : σ} (mem : x ∈ l) (nodup : l.Nodup)
    (others : ∀ a ∈ l, a ≠ x → ∀ s, f s a = s) : l.foldl f s = f s x := by
  obtain ⟨before, after, rfl⟩ := List.append_of_mem mem
  have absent := List.nodup_middle.mp nodup
  rw [List.nodup_cons, List.mem_append, not_or] at absent
  rw [List.foldl_append, List.foldl_cons]
  rw [foldl_id fun a mem => others a (List.mem_append_left _ mem) fun e => absent.1.1 (e ▸ mem)]
  exact foldl_id fun a mem => others a (List.mem_append_right _ (List.mem_cons_of_mem x mem))
    fun e => absent.1.2 (e ▸ mem)

/-- Every state of a run has a property exactly when every step is allowed. -/
lemma foldl_take_iff {α σ} {f : σ → α → σ} {P : σ → Prop} {allowed : α → Prop}
    (step : ∀ s a, P s → (P (f s a) ↔ allowed a)) {l : List α} {s : σ} (init : P s) :
    (∀ n, P ((l.take n).foldl f s)) ↔ ∀ a ∈ l, allowed a := by
  induction l generalizing s with
  | nil => exact iff_of_true (fun n => by rw [List.take_nil]; exact init) nofun
  | cons a l ih =>
    rw [List.forall_mem_cons, ← step s a init]
    constructor
    · intro all
      have first : P (f s a) := all 1
      exact ⟨first, (ih first).mp fun n => all (n + 1)⟩
    · rintro ⟨first, rest⟩ n
      cases n with
      | zero => exact init
      | succ n => exact (ih first).mpr rest n

def Along {α σ} (f : σ → α → σ) (P : σ → α → Prop) : σ → List α → Prop
  | _, [] => True
  | s, a :: l => P s a ∧ Along f P (f s a) l

instance {α σ} {f : σ → α → σ} {P : σ → α → Prop} [∀ s a, Decidable (P s a)] :
    ∀ (s : σ) (l : List α), Decidable (Along f P s l)
  | _, [] => .isTrue trivial
  | s, a :: l => @instDecidableAnd _ _ _ (instDecidableAlong (f s a) l)

lemma Along.of_invariant {α σ} {f : σ → α → σ} {allowed P : σ → α → Prop} (inv : σ → Prop)
    (step : ∀ s a, inv s → allowed s a → inv (f s a) ∧ P s a) {s : σ} {l : List α} (init : inv s)
    (all : Along f allowed s l) : Along f P s l := by
  induction l generalizing s with
  | nil => trivial
  | cons a l ih =>
    obtain ⟨first, rest⟩ := all
    exact ⟨(step s a init first).2, ih (step s a init first).1 rest⟩

lemma Along.foldl {α σ} {f : σ → α → σ} {allowed : σ → α → Prop} (inv : σ → Prop)
    (step : ∀ s a, inv s → allowed s a → inv (f s a)) {s : σ} {l : List α} (init : inv s)
    (all : Along f allowed s l) : inv (l.foldl f s) := by
  induction l generalizing s with
  | nil => exact init
  | cons a l ih => exact ih (step s a init all.1) all.2

lemma Along.take {α σ} {f : σ → α → σ} {P : σ → α → Prop} {s : σ} {l : List α} (all : Along f P s l)
    (k : ℕ) : Along f P s (l.take k) := by
  induction l generalizing s k with
  | nil => rw [List.take_nil]; trivial
  | cons a l ih =>
    cases k with
    | zero => trivial
    | succ k => exact ⟨all.1, ih all.2 k⟩

lemma Along.and {α σ} {f : σ → α → σ} {P Q : σ → α → Prop} {s : σ} {l : List α} (hp : Along f P s l)
    (hq : Along f Q s l) : Along f (fun s a => P s a ∧ Q s a) s l := by
  induction l generalizing s with
  | nil => trivial
  | cons a l ih => exact ⟨⟨hp.1, hq.1⟩, ih hp.2 hq.2⟩

lemma along_congr {α σ} {f : σ → α → σ} {P Q : σ → α → Prop} {s : σ} {l : List α}
    (same : ∀ s, ∀ a ∈ l, (P s a ↔ Q s a)) : Along f P s l ↔ Along f Q s l := by
  induction l generalizing s with
  | nil => exact Iff.rfl
  | cons a l ih =>
    exact and_congr (same s a List.mem_cons_self) (ih fun s b mem => same s b (List.mem_cons_of_mem a mem))

lemma Along.congr {α σ} {f : σ → α → σ} {R P Q : σ → α → Prop} {s : σ} {l : List α} (all : Along f R s l)
    (same : ∀ s a, R s a → (P s a ↔ Q s a)) : Along f P s l ↔ Along f Q s l := by
  induction l generalizing s with
  | nil => exact Iff.rfl
  | cons a l ih => exact and_congr (same s a all.1) (ih all.2)

lemma along_invariant_iff {α σ} {f : σ → α → σ} {keeps : σ → α → Prop} (inv : σ → Prop)
    (step : ∀ s a, inv s → (inv (f s a) ↔ keeps s a)) {s : σ} {l : List α} (init : inv s) :
    Along f (fun s a => inv (f s a)) s l ↔ Along f keeps s l := by
  induction l generalizing s with
  | nil => exact Iff.rfl
  | cons a l ih =>
    constructor
    · rintro ⟨first, rest⟩
      exact ⟨(step s a init).mp first, (ih first).mp rest⟩
    · rintro ⟨first, rest⟩
      have after := (step s a init).mpr first
      exact ⟨after, (ih after).mpr rest⟩

lemma exists_first_not {α} {P : α → Prop} {l : List α} (broken : ¬ ∀ a ∈ l, P a) :
    ∃ before a after, l = before ++ a :: after ∧ (∀ b ∈ before, P b) ∧ ¬ P a := by
  induction l with
  | nil => exact absurd nofun broken
  | cons a l ih =>
    by_cases holds : P a
    · obtain ⟨before, b, after, rfl, all, fails⟩ := ih fun rest => broken (List.forall_mem_cons.mpr ⟨holds, rest⟩)
      exact ⟨a :: before, b, after, rfl, List.forall_mem_cons.mpr ⟨holds, all⟩, fails⟩
    · exact ⟨[], a, l, rfl, nofun, holds⟩

lemma mem_of_lookup {α β} [BEq α] [LawfulBEq α] {table : List (α × β)} {k v}
    (e : table.lookup k = some v) : (k, v) ∈ table := by
  obtain ⟨before, after, rfl, _⟩ := List.lookup_eq_some_iff.mp e
  exact List.mem_append_right before List.mem_cons_self

end Macify.Lib
