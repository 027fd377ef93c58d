import Mathlib.Tactic

/-!
# Walks over records

A loop that moves a cursor over the records of a buffer, by the length that each record gives. `Walk.run` lists its
turns, at most `n`. `Walk.run_safe_iff` says when all turns read inside a limit and move the cursor forwards: the
record `k` starts where the lengths of the `k` records before it lead.
-/

namespace Macify.Lib

inductive Move where
  | next
  | stay
  | leave
  deriving DecidableEq

/-- The condition, the records and the body of a loop. A read is an offset and a number of bytes. -/
structure Walk (σ : Type*) where
  guard : ℕ → Bool
  size : ℕ → ℕ
  reads : ℕ → σ → List (ℕ × ℕ)
  move : ℕ → σ → Move
  update : ℕ → σ → σ

structure Turn where
  cursor : ℕ
  reads : List (ℕ × ℕ)
  next : Option ℕ
  deriving DecidableEq

structure Turn.Safe (limit : ℕ) (t : Turn) : Prop where
  inside : ∀ r ∈ t.reads, r.1 + r.2 ≤ limit
  forward : ∀ c, t.next = some c → t.cursor < c

/-- Where the last field of a record ends, when fields are offsets in the record with a length. -/
def extent (fields : List (ℕ × ℕ)) : ℕ := fields.foldr (fun f m => max (f.1 + f.2) m) 0

lemma extent_nil : extent [] = 0 := rfl

lemma extent_cons {f : ℕ × ℕ} {fields : List (ℕ × ℕ)} :
    extent (f :: fields) = max (f.1 + f.2) (extent fields) := rfl

lemma extent_append {a b : List (ℕ × ℕ)} : extent (a ++ b) = max (extent a) (extent b) := by
  induction a with
  | nil => exact (Nat.zero_max _).symm
  | cons f a ih => rw [List.cons_append, extent_cons, ih, extent_cons, max_assoc]

lemma fields_inside_iff {fields : List (ℕ × ℕ)} {c limit : ℕ} (ne : fields ≠ []) :
    (∀ f ∈ fields, c + f.1 + f.2 ≤ limit) ↔ c + extent fields ≤ limit := by
  induction fields with
  | nil => exact absurd rfl ne
  | cons f fields ih =>
    rw [List.forall_mem_cons, extent_cons]
    cases fields with
    | nil =>
      simp only [List.not_mem_nil, false_imp_iff, implies_true, and_true, extent_nil]
      omega
    | cons g fields =>
      rw [ih (List.cons_ne_nil g fields)]
      omega

namespace Walk

section

variable {σ : Type*} (w : Walk σ)

def run : ℕ → ℕ → σ → List Turn
  | 0, _, _ => []
  | n + 1, c, s =>
    if w.guard c then
      match w.move c s with
      | .next => ⟨c, w.reads c s, some (c + w.size c)⟩ :: run n (c + w.size c) (w.update c s)
      | .stay => ⟨c, w.reads c s, some c⟩ :: run n c (w.update c s)
      | .leave => [⟨c, w.reads c s, none⟩]
    else []

def final : ℕ → ℕ → σ → σ
  | 0, _, s => s
  | n + 1, c, s =>
    if w.guard c then
      match w.move c s with
      | .next => final n (c + w.size c) (w.update c s)
      | .stay => final n c (w.update c s)
      | .leave => w.update c s
    else s

def offsetAt (c : ℕ) : ℕ → ℕ
  | 0 => c
  | k + 1 => offsetAt c k + w.size (offsetAt c k)

def stateAt (c : ℕ) (s : σ) : ℕ → σ
  | 0 => s
  | k + 1 => w.update (w.offsetAt c k) (stateAt c s k)

/-- The loop moves on over all records before record `k`, and looks at this one. -/
structure Reaches (c : ℕ) (s : σ) (k : ℕ) : Prop where
  before : ∀ j < k, w.guard (w.offsetAt c j) = true ∧ w.move (w.offsetAt c j) (w.stateAt c s j) = .next
  here : w.guard (w.offsetAt c k) = true

/-- What is read of record `k` lies below the limit, and the loop leaves or moves on by a length that is not zero. -/
structure Fits (limit c : ℕ) (s : σ) (k : ℕ) : Prop where
  inside : ∀ r ∈ w.reads (w.offsetAt c k) (w.stateAt c s k), r.1 + r.2 ≤ limit
  moves : w.move (w.offsetAt c k) (w.stateAt c s k) ≠ .stay
  nonempty : w.move (w.offsetAt c k) (w.stateAt c s k) = .next → w.size (w.offsetAt c k) ≠ 0

end

variable {σ : Type*} {w : Walk σ} {limit n c k : ℕ} {s : σ}

lemma length_run_le : (w.run n c s).length ≤ n := by
  induction n generalizing c s with
  | zero => exact le_rfl
  | succ n ih =>
    rw [run]
    split
    · split
      · exact Nat.succ_le_succ ih
      · exact Nat.succ_le_succ ih
      · exact Nat.succ_le_succ (Nat.zero_le n)
    · exact Nat.zero_le _

lemma offsetAt_succ : w.offsetAt (c + w.size c) k = w.offsetAt c (k + 1) := by
  induction k with
  | zero => rfl
  | succ k ih => rw [offsetAt, ih, ← offsetAt]

lemma stateAt_succ : w.stateAt (c + w.size c) (w.update c s) k = w.stateAt c s (k + 1) := by
  induction k with
  | zero => rfl
  | succ k ih => rw [stateAt, ih, offsetAt_succ, ← stateAt]

lemma reaches_succ (guard : w.guard c = true) (next : w.move c s = .next) :
    w.Reaches (c + w.size c) (w.update c s) k ↔ w.Reaches c s (k + 1) := by
  constructor
  · intro reached
    refine ⟨fun j lt => ?_, offsetAt_succ ▸ reached.here⟩
    cases j with
    | zero => exact ⟨guard, next⟩
    | succ j =>
      rw [← offsetAt_succ, ← stateAt_succ]
      exact reached.before j (Nat.lt_of_succ_lt_succ lt)
  · intro reached
    refine ⟨fun j lt => ?_, offsetAt_succ.symm ▸ reached.here⟩
    rw [offsetAt_succ, stateAt_succ]
    exact reached.before (j + 1) (Nat.succ_lt_succ lt)

lemma fits_succ : w.Fits limit (c + w.size c) (w.update c s) k ↔ w.Fits limit c s (k + 1) := by
  constructor
  · intro ⟨inside, moves, nonempty⟩
    rw [offsetAt_succ, stateAt_succ] at inside moves nonempty
    exact ⟨inside, moves, nonempty⟩
  · intro ⟨inside, moves, nonempty⟩
    rw [← offsetAt_succ, ← stateAt_succ] at inside moves nonempty
    exact ⟨inside, moves, nonempty⟩

lemma Reaches.guard (reached : w.Reaches c s k) : w.guard c = true := by
  cases k with
  | zero => exact reached.here
  | succ k => exact (reached.before 0 k.succ_pos).1

/-- All turns of the loop are safe exactly when every record that is reached fits. -/
lemma run_safe_iff : (∀ t ∈ w.run n c s, t.Safe limit) ↔ ∀ k < n, w.Reaches c s k → w.Fits limit c s k := by
  induction n generalizing c s with
  | zero => exact iff_of_true (fun _ mem => absurd mem List.not_mem_nil) nofun
  | succ n ih =>
    rw [run]
    by_cases guard : w.guard c = true
    · rw [if_pos guard]
      have first : w.Reaches c s 0 := ⟨nofun, guard⟩
      cases move : w.move c s with
      | next =>
        rw [List.forall_mem_cons, ih]
        constructor
        · rintro ⟨safe, rest⟩ k lt reached
          cases k with
          | zero =>
            have ahead := safe.forward _ rfl
            exact ⟨safe.inside, fun stay => Move.noConfusion (move.symm.trans stay),
              fun _ => Nat.ne_of_gt (Nat.lt_add_right_iff_pos.mp ahead)⟩
          | succ k =>
            exact fits_succ.mp
              (rest k (Nat.lt_of_succ_lt_succ lt) ((reaches_succ guard move).mpr reached))
        · intro all
          have here := all 0 n.succ_pos first
          refine ⟨⟨here.inside, fun c' next => ?_⟩, fun k lt reached => ?_⟩
          · cases next
            exact Nat.lt_add_of_pos_right (Nat.pos_of_ne_zero (here.nonempty move))
          · exact fits_succ.mpr
              (all (k + 1) (Nat.succ_lt_succ lt) ((reaches_succ guard move).mp reached))
      | stay =>
        refine iff_of_false (fun all => ?_) fun all => (all 0 n.succ_pos first).moves move
        exact absurd ((all _ List.mem_cons_self).forward c rfl) (Nat.lt_irrefl c)
      | leave =>
        rw [List.forall_mem_singleton]
        constructor
        · intro safe k _ reached
          cases k with
          | zero =>
            exact ⟨safe.inside, fun stay => Move.noConfusion (move.symm.trans stay),
              fun next => Move.noConfusion (move.symm.trans next)⟩
          | succ k =>
            exact Move.noConfusion (move.symm.trans (reached.before 0 k.succ_pos).2)
        · exact fun all => ⟨(all 0 n.succ_pos first).inside, nofun⟩
    · rw [if_neg guard]
      exact iff_of_true (fun _ mem => absurd mem List.not_mem_nil)
        fun k _ reached => absurd reached.guard guard

section Stalls

def cursors (w : Walk σ) (n c : ℕ) (s : σ) : List ℕ := (w.run n c s).map Turn.cursor

/-- The loop goes on to the end of its turns. At some records it stays, whatever its state is. -/
structure Steady (w : Walk σ) (stalls : ℕ → Bool) : Prop where
  guard : ∀ c, w.guard c = true
  move : ∀ c s, w.move c s = if stalls c then .stay else .next

variable {stalls wanted : ℕ → Bool}

lemma Steady.cursors_succ (steady : w.Steady stalls) :
    w.cursors (n + 1) c s =
      c :: w.cursors n (if stalls c then c else c + w.size c) (w.update c s) := by
  rw [cursors, run, if_pos (steady.guard c), steady.move]
  cases stalls c with
  | true | false => rfl

lemma Steady.final_eq (steady : w.Steady stalls) :
    w.final n c s = (w.cursors n c s).foldl (fun s c => w.update c s) s := by
  induction n generalizing c s with
  | zero => rfl
  | succ n ih =>
    rw [final, if_pos (steady.guard c), steady.move, steady.cursors_succ, List.foldl_cons]
    cases stalls c with
    | true | false => exact ih

lemma Steady.cursors_congr {τ : Type*} {v : Walk τ} {t : τ} (steady : w.Steady stalls)
    (steady' : v.Steady stalls) (size : v.size = w.size) : w.cursors n c s = v.cursors n c t := by
  induction n generalizing c s t with
  | zero => rfl
  | succ n ih => rw [steady.cursors_succ, steady'.cursors_succ, size, ih]

/-- The loop comes to the records up to the first one at which it stalls, and stays there. -/
lemma Steady.cursors_eq (steady : w.Steady stalls) :
    ∃ k ≤ n, (∀ j < k, stalls (w.offsetAt c j) = false) ∧ (k < n → stalls (w.offsetAt c k) = true) ∧
      w.cursors n c s =
        (List.range k).map (w.offsetAt c) ++ List.replicate (n - k) (w.offsetAt c k) := by
  induction n generalizing c s with
  | zero => exact ⟨0, le_rfl, nofun, nofun, rfl⟩
  | succ n ih =>
    rw [steady.cursors_succ]
    cases stalled : stalls c with
    | true =>
      obtain ⟨k, le, before, _, eq⟩ := @ih c (w.update c s)
      cases k with
      | zero => exact ⟨0, Nat.zero_le _, nofun, fun _ => stalled, congrArg (c :: ·) eq⟩
      | succ k => exact absurd ((before 0 k.succ_pos).symm.trans stalled) Bool.false_ne_true
    | false =>
      obtain ⟨k, le, before, stop, eq⟩ := @ih (c + w.size c) (w.update c s)
      have shift : w.offsetAt (c + w.size c) = w.offsetAt c ∘ Nat.succ := funext fun _ => offsetAt_succ
      rw [shift] at before stop eq
      refine ⟨k + 1, Nat.succ_le_succ le, fun j lt => ?_, fun lt => stop (Nat.lt_of_succ_lt_succ lt), ?_⟩
      · cases j with
        | zero => exact stalled
        | succ j => exact before j (Nat.lt_of_succ_lt_succ lt)
      · rw [List.range_succ_eq_map, List.map_cons, List.map_map, List.cons_append, Nat.add_sub_add_right]
        exact congrArg (c :: ·) eq

lemma offsetAt_lt (nonempty : ∀ j < n, w.size (w.offsetAt c j) ≠ 0) {i j : ℕ} (lt : i < j) (le : j ≤ n) :
    w.offsetAt c i < w.offsetAt c j := by
  induction j with
  | zero => exact absurd lt (Nat.not_lt_zero i)
  | succ j ih =>
    have ahead : w.offsetAt c j < w.offsetAt c (j + 1) :=
      Nat.lt_add_of_pos_right (Nat.pos_of_ne_zero (nonempty j le))
    rcases Nat.lt_succ_iff_lt_or_eq.mp lt with lt | rfl
    · exact (ih lt (by omega)).trans ahead
    · exact ahead

/-- The loop comes to each record once exactly when it stalls at no record but the last. -/
lemma Steady.cursors_eq_iff (steady : w.Steady stalls) (nonempty : ∀ j < n, w.size (w.offsetAt c j) ≠ 0) :
    w.cursors n c s = (List.range n).map (w.offsetAt c) ↔
      ∀ k, k + 1 < n → stalls (w.offsetAt c k) = false := by
  obtain ⟨k, le, before, stop, eq⟩ := @cursors_eq _ w n c s stalls steady
  rw [eq]
  constructor
  · intro all j lt
    by_contra stalled
    have ge : k ≤ j := by
      by_contra less
      exact stalled (before j (by omega))
    -- the loop is still at record `k` when it should be at the next one
    have next := congrArg (·[k + 1]?) all
    simp only [List.getElem?_map, List.getElem?_range (show k + 1 < n by omega), Option.map_some] at next
    rw [List.getElem?_append_right (by simp), List.length_map, List.length_range,
      Nat.add_sub_cancel_left, List.getElem?_replicate, if_pos (by omega)] at next
    exact (offsetAt_lt nonempty (Nat.lt_succ_self k) (by omega)).ne (Option.some.inj next)
  · intro free
    rcases Nat.eq_or_lt_of_le le with rfl | lt
    · rw [Nat.sub_self, List.replicate_zero, List.append_nil]
    · have last : k + 1 = n := by
        by_contra more
        exact Bool.false_ne_true ((free k (by omega)).symm.trans (stop lt))
      subst last
      rw [Nat.add_sub_cancel_left, List.range_succ, List.map_append]
      rfl

/-- The loop comes to each wanted record once exactly when none comes after one at which it stalls. -/
lemma Steady.filter_cursors_iff (steady : w.Steady stalls) (unwanted : ∀ c, stalls c = true → wanted c = false) :
    (w.cursors n c s).filter wanted = ((List.range n).map (w.offsetAt c)).filter wanted ↔
      ∀ k < n, ∀ j < k, stalls (w.offsetAt c j) = true → wanted (w.offsetAt c k) = false := by
  obtain ⟨k, le, before, stop, eq⟩ := @cursors_eq _ w n c s stalls steady
  have stays : (List.replicate (n - k) (w.offsetAt c k)).filter wanted = [] := by
    rw [List.filter_eq_nil_iff]
    intro x mem
    obtain ⟨pos, rfl⟩ := List.mem_replicate.mp mem
    exact Bool.eq_false_iff.mp (unwanted _ (stop (by omega)))
  have parts : List.range n = List.range k ++ (List.range (n - k)).map (k + ·) := by
    rw [← List.range_add, Nat.add_sub_cancel' le]
  have split : (w.cursors n c s).filter wanted = ((List.range n).map (w.offsetAt c)).filter wanted ↔
      ∀ i < n - k, wanted (w.offsetAt c (k + i)) = false := by
    rw [eq, parts, List.filter_append, stays, List.append_nil, List.map_append, List.filter_append,
      List.self_eq_append_right, List.filter_eq_nil_iff]
    simp
  rw [split]
  constructor
  · intro none i lt j less stalled
    have ge : k ≤ j := by
      by_contra early
      exact Bool.false_ne_true ((before j (by omega)).symm.trans stalled)
    obtain ⟨d, rfl⟩ := Nat.exists_eq_add_of_le (ge.trans less.le)
    exact none d (by omega)
  · intro none i lt
    have stalled := stop (by omega)
    cases i with
    | zero => exact unwanted _ stalled
    | succ i => exact none (k + (i + 1)) (by omega) k (by omega) stalled

end Stalls

end Walk

/-- Records of one width that are linked by distances. The last one has distance zero, or no other fits behind it
    before `last`. -/
inductive Links {α : Type*} (pos step : α → ℕ) (width last : ℕ) : ℕ → List α → Prop where
  | stop {v} :
    pos v + width ≤ last →
    (step v = 0 ∨ last < pos v + step v + width) →
    Links pos step width last (pos v) [v]
  | next {v vs} :
    pos v + width ≤ last →
    0 < step v →
    Links pos step width last (pos v + step v) vs →
    Links pos step width last (pos v) (v :: vs)

namespace Links

variable {α : Type*} {pos step : α → ℕ} {width last a : ℕ} {vs : List α}
variable (links : Links pos step width last a vs)
include links

lemma head : vs.head?.map pos = some a := by
  cases links with
  | stop _ _ | next _ _ _ => rfl

lemma bounds : ∀ v ∈ vs, a ≤ pos v ∧ pos v + width ≤ last := by
  induction links with
  | stop fits _ =>
    intro v mem
    cases List.mem_singleton.mp mem
    exact ⟨le_rfl, fits⟩
  | next fits _ _ ih =>
    intro w mem
    cases List.mem_cons.mp mem with
    | inl here =>
      subst here
      exact ⟨le_rfl, fits⟩
    | inr mem =>
      obtain ⟨after, inside⟩ := ih w mem
      exact ⟨(Nat.le_add_right _ _).trans after, inside⟩

lemma increasing : vs.Pairwise fun v w => pos v < pos w := by
  induction links with
  | stop _ _ => exact List.pairwise_singleton _ _
  | next _ moves rest ih =>
    refine List.pairwise_cons.mpr ⟨fun w mem => ?_, ih⟩
    have := (rest.bounds w mem).1
    omega

lemma linked : vs.IsChain fun v w => pos w = pos v + step v := by
  induction links with
  | stop _ _ => exact .singleton _
  | @next v vs _ _ rest ih =>
    cases vs with
    | nil => exact .singleton _
    | cons w vs => exact .cons_cons (Option.some.inj rest.head) ih

lemma ends :
    ∀ v ∈ vs.getLast?, step v = 0 ∨ last < pos v + step v + width := by
  induction links with
  | stop _ stops =>
    intro w mem
    cases mem
    exact stops
  | @next v vs _ _ rest ih =>
    cases vs with
    | nil => cases rest.head
    | cons w vs => exact ih

end Links

end Macify.Lib
