import Mathlib.Tactic

/-!
# Lexical paths

The components of a path are the non-empty parts between separators. `resolve` goes down a list of components from a
directory; `..` goes up one level. `reduce` does the same without a directory: it counts the levels climbed above
the start, and keeps the components that are left (`resolve_eq`).
-/

namespace Macify.Lib

section Components

variable {β : Type*} [DecidableEq β] {sep : β} {a b : List β}

def components (sep : β) (path : List β) : List (List β) :=
  (path.splitOn sep).filter fun part => decide (part ≠ [])

lemma components_nil : components sep [] = [] := rfl

lemma components_append_sep : components sep (a ++ sep :: b) = components sep a ++ components sep b := by
  rw [components, List.splitOn_append_cons_self, List.filter_append]
  rfl

lemma components_sep_cons : components sep (sep :: b) = components sep b :=
  components_append_sep (a := [])

lemma components_of_no_sep (nonempty : a ≠ []) (no_sep : sep ∉ a) : components sep a = [a] := by
  rw [components, List.splitOn_eq_singleton no_sep]
  exact List.filter_cons_of_pos (decide_eq_true nonempty)

end Components

section Resolve

variable {α : Type*} [DecidableEq α] (dot dotdot : α)

def enter (dir : List α) (c : α) : List α :=
  if c = dot then dir else if c = dotdot then dir.dropLast else dir ++ [c]

def resolve (dir cs : List α) : List α := cs.foldl (enter dot dotdot) dir

structure Reduced (α : Type*) where
  climb : ℕ
  rest : List α

def Reduced.enter (r : Reduced α) (c : α) : Reduced α :=
  if c = dot then r
  else if c = dotdot then if r.rest = [] then ⟨r.climb + 1, []⟩ else ⟨r.climb, r.rest.dropLast⟩
  else ⟨r.climb, r.rest ++ [c]⟩

def reduce (cs : List α) : Reduced α := cs.foldl (Reduced.enter dot dotdot) ⟨0, []⟩

def Reduced.from (r : Reduced α) (dir : List α) : List α := dir.take (dir.length - r.climb) ++ r.rest

variable {dot dotdot} {dir cs : List α} {r : Reduced α} {c : α}

lemma enter_from : Macify.Lib.enter dot dotdot (r.from dir) c = (r.enter dot dotdot c).from dir := by
  unfold Macify.Lib.enter Reduced.enter
  split
  · rfl
  split
  · split
    · next empty =>
      rw [Reduced.from, Reduced.from, empty, List.append_nil, List.append_nil, List.dropLast_eq_take,
        List.length_take, List.take_take]
      exact congrArg (dir.take ·) (by dsimp only; omega)
    · next nonempty => exact List.dropLast_append_of_ne_nil nonempty
  · exact List.append_assoc _ _ _

lemma resolve_eq : resolve dot dotdot dir cs = (reduce dot dotdot cs).from dir := by
  have run : ∀ r : Reduced α,
      cs.foldl (Macify.Lib.enter dot dotdot) (r.from dir) =
        (cs.foldl (Reduced.enter dot dotdot) r).from dir := by
    induction cs with
    | nil => exact fun _ => rfl
    | cons c cs ih =>
      intro r
      rw [List.foldl_cons, List.foldl_cons, enter_from, ih]
  have start : (⟨0, []⟩ : Reduced α).from dir = dir := by
    rw [Reduced.from, Nat.sub_zero, List.take_length, List.append_nil]
  rw [resolve, reduce, ← run, start]

lemma resolve_append {cs' : List α} :
    resolve dot dotdot dir (cs ++ cs') = resolve dot dotdot (resolve dot dotdot dir cs) cs' :=
  List.foldl_append

lemma resolve_plain (plain : ∀ c ∈ cs, c ≠ dot ∧ c ≠ dotdot) : resolve dot dotdot dir cs = dir ++ cs := by
  induction cs generalizing dir with
  | nil => exact (List.append_nil dir).symm
  | cons c cs ih =>
    have ⟨here, later⟩ := List.forall_mem_cons.mp plain
    rw [resolve, List.foldl_cons, ← resolve, Macify.Lib.enter, if_neg here.1, if_neg here.2, ih later,
      List.append_assoc, List.singleton_append]

end Resolve

/-- The two ways in which a list begins with another: the other ends before the seam, or goes on. -/
lemma isPrefix_append_iff {α : Type*} {d kept rest : List α} :
    d <+: kept ++ rest ↔ d <+: kept ∨ ∃ way, d = kept ++ way ∧ way <+: rest := by
  constructor
  · intro begins
    rcases List.prefix_or_prefix_of_prefix begins (List.prefix_append kept rest) with inside | ⟨way, eq⟩
    · exact .inl inside
    · exact .inr ⟨way, eq.symm, (List.prefix_append_right_inj kept).mp (eq ▸ begins)⟩
  · rintro (inside | ⟨way, rfl, begins⟩)
    · exact inside.trans (List.prefix_append kept rest)
    · exact (List.prefix_append_right_inj kept).mpr begins

end Macify.Lib
