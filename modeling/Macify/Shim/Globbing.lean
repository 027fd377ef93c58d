import Macify.Lib.Bytes
import Macify.Lib.BitSets

/-!
# Globbing

`glob` and `globfree` of the shim (`shim/io/glob.c`) stand between a guest and the C library, whose `glob_t` has
another layout; only the offset and the flags come from the guest's. Main result: `glob_accumulates_iff`. The vector
of a structure is given by its entries.
-/

namespace Macify.Shim.Globbing
open Lib

structure GlobT (P : Type*) where
  pathc : ℕ
  pathv : Option (List (Option P))
  offs : ℕ
  flags : W32

section Library

variable {P : Type*}

abbrev GLOB_DOOFFS : W32 := 0x08
abbrev GLOB_APPEND : W32 := 0x20

/-- For a pattern with the matches `found`. With `GLOB_APPEND` the vector in the structure is extended. -/
def libGlob (flags : W32) (found : List P) (g : GlobT P) : GlobT P :=
  let offs := if flags &&& GLOB_DOOFFS != 0 then g.offs else 0
  let start : GlobT P :=
    if flags &&& GLOB_APPEND != 0 then { g with offs := offs }
    else
      let front := if flags &&& GLOB_DOOFFS != 0 then some (List.replicate offs none) else none
      { g with pathc := 0, pathv := front, offs := offs }
  match found with
  | [] => start
  | p :: ps =>
    { pathc := start.pathc + (p :: ps).length
      pathv := some (start.pathv.getD (List.replicate offs none) ++ (p :: ps).map some)
      offs := offs
      flags := flags }

def libGlobfree (g : GlobT P) : List P :=
  (((g.pathv.getD []).drop g.offs).take g.pathc).filterMap id

end Library

section Shim

variable {P : Type*}

abbrev MACOS_GLOB_DOOFFS : W32 := 0x0002

def flagPairs : List (W32 × W32) :=
  [(0x0001, GLOB_APPEND), (MACOS_GLOB_DOOFFS, GLOB_DOOFFS), (0x0004, 0x01), (0x0008, 0x02), (0x0010, 0x10),
    (0x0020, 0x04), (0x0040, 0x40), (0x0080, 0x80), (0x0800, 0x1000), (0x4000, 0x4000)]

def linuxFlags (flags : W32) : W32 :=
  flagPairs.foldl (fun acc p => if flags &&& p.1 != 0 then acc ||| p.2 else acc) 0

structure Call (P : Type*) where
  flags : W32
  found : List P

def macifyGlob (macos : GlobT P) (c : Call P) : GlobT P :=
  let linux := libGlob (linuxFlags c.flags) c.found ⟨0, none, macos.offs, macos.flags⟩
  { macos with pathc := linux.pathc, pathv := linux.pathv, flags := linux.flags }

def macifyGlobfree (macos : GlobT P) : List P × GlobT P :=
  match macos.pathv with
  | none => ([], macos)
  | some v => (libGlobfree ⟨macos.pathc, some v, 0, macos.flags⟩, { macos with pathc := 0, pathv := none })

def globAll (macos : GlobT P) (calls : List (Call P)) : GlobT P := calls.foldl macifyGlob macos

def Call.offset (c : Call P) (macos : GlobT P) : ℕ := if c.flags &&& MACOS_GLOB_DOOFFS != 0 then macos.offs else 0

/-- The structure holds the results of the calls from an offset on, counts them, and `globfree` releases them. -/
def Accumulated (macos : GlobT P) (offset : ℕ) (calls : List (Call P)) : Prop :=
  (macos.pathv.getD []).drop offset = (calls.flatMap Call.found).map some ∧
    macos.pathc = (calls.flatMap Call.found).length ∧
    (macifyGlobfree macos).1 = calls.flatMap Call.found

end Shim

section Calls

variable {P : Type*} {macos : GlobT P} {c : Call P} {calls : List (Call P)}

lemma linuxFlags_dooffs {flags : W32} :
    (linuxFlags flags &&& GLOB_DOOFFS != 0) = (flags &&& MACOS_GLOB_DOOFFS != 0) := by
  have bit := @and_single_ne_zero 32 (linuxFlags flags) 3 (by decide)
  have mask : (1 : W32) <<< 3 = GLOB_DOOFFS := by decide
  rw [mask, linuxFlags, getLsbD_union] at bit
  rw [linuxFlags, bit]
  simp [flagPairs]

lemma offs_globAll : (globAll macos calls).offs = macos.offs := by
  induction calls generalizing macos with
  | nil => rfl
  | cons c calls ih => exact ih

lemma macifyGlob_nothing (nothing : c.found = []) :
    (macifyGlob macos c).pathc = 0 ∧ ((macifyGlob macos c).pathv.getD []).drop (c.offset macos) = [] ∧
      (macifyGlobfree (macifyGlob macos c)).1 = [] := by
  have count : (macifyGlob macos c).pathc = 0 := by
    simp only [macifyGlob, libGlob, nothing]
    split <;> rfl
  have vector : ((macifyGlob macos c).pathv.getD []).drop (c.offset macos) = [] := by
    simp only [macifyGlob, libGlob, nothing, Call.offset, linuxFlags_dooffs]
    split
    · split
      · exact List.drop_nil
      · exact List.drop_of_length_le (by simp)
    · split <;> rfl
  refine ⟨count, vector, ?_⟩
  rw [macifyGlobfree]
  split
  · rfl
  · simp [libGlobfree, count]

lemma macifyGlob_found (something : c.found ≠ []) :
    (macifyGlob macos c).pathc = c.found.length ∧
      (macifyGlob macos c).pathv = some (List.replicate (c.offset macos) none ++ c.found.map some) := by
  obtain ⟨p, ps, found⟩ := List.exists_cons_of_ne_nil something
  simp only [macifyGlob, libGlob, found, Call.offset, linuxFlags_dooffs]
  split
  · exact ⟨Nat.zero_add _, rfl⟩
  · refine ⟨Nat.zero_add _, ?_⟩
    split <;> rfl

lemma globfree_found (something : c.found ≠ []) :
    (macifyGlobfree (macifyGlob macos c)).1 = c.found.take (c.found.length - c.offset macos) := by
  obtain ⟨count, vector⟩ := @macifyGlob_found P macos c something
  rw [macifyGlobfree, vector]
  simp only [libGlobfree, Option.getD_some, List.drop_zero, count]
  rw [List.take_append, List.filterMap_append, List.take_replicate, List.length_replicate, ← List.map_take]
  simp

lemma globAll_concat : globAll macos (calls ++ [c]) = macifyGlob (globAll macos calls) c := by
  rw [globAll, List.foldl_append]
  rfl

lemma accumulated_last_iff {earlier : List P} :
    ((macifyGlob macos c).pathv.getD []).drop (c.offset macos) = (earlier ++ c.found).map some ∧
        (macifyGlob macos c).pathc = (earlier ++ c.found).length ∧
        (macifyGlobfree (macifyGlob macos c)).1 = earlier ++ c.found ↔
      earlier = [] ∧ (c.found = [] ∨ c.offset macos = 0) := by
  by_cases nothing : c.found = []
  · obtain ⟨count, vector, released⟩ := @macifyGlob_nothing P macos c nothing
    rw [count, vector, released, nothing, List.append_nil]
    constructor
    · rintro ⟨-, -, none⟩
      exact ⟨none.symm, .inl rfl⟩
    · rintro ⟨rfl, -⟩
      exact ⟨rfl, rfl, rfl⟩
  · obtain ⟨count, vector⟩ := @macifyGlob_found P macos c nothing
    have rest : (List.replicate (c.offset macos) none ++ c.found.map some).drop (c.offset macos) =
        c.found.map some := List.drop_left' (List.length_replicate ..)
    rw [count, globfree_found nothing, vector, Option.getD_some, rest, List.length_append]
    constructor
    · rintro ⟨-, total, released⟩
      have none : earlier = [] := List.length_eq_zero_iff.mp (by omega)
      have size := congrArg List.length released
      have pos := List.length_pos_of_ne_nil nothing
      rw [none, List.nil_append, List.length_take] at size
      exact ⟨none, .inr (by omega)⟩
    · rintro ⟨rfl, zero⟩
      have zero := zero.resolve_left nothing
      refine ⟨rfl, (Nat.zero_add _).symm, ?_⟩
      rw [zero, Nat.sub_zero, List.take_length]
      rfl

end Calls

/-- All results are counted and released exactly when all calls but the last have found nothing, and the last has
    found nothing or has no offset before its results. -/
theorem glob_accumulates_iff {P : Type*} (macos : GlobT P) (earlier : List (Call P)) (last : Call P) :
    Accumulated (globAll macos (earlier ++ [last])) (last.offset macos) (earlier ++ [last]) ↔
      (∀ c ∈ earlier, c.found = []) ∧ (last.found = [] ∨ last.offset macos = 0) := by
  have place : last.offset (globAll macos earlier) = last.offset macos := by
    rw [Call.offset, Call.offset, offs_globAll]
  have results : (earlier ++ [last]).flatMap Call.found = earlier.flatMap Call.found ++ last.found := by
    rw [List.flatMap_append, List.flatMap_singleton]
  rw [Accumulated, globAll_concat, results, ← place, accumulated_last_iff, List.flatMap_eq_nil_iff]

/-- A call that finds one path, and a second one with `GLOB_APPEND` that finds another. -/
theorem glob_loses_first :
    (globAll ⟨0, none, 0, 0⟩ [⟨0, [1]⟩, ⟨0x0001, [2]⟩]).pathv = some [some 2] ∧
      ¬Accumulated (globAll ⟨0, none, 0, 0⟩ [⟨0, [1]⟩, ⟨0x0001, [2]⟩]) 0 [⟨0, [1]⟩, ⟨0x0001, [2]⟩] := by
  refine ⟨rfl, fun all => ?_⟩
  exact absurd all.2.1 (by decide)

end Macify.Shim.Globbing
