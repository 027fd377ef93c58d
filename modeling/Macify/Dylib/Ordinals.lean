import Macify.Dylib.Deferred
import Macify.Fixups.ChainedFixups

/-!
# Library ordinals of the main image

A load command of a dylib is given the entry of `g_dylibs` at `g_ndylibs` (`src/main.c`). The shim has been opened
before the walk and has the first entry, while both interpreters (`src/fixups.c`) ask `resolve_symbol` for the entry
at the ordinal minus one. Main result: `library_ordinals_iff`.
-/

namespace Macify.Dylib
open Lib Image Fixups

def MainEnv.registered (m : MainEnv) (fuel : ℕ) (rpaths : List Buf) : List Command → MainWalk → List ℕ
  | [], _ => []
  | c :: cs, w =>
    match m.onCommand fuel rpaths w c with
    | .error _ => []
    | .ok w' => c.name?.elim [] (fun _ => [w.ndylibs]) ++ m.registered fuel rpaths cs w'

def LooksUp (k slot : ℕ) : Prop :=
  (∀ (env : BindEnv) (st : BindState), st.ordinal = k →
    lookup env st = env.resolve slot (stripUnderscore st.symbolName)) ∧
  ∀ (env : BindEnv) (blob : Buf) (i : ℕ), libOrdinal (importAt blob i) = k →
    resolveImport env blob i = env.resolve slot (stripUnderscore (symbolAt blob (nameOffset (importAt blob i))))

def OrdinalsRight (m : MainEnv) (fuel : ℕ) (commands : List Command) (w : MainWalk) : Prop :=
  ∀ k slot, (m.registered fuel (m.rpaths commands) commands w)[k]? = some slot → LooksUp (k + 1) slot

section Lemmas

variable {m : MainEnv} {fuel : ℕ} {rps : List Buf} {cs : List Command} {c : Command} {w w' : MainWalk}
  {name : Buf} {resolved : Option Buf} {k slot : ℕ}

lemma looksUp_iff (pos : 0 < k) (small : k < 0xFB) : LooksUp k slot ↔ slot + 1 = k := by
  constructor
  · rintro ⟨binds, -⟩
    let env : BindEnv := ⟨[], 0, fun i _ => if i = slot then 1 else 0, 0⟩
    have asked : (if (k : ℤ) - 1 = slot then 1 else 0 : W64) = if (slot : ℤ) = slot then 1 else 0 :=
      binds env { BindState.start with ordinal := k } rfl
    rw [if_pos rfl] at asked
    by_contra other
    rw [if_neg (by omega)] at asked
    exact absurd asked (by decide)
  · rintro rfl
    have index : ((slot + 1 : ℕ) : ℤ) - 1 = slot := by omega
    refine ⟨fun env st ordinal => ?_, fun env blob i ordinal => ?_⟩
    · rw [lookup, ordinal, index]
    · have named : isFlat (slot + 1) = false := by
        rw [isFlat, decide_eq_false (by omega), Bool.or_false, beq_eq_false_iff_ne]
        omega
      dsimp only [resolveImport]
      rw [ordinal, named, if_neg Bool.false_ne_true, index]

lemma takeDylib_ndylibs (taken : m.takeDylib fuel w resolved name = .ok w') : w'.ndylibs = w.ndylibs := by
  unfold MainEnv.takeDylib at taken
  split at taken
  · split at taken
    · cases taken
    · cases taken
      rfl
  · split at taken <;>
    · cases taken
      rfl

lemma onCommand_ndylibs (step : m.onCommand fuel rps w c = .ok w') :
    (c.name? = none ∧ w'.ndylibs = w.ndylibs) ∨
      (c.name?.isSome ∧ w.ndylibs < maxDylibs ∧ w'.ndylibs = w.ndylibs + 1) := by
  cases c with
  | rpath path =>
    cases step
    exact .inl ⟨rfl, rfl⟩
  | refused => cases step
  | other =>
    cases step
    exact .inl ⟨rfl, rfl⟩
  | loadDylib name =>
    dsimp only [MainEnv.onCommand, MainEnv.onDylib] at step
    by_cases full : maxDylibs ≤ w.ndylibs
    · rw [if_pos full] at step
      cases step
    · rw [if_neg full] at step
      generalize (if w.ndylibs = 0 then m.reopened else w.first) = handles at step
      cases taken : m.takeDylib fuel w (m.resolve rps name) ((m.resolve rps name).getD name) with
      | error stop =>
        rw [taken] at step
        cases step
      | ok w₁ =>
        rw [taken] at step
        dsimp only at step
        split at step
        · cases step
          exact .inr ⟨rfl, Nat.lt_of_not_le full, congrArg (· + 1) (takeDylib_ndylibs taken)⟩
        · cases step

lemma registered_get (found : (m.registered fuel rps cs w)[k]? = some slot) :
    slot = w.ndylibs + k ∧ slot < maxDylibs := by
  induction cs generalizing w k with
  | nil => cases found
  | cons c cs ih =>
    rw [MainEnv.registered] at found
    cases step : m.onCommand fuel rps w c with
    | error stop =>
      rw [step] at found
      cases found
    | ok w' =>
      rw [step] at found
      dsimp only at found
      rcases onCommand_ndylibs step with ⟨no, same⟩ | ⟨some, room, more⟩
      · rw [no, Option.elim_none, List.nil_append] at found
        exact same ▸ ih found
      · obtain ⟨name, named⟩ := Option.isSome_iff_exists.mp some
        rw [named, Option.elim_some, List.singleton_append] at found
        cases k with
        | zero =>
          obtain rfl := Option.some.inj found
          exact ⟨rfl, room⟩
        | succ k =>
          have later := ih found
          omega

end Lemmas

/-- The ordinals are right just if the shim could not be opened before the walk, or no command was given an entry. -/
theorem library_ordinals_iff (m : MainEnv) (fuel : ℕ) (commands : List Command) (opened : Handles)
    (registry : Loader) :
    OrdinalsRight m fuel commands (.start opened registry) ↔
      opened.shim = false ∨ m.registered fuel (m.rpaths commands) commands (.start opened registry) = [] := by
  have right_iff : ∀ k slot, (m.registered fuel (m.rpaths commands) commands (.start opened registry))[k]? = some slot →
      (LooksUp (k + 1) slot ↔ opened.shim = false) := by
    intro k slot found
    obtain ⟨eq, room⟩ := registered_get found
    have first : (MainWalk.start opened registry).ndylibs = if opened.shim then 1 else 0 := rfl
    rw [first] at eq
    unfold maxDylibs at room
    cases shim : opened.shim with
    | false =>
      rw [shim, if_neg Bool.false_ne_true] at eq
      exact iff_of_true ((looksUp_iff (by omega) (by omega)).mpr (by omega)) rfl
    | true =>
      rw [shim, if_pos rfl] at eq
      refine iff_of_false (fun up => ?_) Bool.noConfusion
      have same := (looksUp_iff (by omega) (by omega)).mp up
      omega
  constructor
  · intro right
    rw [or_iff_not_imp_right]
    intro some
    have found := List.getElem?_eq_getElem (List.length_pos_iff.mpr some)
    exact (right_iff _ _ found).mp (right _ _ found)
  · rintro (closed | none) k slot found
    · exact (right_iff k slot found).mpr closed
    · rw [none] at found
      cases found

/-- The first dylib is given the entry behind that of the shim, and its imports are looked up in the shim. -/
theorem first_ordinal_is_shim :
    (∃ w, nineEnv.walkFrom 1 [] [letterCommand 0x61] (.start ⟨true, true⟩ .init) = .ok w ∧ w.ndylibs = 2) ∧
      nineEnv.registered 1 [] [letterCommand 0x61] (.start ⟨true, true⟩ .init) = [1] ∧
      LooksUp 1 0 ∧ ¬OrdinalsRight nineEnv 1 [letterCommand 0x61] (.start ⟨true, true⟩ .init) := by
  refine ⟨⟨_, rfl, rfl⟩, rfl, (looksUp_iff (by decide) (by decide)).mpr rfl, fun right => ?_⟩
  exact absurd ((looksUp_iff (by decide) (by decide)).mp (right 0 1 rfl)) (by decide)

end Macify.Dylib
