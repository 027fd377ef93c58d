import Macify.Lib.Bytes

/-!
# Byte-code interpreters

An interpreter reads an opcode byte, may read operands from what follows, and goes on with the rest or stops with a
return code; `interpret step stream s` runs it to the end. `runSteps_invariant` is the invariant rule.
`interpret_simulation` compares two interpreters of which the second may stop before the first, and
`interpret_lockstep` two that do the same until the first refuses what the second lets pass.
-/

namespace Macify.Lib

inductive Step (σ : Type*) where
  | more (rest : Buf) (s : σ)
  | stop (ok : Bool) (s : σ)

def Step.state {σ} : Step σ → σ
  | .more _ s => s
  | .stop _ s => s

def runSteps {σ} (step : σ → UInt8 → Buf → Step σ) : ℕ → Buf → σ → Bool × σ
  | _, [], s => (true, s)
  | 0, _ :: _, s => (false, s)
  | fuel + 1, b :: rest, s =>
    match step s b rest with
    | .more rest' s' => runSteps step fuel rest' s'
    | .stop ok s' => (ok, s')

/-- Run to the end of the stream: `true` is a return code of zero. -/
def interpret {σ} (step : σ → UInt8 → Buf → Step σ) (stream : Buf) (s : σ) : Bool × σ :=
  runSteps step stream.length stream s

def Shrinks {σ} (step : σ → UInt8 → Buf → Step σ) : Prop :=
  ∀ s b rest rest' s', step s b rest = .more rest' s' → rest'.length ≤ rest.length

section Fuel

variable {σ : Type*} {step : σ → UInt8 → Buf → Step σ}

@[simp] lemma runSteps_nil {fuel : ℕ} {s : σ} : runSteps step fuel [] s = (true, s) := by
  cases fuel <;> rfl

lemma runSteps_eq (shrinks : Shrinks step) {fuel fuel' stream s} (enough : stream.length ≤ fuel)
    (enough' : stream.length ≤ fuel') :
    runSteps step fuel stream s = runSteps step fuel' stream s := by
  induction fuel generalizing fuel' stream s with
  | zero =>
    cases stream with
    | nil => cases fuel' <;> rfl
    | cons b rest => exact absurd enough (by simp)
  | succ fuel ih =>
    cases stream with
    | nil => cases fuel' <;> rfl
    | cons b rest =>
      rw [List.length_cons] at enough enough'
      obtain ⟨fuel', rfl⟩ : ∃ k, fuel' = k + 1 := ⟨fuel' - 1, by omega⟩
      rw [runSteps, runSteps]
      cases taken : step s b rest with
      | stop ok s' => rfl
      | more rest' s' =>
        have le := shrinks s b rest rest' s' taken
        exact ih (by omega) (by omega)

lemma interpret_more (shrinks : Shrinks step) {s s' : σ} {b : UInt8} {rest rest' : Buf}
    (taken : step s b rest = .more rest' s') : interpret step (b :: rest) s = interpret step rest' s' := by
  rw [interpret, List.length_cons, runSteps, taken]
  exact runSteps_eq shrinks (shrinks s b rest rest' s' taken) le_rfl

end Fuel

lemma runSteps_invariant {σ} {step : σ → UInt8 → Buf → Step σ} (P : σ → Prop)
    (keep : ∀ s b rest, P s → P (step s b rest).state) {fuel stream s r} (init : P s)
    (run : runSteps step fuel stream s = r) : P r.2 := by
  subst run
  induction fuel generalizing stream s with
  | zero =>
    cases stream with
    | nil | cons b rest => exact init
  | succ fuel ih =>
    cases stream with
    | nil => exact init
    | cons b rest =>
      have next := keep s b rest init
      rw [runSteps]
      cases taken : step s b rest with
      | stop ok s' =>
        rw [taken] at next
        exact next
      | more rest' s' =>
        rw [taken] at next
        exact ih next

/-- Both go on (`R`), the second returns and the first goes on alone (`S`), or both return (`F`). Nothing is
    asked if the first fails or leaves `G`. -/
inductive Matches {σ τ} (G : σ → Prop) (R S : σ → τ → Prop) (F : σ → Bool × τ → Prop) : Step σ → Step τ → Prop where
  | both {rest s t} : R s t → Matches G R S F (.more rest s) (.more rest t)
  | alone {rest s ok t} : S s t → Matches G R S F (.more rest s) (.stop ok t)
  | done {s ok t} : F s (ok, t) → Matches G R S F (.stop true s) (.stop ok t)
  | failed {s o} : Matches G R S F (.stop false s) o
  | lost {rest s o} : ¬G s → Matches G R S F (.more rest s) o

/-- If the opcodes match, and the first keeps `S` when it is alone, then a run of the first that returns
    zero in `G` ends in `F` with the run of the second. -/
lemma interpret_simulation {σ τ} {step₁ : σ → UInt8 → Buf → Step σ}
    {step₂ : τ → UInt8 → Buf → Step τ} (G : σ → Prop) (R S : σ → τ → Prop) (F : σ → Bool × τ → Prop)
    (sim : ∀ s t b rest, R s t → Matches G R S F (step₁ s b rest) (step₂ t b rest))
    (back : ∀ s b rest, G (step₁ s b rest).state → G s)
    (keep : ∀ s t b rest, S s t → S (step₁ s b rest).state t)
    (both : ∀ s t, R s t → F s (true, t)) (alone : ∀ s t ok, S s t → F s (ok, t)) {stream s t s'}
    (init : R s t) (run : interpret step₁ stream s = (true, s')) (good : G s') :
    F s' (interpret step₂ stream t) := by
  suffices h : ∀ fuel stream s t, R s t → runSteps step₁ fuel stream s = (true, s') →
      F s' (runSteps step₂ fuel stream t) from h _ _ _ _ init run
  intro fuel
  induction fuel with
  | zero =>
    intro stream s t rel run
    cases stream with
    | nil => cases run; exact both _ _ rel
    | cons b rest => cases run
  | succ fuel ih =>
    intro stream s t rel run
    cases stream with
    | nil => cases run; exact both _ _ rel
    | cons b rest =>
      have m := sim s t b rest rel
      rw [runSteps] at run ⊢
      generalize step₁ s b rest = o₁ at m run
      generalize step₂ t b rest = o₂ at m ⊢
      cases m with
      | both rel => exact ih _ _ _ rel run
      | alone rel =>
        -- the first interpreter is alone from here on, so the state of the second is fixed
        exact alone _ _ _ (runSteps_invariant (S · _) (fun s b rest => keep s _ b rest) rel run)
      | done rel => cases run; exact rel
      | failed => cases run
      | lost bad =>
        exact absurd good (runSteps_invariant (¬G ·) (fun s b rest => mt (back s b rest)) bad run)

/-- The outcomes of one opcode in two interpreters that do the same, unless the first fails on what the
    second marks as bad. -/
inductive Paired {σ τ} (R : σ → τ → Prop) (Bad : τ → Prop) : Step σ → Step τ → Prop where
  | more {rest s t} : R s t → Paired R Bad (.more rest s) (.more rest t)
  | stop {ok s t} : R s t → Paired R Bad (.stop ok s) (.stop ok t)
  | refused {s rest t} : Bad t → Paired R Bad (.stop false s) (.more rest t)

/-- Two interpreters on one stream end alike, or the first fails and the second has met something bad. -/
lemma interpret_lockstep {σ τ} {step₁ : σ → UInt8 → Buf → Step σ} {step₂ : τ → UInt8 → Buf → Step τ}
    (R : σ → τ → Prop) (Bad : τ → Prop)
    (sim : ∀ s t b rest, R s t → Paired R Bad (step₁ s b rest) (step₂ t b rest))
    (keep : ∀ t b rest, Bad t → Bad (step₂ t b rest).state) {stream s t} (init : R s t) :
    ((interpret step₁ stream s).1 = (interpret step₂ stream t).1 ∧
        R (interpret step₁ stream s).2 (interpret step₂ stream t).2) ∨
      ((interpret step₁ stream s).1 = false ∧ Bad (interpret step₂ stream t).2) := by
  unfold interpret
  generalize stream.length = fuel
  induction fuel generalizing stream s t with
  | zero =>
    cases stream with
    | nil | cons b rest => exact .inl ⟨rfl, init⟩
  | succ fuel ih =>
    cases stream with
    | nil => exact .inl ⟨rfl, init⟩
    | cons b rest =>
      have pair := sim s t b rest init
      rw [runSteps, runSteps]
      generalize step₁ s b rest = o₁ at pair
      generalize step₂ t b rest = o₂ at pair
      cases pair with
      | more rel => exact ih rel
      | stop rel => exact .inl ⟨rfl, rel⟩
      | refused bad => exact .inr ⟨rfl, runSteps_invariant Bad keep bad rfl⟩

end Macify.Lib
