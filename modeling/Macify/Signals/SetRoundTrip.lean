import Macify.Signals.MaskAgreement

/-!
# Signal sets there and back

`macos_to_linux_sigset` and `linux_to_macos_sigset` (`shim/signal/sigmask.c`) one after the other. Both
renumber the signals of a set one by one; the second by the table that the first one's table fills
backwards, and by a number itself where that has no entry.
-/

namespace Macify.Signals
open Lib Syscall

def macosSigbit (sig : ℕ) : W32 := (1 : W32) <<< (sig - 1)

def HasEquivalent (sig : ℕ) : Prop := sig ∈ signals ∧ sig ≠ 7 ∧ sig ≠ 29

instance (sig : ℕ) : Decidable (HasEquivalent sig) := inferInstanceAs (Decidable (_ ∧ _))

section RoundTrip

variable {set : W32} {k : ℕ}

lemma getLsbD_thereAndBack :
    (linuxToMacosSigset (macosToLinuxSigset set)).getLsbD k = signals.any fun ms =>
      set.getLsbD (ms - 1) &&
        (shimSources k).any fun ls => decide ((macosSigToLinux (BitVec.ofNat 32 ms)).toNat = ls - 1 + 1) := by
  rw [shimOldset_bit, macosToLinuxSigset, Bool.eq_iff_iff]
  simp only [getLsbD_shimMask, List.any_eq_true, Bool.and_eq_true]
  constructor
  · rintro ⟨ls, source, ms, signal, member, sent⟩
    exact ⟨ms, signal, member, ls, source, sent⟩
  · rintro ⟨ms, signal, member, ls, source, sent⟩
    exact ⟨ls, source, ms, signal, member, sent⟩

lemma sent_to_source : ∀ k < 32, ∀ ms ∈ signals,
    (shimSources k).any (fun ls => decide ((macosSigToLinux (BitVec.ofNat 32 ms)).toNat = ls - 1 + 1)) =
      decide (ms = k + 1 ∧ HasEquivalent ms) := by
  decide +kernel

lemma getLsbD_back (lt : k < 32) :
    (linuxToMacosSigset (macosToLinuxSigset set)).getLsbD k =
      (set.getLsbD k && decide (HasEquivalent (k + 1))) := by
  have alone : (signals.any fun ms => set.getLsbD (ms - 1) &&
      (shimSources k).any fun ls => decide ((macosSigToLinux (BitVec.ofNat 32 ms)).toNat = ls - 1 + 1)) =
      signals.any fun ms => set.getLsbD (ms - 1) && decide (ms = k + 1 ∧ HasEquivalent ms) :=
    any_congr_mem fun ms signal => by rw [sent_to_source k lt ms signal]
  rw [getLsbD_thereAndBack, alone, Bool.eq_iff_iff]
  simp only [List.any_eq_true, Bool.and_eq_true, decide_eq_true_iff]
  constructor
  · rintro ⟨ms, signal, member, rfl, known⟩
    exact ⟨member, known⟩
  · rintro ⟨member, known⟩
    exact ⟨k + 1, known.1, member, rfl, known⟩

lemma macosSigToLinux_ne : ∀ a ∈ signals, ∀ b ∈ signals, HasEquivalent a → HasEquivalent b → a ≠ b →
    macosSigToLinux (BitVec.ofNat 32 a) ≠ macosSigToLinux (BitVec.ofNat 32 b) := by
  decide +kernel

lemma macosSigToLinux_pos : ∀ a ∈ signals, HasEquivalent a →
    0 < (macosSigToLinux (BitVec.ofNat 32 a)).toNat := by
  decide +kernel

lemma equivalent_mem {a : ℕ} (known : HasEquivalent a) (member : set.getLsbD (a - 1) = true) :
    (macosToLinuxSigset set).getLsbD ((macosSigToLinux (BitVec.ofNat 32 a)).toNat - 1) = true := by
  have pos := macosSigToLinux_pos a known.1 known
  rw [macosToLinuxSigset, getLsbD_shimMask, List.any_eq_true]
  refine ⟨a, known.1, ?_⟩
  rw [member, Bool.true_and]
  exact decide_eq_true (by omega)

end RoundTrip

/-- For every set of the 31 signals: only the two without an equivalent are lost, and no two of the others
    become one. -/
theorem sigset_round_trip (m : BitVec 31) :
    linuxToMacosSigset (macosToLinuxSigset (m.setWidth 32)) =
        m.setWidth 32 &&& ~~~(macosSigbit 7 ||| macosSigbit 29) ∧
      ∀ a b, HasEquivalent a → HasEquivalent b → m.getLsbD (a - 1) = true → m.getLsbD (b - 1) = true →
        a ≠ b →
        let image (sig : ℕ) := (macosSigToLinux (BitVec.ofNat 32 sig)).toNat
        image a ≠ image b ∧ (macosToLinuxSigset (m.setWidth 32)).getLsbD (image a - 1) = true ∧
          (macosToLinuxSigset (m.setWidth 32)).getLsbD (image b - 1) = true := by
  constructor
  · refine bits_iff.mpr fun k lt => ?_
    have kept : ∀ k < 31, (~~~(macosSigbit 7 ||| macosSigbit 29)).getLsbD k =
        decide (HasEquivalent (k + 1)) := by decide +kernel
    rw [getLsbD_back lt, BitVec.getLsbD_and]
    rcases Nat.lt_or_ge k 31 with inside | last
    · rw [kept k inside]
    · have outside : (m.setWidth 32).getLsbD k = false := by
        rw [BitVec.getLsbD_setWidth, BitVec.getLsbD_of_ge m k last, Bool.and_false]
      rw [outside, Bool.false_and, Bool.false_and]
  · intro a b knownA knownB memberA memberB ne
    have widen {k : ℕ} (member : m.getLsbD k = true) : (m.setWidth 32).getLsbD k = true := by
      rw [BitVec.getLsbD_setWidth, member, Bool.and_true]
      exact decide_eq_true (by have := BitVec.lt_of_getLsbD member; omega)
    refine ⟨fun same => ?_, equivalent_mem knownA (widen memberA), equivalent_mem knownB (widen memberB)⟩
    exact macosSigToLinux_ne a knownA.1 b knownB.1 knownA knownB ne (BitVec.eq_of_toNat_eq same)

end Macify.Signals
