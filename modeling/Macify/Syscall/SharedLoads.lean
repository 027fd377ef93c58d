import Macify.Syscall.MacosSites
import Macify.Syscall.PatchFrame

/-!
# Syscalls that share a load

The scanner handles the syscalls of a range from left to right. The fast path rewrites the `mov` that a syscall
recognises, and a later syscall that recognises the same `mov` no longer finds it. Main result: `shared_load_iff`.
-/

namespace Macify.Syscall
open Lib Image

/-- The `mov` at `m` is the closest one that ends at most 32 bytes before the syscall at `i`. -/
structure Recognised (b : Buf) (i m : ℕ) : Prop where
  after : m + 5 ≤ i
  near : i ≤ m + 32
  mov : isMov b m = true
  closest : ∀ j, m < j → j + 5 ≤ i → isMov b j = false

def MovKept (b c : Buf) (m : ℕ) : Prop := ∀ k < 5, byte c (m + k) = byte b (m + k)

def HoldsLinux (b c : Buf) (m : ℕ) : Prop :=
  byte c m = 0xB8 ∧ byte c (m + 1) = UInt8.ofNat (linuxAt b m % 256) ∧
    byte c (m + 2) = UInt8.ofNat (linuxAt b m / 256 % 256) ∧ byte c (m + 3) = 0 ∧ byte c (m + 4) = 0

/-- The number at `m` is the one that the instruction at `i` takes: the macOS number for `ud2`, the Linux number for
    `syscall`. -/
def Consistent (b c : Buf) (i m : ℕ) : Prop :=
  MovKept b c m ∧ byte c i = 0x0F ∧ byte c (i + 1) = 0x0B ∨ HoldsLinux b c m ∧ isSyscall c i = true

/-- Another syscall of the range comes between the `mov` at `m` and the syscall at `i`. -/
def Shared (start : ℕ) (b : Buf) (i m : ℕ) : Prop :=
  ∃ j, start ≤ j ∧ m + 5 ≤ j ∧ j < i ∧ isSyscall b j = true

section Loads

variable {noFast : Bool} {start i m : ℕ} {b c : Buf}

lemma rewritten_mono {i'} (le : i ≤ i') (used : rewritten noFast start b i m = true) :
    rewritten noFast start b i' m = true := by
  induction le with
  | refl => exact used
  | step _ ih => exact rewritten_succ.mpr (.inl ih)

lemma Recognised.liveMov {j} (rec : Recognised b i m) (after : m + 5 ≤ j) (le : j ≤ i)
    (live : rewritten noFast start b j m = false) : liveMov noFast start b j = some m := by
  have near := rec.near
  refine searchDown_eq_some.mpr ⟨?_, by omega, ?_, fun k gt lek => ?_⟩
  · rw [backwardScanBytes]
    omega
  · rw [rec.mov, live, decide_eq_true (by omega)]
    rfl
  · rw [rec.closest k gt (by omega), Bool.and_false, Bool.false_and]

lemma Recognised.rewritten_iff (rec : Recognised b i m) (fast : fastAt noFast b m = true) :
    rewritten noFast start b i m = true ↔ Shared start b i m := by
  constructor
  · intro used
    obtain ⟨j, lt, site⟩ := exists_fastSite used
    obtain ⟨ge, sys, found, _⟩ := fastSite_some.mp site
    have before := (liveMov_some found).1
    exact ⟨j, ge, by omega, lt, sys⟩
  · rintro ⟨j, ge, after, lt, sys⟩
    cases live : rewritten noFast start b j m with
    | true => exact rewritten_mono (by omega) live
    | false =>
      have found := rec.liveMov after (by omega) live
      have used := rewritten_succ.mpr (.inr (fastSite_some.mpr ⟨ge, sys, found, fast⟩))
      exact rewritten_mono lt used

/-- Of the bytes of a `mov`, only the high byte of the number can be the second byte of a syscall. -/
lemma mov_syscall {s k} (mov : isMov b m = true) (sys : isSyscall b s = true) (lt : k < 5)
    (at_k : m + k = s + 1) : s = m + 1 := by
  obtain ⟨op, b3, b4, _⟩ := isMov_iff.mp mov
  obtain ⟨first, second⟩ := isSyscall_iff.mp sys
  rw [← at_k] at second
  obtain rfl | rfl | rfl | rfl | rfl : k = 0 ∨ k = 1 ∨ k = 2 ∨ k = 3 ∨ k = 4 := by omega
  · rw [Nat.add_zero, op] at second; cases second
  · obtain rfl : m = s := by omega
    rw [op] at first; cases first
  · omega
  · rw [b3] at second; cases second
  · rw [b4] at second; cases second

lemma Patched.movKept_iff (pt : Patched noFast start b i c) (mov : isMov b m = true)
    (live : rewritten noFast start b i m = false) (before : m + 1 < i) :
    MovKept b c m ↔ slowSite noFast start b (m + 1) = false := by
  constructor
  · intro kept
    refine Bool.eq_false_iff.mpr fun slow => ?_
    have old := (isSyscall_iff.mp (slowSite_syscall slow).2).2
    have new := pt.slow (m + 1) before slow
    rw [kept 2 (by decide), old] at new
    cases new
  · intro fast k lt
    refine pt.rest (m + k) (fun s _ slow e => ?_) fun m' used => ?_
    · rw [← mov_syscall mov (slowSite_syscall slow).2 lt e, slow] at fast
      cases fast
    · have ne : m ≠ m' := by
        rintro rfl
        rw [live] at used
        cases used
      obtain ⟨op, b3, b4, -⟩ := isMov_iff.mp mov
      have far := (rewritten_fastLoad used).disjoint op b3 b4 ne
      omega

lemma Patched.holdsLinux (pt : Patched noFast start b i c) (used : rewritten noFast start b i m = true) :
    HoldsLinux b c m :=
  ⟨(pt.overlay.opcode m).mpr (rewritten_fastLoad used).op, pt.imm m used⟩

lemma not_holdsLinux_of_movKept (mov : isMov b m = true) (kept : MovKept b c m) : ¬ HoldsLinux b c m := by
  rintro ⟨-, -, -, -, zero⟩
  rw [kept 4 (by decide), (isMov_iff.mp mov).2.2.1] at zero
  cases zero

lemma not_syscall_of_ud2 (new : byte c (i + 1) = 0x0B) : isSyscall c i = false := by
  refine Bool.eq_false_iff.mpr fun sys => ?_
  rw [(isSyscall_iff.mp sys).2] at new
  cases new

lemma Patched.consistent_slow {stop} (pt : Patched noFast start b stop c) (rec : Recognised b i m)
    (ge : start ≤ i) (lt : i < stop) (sys : isSyscall b i = true) (slow : fastAt noFast b m = false) :
    Consistent b c i m ↔ slowSite noFast start b (m + 1) = false := by
  have live : ∀ j, rewritten noFast start b j m = false := fun j =>
    Bool.eq_false_iff.mpr fun used => Bool.false_ne_true (slow.symm.trans (rewritten_mov used).2.1)
  have site : slowSite noFast start b i = true := by
    rw [slowSite, decide_eq_true ge, sys, rec.liveMov rec.after (Nat.le_refl i) (live i)]
    simp only [slow]
    rfl
  obtain ⟨op, ud2⟩ := pt.syscall_ud2 lt sys
  have after := rec.after
  rw [← pt.movKept_iff rec.mov (live stop) (by omega)]
  constructor
  · rintro (⟨kept, -⟩ | ⟨-, stays⟩)
    · exact kept
    · rw [not_syscall_of_ud2 (ud2.mpr site)] at stays
      cases stays
  · exact fun kept => .inl ⟨kept, op, ud2.mpr site⟩

lemma Patched.consistent_fast {stop} (pt : Patched noFast start b stop c) (rec : Recognised b i m)
    (ge : start ≤ i) (lt : i < stop) (sys : isSyscall b i = true) (fast : fastAt noFast b m = true) :
    Consistent b c i m ↔ ¬ (Shared start b i m ∧ slowSite noFast start b i = true) := by
  have site : rewritten noFast start b i m = false → fastSite noFast start b i = some m := fun live =>
    fastSite_some.mpr ⟨ge, sys, rec.liveMov rec.after (Nat.le_refl i) live, fast⟩
  have used : rewritten noFast start b stop m = true := by
    cases live : rewritten noFast start b i m with
    | true => exact rewritten_mono (Nat.le_of_lt lt) live
    | false => exact rewritten_mono lt (rewritten_succ.mpr (.inr (site live)))
  have linux := pt.holdsLinux used
  obtain ⟨op, ud2⟩ := pt.syscall_ud2 lt sys
  constructor
  · rintro (⟨kept, -⟩ | ⟨-, stays⟩)
    · exact absurd linux (not_holdsLinux_of_movKept rec.mov kept)
    · rintro ⟨-, slow⟩
      rw [not_syscall_of_ud2 (ud2.mpr slow)] at stays
      cases stays
  · intro apart
    refine .inr ⟨linux, pt.syscall_kept sys fun _ => Bool.eq_false_iff.mpr fun slow => ?_⟩
    cases live : rewritten noFast start b i m with
    | true => exact apart ⟨(rec.rewritten_iff fast).mp live, slow⟩
    | false =>
      have none := fastSite_of_slowSite slow
      rw [site live] at none
      cases none

end Loads

/-- A syscall of the range and the `mov` that it recognises fit together after the run, in these cases and no
    others. -/
theorem shared_load_iff {noFast : Bool} {seg : LoadedSegment} {rangeStart rangeLen i m : ℕ} {s : PatchState}
    (site : SyscallIn seg rangeStart rangeLen s.base i) (rec : Recognised s.base i m) :
    Consistent s.base (patchSyscallsInRange noFast seg rangeStart rangeLen s).base i m ↔
      (fastAt noFast s.base m = true →
        ¬ (Shared rangeStart s.base i m ∧ slowSite noFast rangeStart s.base i = true)) ∧
      (fastAt noFast s.base m = false → slowSite noFast rangeStart s.base (m + 1) = false) := by
  have pt := patchSyscallsInRange_patched noFast seg rangeStart rangeLen s
  obtain ⟨ge, lt, sys⟩ := site
  have visited : i < scanStop seg rangeStart rangeLen := by
    rw [scanStop]
    omega
  cases fast : fastAt noFast s.base m with
  | true =>
    rw [pt.consistent_fast rec ge visited sys fast]
    simp
  | false =>
    rw [pt.consistent_slow rec ge visited sys fast]
    simp

def oneSite : Buf := [0xB8, 0x04, 0x00, 0x00, 0x20, 0x0F, 0x05]

def twoSites : Buf := [0xB8, 0x05, 0x00, 0x00, 0x20, 0xB8, 0x04, 0x00, 0x00, 0x20, 0x0F, 0x05, 0x0F, 0x05]

def innerSite : Buf := [0xB8, 0x05, 0x00, 0x00, 0x20, 0xB8, 0x0F, 0x05, 0x00, 0x20, 0x0F, 0x05]

lemma recognised_of_all {b i m} (place : m + 5 ≤ i ∧ i ≤ m + 32 ∧ isMov b m = true)
    (all : ∀ j < i, m < j → j + 5 ≤ i → isMov b j = false) : Recognised b i m :=
  ⟨place.1, place.2.1, place.2.2, fun j gt le => all j (by omega) gt le⟩

theorem shared_load_iff_one :
    Consistent oneSite (patchSyscallsInRange false (textSegment 7) 0 7 ⟨oneSite, 0, 0⟩).base 5 0 :=
  (shared_load_iff (s := ⟨oneSite, 0, 0⟩) ⟨by decide, by decide, by decide⟩
    (recognised_of_all (by decide) (by decide))).mpr
    ⟨fun _ shared => absurd shared.2 (by decide), fun _ => by decide⟩

/-- The first of two syscalls leaves its number there and the second becomes `ud2`; one inside a number alters it. -/
theorem shared_load_inconsistent :
    (Recognised twoSites 10 5 ∧ Recognised twoSites 12 5 ∧
      ¬ Consistent twoSites (patchSyscallsInRange false (textSegment 14) 0 14 ⟨twoSites, 0, 0⟩).base 12 5) ∧
    (Recognised innerSite 10 5 ∧
      ¬ Consistent innerSite (patchSyscallsInRange false (textSegment 12) 0 12 ⟨innerSite, 0, 0⟩).base
        10 5) := by
  refine ⟨⟨recognised_of_all (by decide) (by decide), recognised_of_all (by decide) (by decide), ?_⟩,
    recognised_of_all (by decide) (by decide), ?_⟩
  · unfold Consistent MovKept HoldsLinux
    decide
  · unfold Consistent MovKept HoldsLinux
    decide

end Macify.Syscall
