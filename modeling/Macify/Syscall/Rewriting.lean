import Macify.Syscall.Patcher

/-!
# What the patcher writes

The scanner reads a buffer that it is changing. Its result is described by the original bytes alone:
`rewritten i m` says that a syscall before `i` took the fast path with the `mov` at `m`, and `slowSite i` that the
syscall at `i` becomes `ud2`. Both leave out the loads that an earlier syscall has consumed.

`Edited` relates a buffer to one in which numbers have been replaced and syscalls turned into `ud2`: no such store
creates or hides a load or a syscall, a consumed `mov` apart, by the numbers in the table (`FastLoad`). So what an
iteration does can be read off the original bytes (`siteEdit`, `Edited.patchSite_eq`), and `Edited.apply` is the step
lemma. `Patched` is the case of one scan that has reached `i`, with the run lemma `patchSyscallsInRange_patched`.
-/

namespace Macify.Syscall
open Lib Image

/-- The nearest load before `i` that is not used up. -/
def freeLoad (used : ℕ → Bool) (b : Buf) (i : ℕ) : Option ℕ :=
  searchDown (fun j => decide (j + 4 < i) && isMov b j && !used j) (i - backwardScanBytes) (i - 5)

section Spec

variable (noFast : Bool) (start : ℕ) (b : Buf)

def fastAt (m : ℕ) : Bool := decide (bsdNr b m < bsdSyscallMax) && fastNumber noFast (bsdNr b m)

def rewritten : ℕ → ℕ → Bool
  | 0, _ => false
  | i + 1, m =>
    rewritten i m ||
      (decide (start ≤ i) && isSyscall b i && fastAt noFast b m &&
        (searchDown (fun j => decide (j + 4 < i) && isMov b j && !rewritten i j)
          (i - backwardScanBytes) (i - 5) == some m))

def liveMov (i : ℕ) : Option ℕ :=
  searchDown (fun j => decide (j + 4 < i) && isMov b j && !rewritten noFast start b i j)
    (i - backwardScanBytes) (i - 5)

def addBefore (i : ℕ) : Bool := (searchDown (isAdd b) (i - backwardScanBytes) (i - 5)).isSome

def fastSite (i : ℕ) : Option ℕ :=
  if start ≤ i ∧ isSyscall b i = true then (liveMov noFast start b i).filter (fastAt noFast b)
  else none

def slowSite (i : ℕ) : Bool :=
  decide (start ≤ i) && isSyscall b i &&
    match liveMov noFast start b i with
    | some m => !fastAt noFast b m
    | none => addBefore b i

def linuxAt (m : ℕ) : ℕ := bsdToLinux (bsdNr b m)

structure Patched (i : ℕ) (c : Buf) : Prop where
  len : c.length = b.length
  slow : ∀ s, s < i → slowSite noFast start b s = true → byte c (s + 1) = 0x0B
  imm : ∀ m, rewritten noFast start b i m = true →
    byte c (m + 1) = UInt8.ofNat (linuxAt b m % 256) ∧
    byte c (m + 2) = UInt8.ofNat (linuxAt b m / 256 % 256) ∧
    byte c (m + 3) = 0 ∧ byte c (m + 4) = 0
  rest : ∀ k, (∀ s, s < i → slowSite noFast start b s = true → k ≠ s + 1) →
    (∀ m, rewritten noFast start b i m = true → k ≤ m ∨ m + 4 < k) → byte c k = byte b k

end Spec

lemma isSyscall_iff {b i} : isSyscall b i = true ↔ byte b i = 0x0F ∧ byte b (i + 1) = 0x05 := by
  simp [isSyscall]

lemma isSyscall_lt {b i} (sys : isSyscall b i = true) : i + 1 < b.length := by
  apply lt_of_byte_ne
  rw [(isSyscall_iff.mp sys).2]
  decide

lemma isMov_iff {b j} : isMov b j = true ↔
    byte b j = 0xB8 ∧ byte b (j + 3) = 0 ∧ byte b (j + 4) = 0x20 ∧ rexBefore b j = false := by
  simp [isMov, and_assoc]

def addBytes : Buf := [0x48, 0x05, 0x00, 0x00, 0x00, 0x02]

lemma isAdd_iff {b j} : isAdd b j = true ↔ 5 ≤ j ∧ ∀ k < 6, byte b (j + k) = byte addBytes k := by
  have all : ∀ P : ℕ → Prop, (∀ k < 6, P k) ↔ P 0 ∧ P 1 ∧ P 2 ∧ P 3 ∧ P 4 ∧ P 5 := fun P =>
    ⟨fun h => ⟨h 0 (by omega), h 1 (by omega), h 2 (by omega), h 3 (by omega), h 4 (by omega),
      h 5 (by omega)⟩, fun h k lt => by interval_cases k <;> simp [h]⟩
  rw [all]
  simp [isAdd, addBytes, and_assoc]

/-- The test takes a load that ends before the site, or an `add`. -/
lemma isPattern_eq {b i j} : isPattern b i j = (decide (j + 4 < i) && isMov b j || isAdd b j) := by
  unfold isPattern isMov
  by_cases op : byte b j = 0xB8
  · have na : isAdd b j = false := by simp [isAdd, op]
    by_cases lt : j + 4 < i <;> by_cases b3 : byte b (j + 3) = 0 <;>
      by_cases b4 : byte b (j + 4) = 0x20 <;> simp [op, lt, b3, b4, na]
  · simp [op]

/-- A `mov` whose number the fast path rewrites, with what the table says about the bytes of BSD and Linux numbers. -/
structure FastLoad (b : Buf) (m : ℕ) : Prop where
  op : byte b m = 0xB8
  lo : byte b (m + 1) ≠ 0xB8
  lo' : byte b (m + 1) ≠ 0xB9 ∧ byte b (m + 1) ≠ 0xE8 ∧ byte b (m + 1) ≠ 0xE9
  hi : byte b (m + 2) = 0 ∨ byte b (m + 2) = 1 ∨ byte b (m + 2) = 2
  b3 : byte b (m + 3) = 0
  b4 : byte b (m + 4) = 0x20
  newLo : UInt8.ofNat (linuxAt b m % 256) ≠ 0 ∧ UInt8.ofNat (linuxAt b m % 256) ≠ 0xB8
  newHi : UInt8.ofNat (linuxAt b m / 256 % 256) = 0 ∨ UInt8.ofNat (linuxAt b m / 256 % 256) = 1

lemma HasEntry.low_byte {nr n} (e : HasEntry nr n) :
    nr % 256 ≠ 0xB8 ∧ nr % 256 ≠ 0xB9 ∧ nr % 256 ≠ 0xE8 ∧ nr % 256 ≠ 0xE9 := by
  have all : ∀ p ∈ bsdToLinuxEntries,
      p.1 % 256 ≠ 0xB8 ∧ p.1 % 256 ≠ 0xB9 ∧ p.1 % 256 ≠ 0xE8 ∧ p.1 % 256 ≠ 0xE9 := by
    decide +kernel
  exact all (nr, n) e

lemma HasEntry.linux_bytes {nr n} (e : HasEntry nr n) (pos : 0 < n) :
    UInt8.ofNat (n % 256) ≠ 0 ∧ UInt8.ofNat (n % 256) ≠ 0xB8 ∧
      (UInt8.ofNat (n / 256 % 256) = 0 ∨ UInt8.ofNat (n / 256 % 256) = 1) := by
  have all : ∀ p ∈ bsdToLinuxEntries, 0 < p.2 →
      UInt8.ofNat (p.2 % 256) ≠ 0 ∧ UInt8.ofNat (p.2 % 256) ≠ 0xB8 ∧
        (UInt8.ofNat (p.2 / 256 % 256) = 0 ∨ UInt8.ofNat (p.2 / 256 % 256) = 1) := by
    decide +kernel
  exact all (nr, n) e pos

lemma fastNumber_entry {noFast nr} (h : fastNumber noFast nr = true) :
    HasEntry nr (bsdToLinux nr) ∧ 0 < bsdToLinux nr := by
  simp only [fastNumber, Bool.and_eq_true, decide_eq_true_eq] at h
  have pos := h.1.1.2
  exact ⟨.of_pos pos, pos⟩

lemma bsdNr_mod {b m} : bsdNr b m % 256 = (byte b (m + 1)).toNat := by
  have lt := (byte b (m + 1)).toNat_lt
  unfold bsdNr
  omega

lemma bsdNr_hi {b m} (lt : bsdNr b m < bsdSyscallMax) :
    byte b (m + 2) = 0 ∨ byte b (m + 2) = 1 ∨ byte b (m + 2) = 2 := by
  have h : (byte b (m + 2)).toNat < 3 := by
    unfold bsdNr bsdSyscallMax at lt
    omega
  rw [← UInt8.toNat_inj, ← UInt8.toNat_inj, ← UInt8.toNat_inj]
  simp only [UInt8.reduceToNat]
  omega

/-- A load that takes the fast path has a number of the table. -/
lemma FastLoad.of_fastAt {noFast b m} (mv : isMov b m = true) (fast : fastAt noFast b m = true) :
    FastLoad b m := by
  obtain ⟨op, b3, b4, _⟩ := isMov_iff.mp mv
  simp only [fastAt, Bool.and_eq_true, decide_eq_true_eq] at fast
  obtain ⟨lt, fast⟩ := fast
  obtain ⟨ent, pos⟩ := fastNumber_entry fast
  have nr : ∀ v : UInt8, bsdNr b m % 256 ≠ v.toNat → byte b (m + 1) ≠ v := by
    intro v ne e
    rw [bsdNr_mod, e] at ne
    exact ne rfl
  obtain ⟨nB8, nB9, nE8, nE9⟩ := ent.low_byte
  obtain ⟨lo0, loB8, hi⟩ := ent.linux_bytes pos
  exact ⟨op, nr _ nB8, ⟨nr _ nB9, nr _ nE8, nr _ nE9⟩, bsdNr_hi lt, b3, b4, ⟨lo0, loB8⟩, hi⟩

lemma FastLoad.lt {b m} (ld : FastLoad b m) : m + 4 < b.length := by
  apply lt_of_byte_ne
  rw [ld.b4]
  decide

structure LoadLike (d : Buf) (m : ℕ) : Prop where
  op : byte d m = 0xB8
  hi : byte d (m + 2) = 0 ∨ byte d (m + 2) = 1 ∨ byte d (m + 2) = 2
  b3 : byte d (m + 3) = 0
  b4 : byte d (m + 4) = 0 ∨ byte d (m + 4) = 0x20

lemma FastLoad.loadLike {b m} (ld : FastLoad b m) : LoadLike b m := ⟨ld.op, ld.hi, ld.b3, .inr ld.b4⟩

/-- A load and an `add` have no byte in common. -/
lemma LoadLike.add_disjoint {d m j} (ld : LoadLike d m) (ad : isAdd d j = true) : m + 4 < j ∨ j + 5 < m := by
  obtain ⟨_, eq⟩ := isAdd_iff.mp ad
  by_contra within
  rcases Nat.lt_or_ge m j with lt | ge
  · have e0 : byte d j = 0x48 := eq 0 (by omega)
    have e1 : byte d (j + 1) = 0x05 := eq 1 (by omega)
    obtain rfl | rfl | rfl | rfl : j = m + 1 ∨ j = m + 2 ∨ j = m + 3 ∨ j = m + 4 := by omega
    all_goals grind [LoadLike]
  · have noB8 : ∀ k < 6, byte addBytes k ≠ 0xB8 := by decide
    obtain ⟨k, rfl⟩ := Nat.exists_eq_add_of_le ge
    exact noB8 k (by omega) ((eq k (by omega)).symm.trans ld.op)

lemma rewritten_mov {noFast start b i m} (h : rewritten noFast start b i m = true) :
    isMov b m = true ∧ fastAt noFast b m = true ∧ m + 4 < i ∧ start < i := by
  induction i with
  | zero => cases h
  | succ i ih =>
    simp only [rewritten, Bool.or_eq_true, Bool.and_eq_true, decide_eq_true_eq, beq_iff_eq] at h
    rcases h with h | ⟨⟨⟨ge, _⟩, fast⟩, found⟩
    · obtain ⟨mv, fast, lt, gt⟩ := ih h
      exact ⟨mv, fast, by omega, by omega⟩
    · obtain ⟨_, _, mv, _⟩ := searchDown_eq_some.mp found
      simp only [Bool.and_eq_true, decide_eq_true_eq] at mv
      exact ⟨mv.1.2, fast, by omega, by omega⟩

lemma rewritten_fastLoad {noFast start b i m} (h : rewritten noFast start b i m = true) : FastLoad b m := by
  obtain ⟨mv, fast, _⟩ := rewritten_mov h
  exact .of_fastAt mv fast

lemma fastSite_some {noFast start b i m} : fastSite noFast start b i = some m ↔
    start ≤ i ∧ isSyscall b i = true ∧ liveMov noFast start b i = some m ∧
      fastAt noFast b m = true := by
  by_cases h : start ≤ i ∧ isSyscall b i = true
  · simp [fastSite, h, Option.filter_eq_some_iff]
  · simp only [fastSite, h, if_false, reduceCtorEq, false_iff]
    exact fun ⟨ge, sys, _⟩ => h ⟨ge, sys⟩

lemma rewritten_succ {noFast start b i m} :
    rewritten noFast start b (i + 1) m = true ↔
      rewritten noFast start b i m = true ∨ fastSite noFast start b i = some m := by
  rw [fastSite_some]
  simp only [rewritten, liveMov, Bool.or_eq_true, Bool.and_eq_true, decide_eq_true_eq, beq_iff_eq]
  tauto

lemma freeLoad_some {used b i m} (h : freeLoad used b i = some m) : m + 4 < i ∧ isMov b m = true ∧ used m = false := by
  obtain ⟨_, _, mv, _⟩ := searchDown_eq_some.mp h
  simp only [Bool.and_eq_true, decide_eq_true_eq, Bool.not_eq_true'] at mv
  exact ⟨mv.1.1, mv.1.2, mv.2⟩

lemma liveMov_some {noFast start b i m} (h : liveMov noFast start b i = some m) :
    m + 4 < i ∧ isMov b m = true ∧ rewritten noFast start b i m = false :=
  freeLoad_some h

lemma slowSite_syscall {noFast start b s} (h : slowSite noFast start b s = true) :
    start ≤ s ∧ isSyscall b s = true := by
  simp only [slowSite, Bool.and_eq_true, decide_eq_true_eq] at h
  exact h.1

/-- How the byte at `k` came to be `v`, where the fast path consumed the loads in `R`. -/
inductive Change (R : ℕ → Prop) (b : Buf) (k : ℕ) (v : UInt8) : Prop where
  | same (eq : v = byte b k)
  | ud2 (op : ∀ s, k = s + 1 → byte b s = 0x0F) (old : byte b k = 0x05) (eq : v = 0x0B)
  | lo (m : ℕ) (ld : R m) (pos : k = m + 1) (n0 : v ≠ 0) (nB8 : v ≠ 0xB8)
  | hi (m : ℕ) (ld : R m) (pos : k = m + 2) (small : v = 0 ∨ v = 1)
  | zero (m : ℕ) (ld : R m) (pos : k = m + 3 ∨ k = m + 4) (eq : v = 0)

/-- The buffer `c` is `b` with some syscalls turned into `ud2` and the immediates of the fast loads in `R` replaced. -/
structure Overlay (R : ℕ → Prop) (b c : Buf) : Prop where
  load : ∀ m, R m → FastLoad b m
  change : ∀ k, Change R b k (byte c k)
  imm : ∀ m, R m → (byte c (m + 2) = 0 ∨ byte c (m + 2) = 1) ∧ byte c (m + 3) = 0 ∧
    byte c (m + 4) = 0

namespace Overlay

variable {R : ℕ → Prop} {b c : Buf} {j : ℕ}
variable (ov : Overlay R b c)
include ov

lemma opcode (j : ℕ) : byte c j = 0xB8 ↔ byte b j = 0xB8 := by
  have ld := ov.load
  cases ov.change j <;> grind [FastLoad]

lemma mov_kept (live : ¬R j) (b3 : byte b (j + 3) = 0)
    (b4 : byte b (j + 4) = 0x20) : byte c (j + 3) = 0 ∧ byte c (j + 4) = 0x20 := by
  have ld := ov.load
  refine ⟨?_, ?_⟩
  · cases ov.change (j + 3) <;> grind [FastLoad]
  · cases ov.change (j + 4) <;> grind [FastLoad]

lemma mov_old (op : byte b j = 0xB8) (c3 : byte c (j + 3) = 0)
    (c4 : byte c (j + 4) = 0x20) : ¬R j ∧ byte b (j + 3) = 0 ∧ byte b (j + 4) = 0x20 := by
  have ld := ov.load
  have im := ov.imm
  have b3 : byte b (j + 3) = 0 := by cases ov.change (j + 3) <;> grind [FastLoad]
  refine ⟨?_, b3, ?_⟩
  · intro h
    have c4' := (im j h).2.2
    rw [c4] at c4'
    cases c4'
  · cases ov.change (j + 4) <;> grind [FastLoad]

lemma rexBefore (op : byte b j = 0xB8) : rexBefore c j = rexBefore b j := by
  unfold Syscall.rexBefore
  cases j with
  | zero => rfl
  | succ j =>
    have ld := ov.load
    simp only [Nat.add_sub_cancel]
    cases ov.change j <;> grind [FastLoad]

/-- The loads of a changed buffer are those that were not rewritten. -/
lemma isMov_iff : isMov c j = true ↔ isMov b j = true ∧ ¬R j := by
  rw [Syscall.isMov_iff, Syscall.isMov_iff, ov.opcode]
  constructor
  · rintro ⟨op, c3, c4, rex⟩
    obtain ⟨live, b3, b4⟩ := ov.mov_old op c3 c4
    exact ⟨⟨op, b3, b4, by rw [← ov.rexBefore op, rex]⟩, live⟩
  · rintro ⟨⟨op, b3, b4, rex⟩, live⟩
    obtain ⟨c3, c4⟩ := ov.mov_kept live b3 b4
    exact ⟨op, c3, c4, by rw [ov.rexBefore op, rex]⟩

/-- Outside the rewritten numbers, a byte changes only where a syscall becomes `ud2`. -/
lemma outside {k} (out : ∀ m, R m → k ≤ m ∨ m + 4 < k) :
    byte c k = byte b k ∨ byte c k = 0x0B ∧ byte b k = 0x05 ∧ ∀ s, k = s + 1 → byte b s = 0x0F := by
  cases ov.change k with
  | same eq => exact .inl eq
  | ud2 op old eq => exact .inr ⟨eq, old, op⟩
  | lo m ld pos | hi m ld pos | zero m ld pos =>
    have far := out m ld
    omega

lemma loadLike_new {m} (hm : R m) : LoadLike c m := by
  obtain ⟨hi, b3, b4⟩ := ov.imm m hm
  exact ⟨(ov.opcode m).mpr (ov.load m hm).op, hi.imp_right .inl, b3, .inl b4⟩

lemma isAdd_iff : isAdd c j = true ↔ isAdd b j = true := by
  constructor
  · intro new
    obtain ⟨five, eq⟩ := Syscall.isAdd_iff.mp new
    refine Syscall.isAdd_iff.mpr ⟨five, fun k lt => ?_⟩
    have no0B : ∀ k < 6, byte addBytes k ≠ 0x0B := by decide
    have out : ∀ m, R m → j + k ≤ m ∨ m + 4 < j + k := by
      intro m hm
      have far := (ov.loadLike_new hm).add_disjoint new
      omega
    rcases ov.outside out with same | ⟨ud2, _⟩
    · rw [← same, eq k lt]
    · exact absurd ((eq k lt).symm.trans ud2) (no0B k lt)
  · intro old
    obtain ⟨five, eq⟩ := Syscall.isAdd_iff.mp old
    refine Syscall.isAdd_iff.mpr ⟨five, fun k lt => ?_⟩
    have no05 : ∀ k < 6, byte addBytes k = 0x05 → k = 1 := by decide
    have out : ∀ m, R m → j + k ≤ m ∨ m + 4 < j + k := by
      intro m hm
      have far := (ov.load m hm).loadLike.add_disjoint old
      omega
    rcases ov.outside out with same | ⟨_, e05, op⟩
    · rw [same, eq k lt]
    · -- the only `05` of the `add` comes after `48`
      obtain rfl : k = 1 := no05 k lt ((eq k lt).symm.trans e05)
      have first := op j rfl
      rw [show byte b j = 0x48 from eq 0 (by omega)] at first
      cases first

/-- The number of a live load keeps its low byte. Its high byte changes only when the number itself contains `0F 05`,
    and then it is out of table range before and after. -/
lemma bsdNr_live (mv : isMov b j = true) (live : ¬R j) :
    bsdNr c j = bsdNr b j ∨ bsdSyscallMax ≤ bsdNr c j ∧ bsdSyscallMax ≤ bsdNr b j := by
  obtain ⟨op, b3, b4, _⟩ := Syscall.isMov_iff.mp mv
  have ld := ov.load
  have lo : byte c (j + 1) = byte b (j + 1) := by
    cases ov.change (j + 1) <;> grind [FastLoad]
  have hi : byte c (j + 2) = byte b (j + 2) ∨ byte c (j + 2) = 0x0B ∧ byte b (j + 2) = 0x05 := by
    cases ov.change (j + 2) <;> grind [FastLoad]
  unfold bsdNr bsdSyscallMax
  rw [lo]
  rcases hi with hi | ⟨hc, hb⟩
  · rw [hi]
    exact .inl rfl
  · rw [hc, hb]
    exact .inr ⟨Nat.le_add_left_of_le (by decide), Nat.le_add_left_of_le (by decide)⟩

end Overlay

section Loads

variable {b c : Buf} {m : ℕ}

/-- A load does not overlap a syscall, before or after its number is replaced. -/
lemma LoadLike.syscall_disjoint {s} (ld : LoadLike b m) (sys : isSyscall b s = true) : s + 1 ≤ m ∨ m + 4 < s := by
  obtain ⟨op, old⟩ := isSyscall_iff.mp sys
  by_contra within
  obtain rfl | rfl | rfl | rfl | rfl :
      s = m ∨ s = m + 1 ∨ s = m + 2 ∨ s = m + 3 ∨ s = m + 4 := by omega
  all_goals grind [LoadLike]

/-- The `05` of a syscall is not in the number of a load. -/
lemma FastLoad.trap_disjoint {k} (ld : FastLoad b m) (old : byte b k = 0x05)
    (op : ∀ s, k = s + 1 → byte b s = 0x0F) : k ≤ m ∨ m + 4 < k := by
  by_contra within
  obtain ⟨s, rfl⟩ := Nat.exists_eq_succ_of_ne_zero (show k ≠ 0 by omega)
  have := ld.loadLike.syscall_disjoint (isSyscall_iff.mpr ⟨op s rfl, old⟩)
  omega

/-- A load does not overlap another `mov eax` whose immediate ends in `00 20`. -/
lemma FastLoad.disjoint {m'} (ld : FastLoad b m) (op : byte b m' = 0xB8) (b3 : byte b (m' + 3) = 0)
    (b4 : byte b (m' + 4) = 0x20) (ne : m' ≠ m) : m' + 4 < m ∨ m + 4 < m' := by
  by_contra within
  rcases Nat.lt_or_gt_of_ne ne with lt | gt
  · obtain rfl | rfl | rfl | rfl : m = m' + 1 ∨ m = m' + 2 ∨ m = m' + 3 ∨ m = m' + 4 := by omega
    all_goals grind [FastLoad]
  · obtain rfl | rfl | rfl | rfl : m' = m + 1 ∨ m' = m + 2 ∨ m' = m + 3 ∨ m' = m + 4 := by omega
    all_goals grind [FastLoad]

/-- A rewrite stores the four bytes of the number and no other. -/
lemma byte_rewriteImm {n} (bound : m + 4 < c.length) :
    byte (rewriteImm c m n) (m + 1) = UInt8.ofNat (n % 256) ∧
    byte (rewriteImm c m n) (m + 2) = UInt8.ofNat (n / 256 % 256) ∧
    byte (rewriteImm c m n) (m + 3) = 0 ∧ byte (rewriteImm c m n) (m + 4) = 0 ∧
    ∀ k, k ≤ m ∨ m + 4 < k → byte (rewriteImm c m n) k = byte c k := by
  unfold rewriteImm
  refine ⟨?_, ?_, ?_, ?_, fun k out => ?_⟩
  · rw [byte_set_ne (by omega), byte_set_ne (by omega), byte_set_ne (by omega), byte_set_self (by omega)]
  · rw [byte_set_ne (by omega), byte_set_ne (by omega), byte_set_self (by rw [List.length_set]; omega)]
  · rw [byte_set_ne (by omega), byte_set_self (by simp only [List.length_set]; omega)]
  · exact byte_set_self (by simp only [List.length_set]; omega)
  · rw [byte_set_ne (by omega), byte_set_ne (by omega), byte_set_ne (by omega), byte_set_ne (by omega)]

end Loads

/-- What an iteration stores. -/
inductive Edit where
  | keep
  | number (m : ℕ)
  | ud2
  deriving DecidableEq

def Edit.apply (b : Buf) (i : ℕ) (s : PatchState) : Edit → PatchState
  | .keep => s
  | .number m => { s with base := rewriteImm s.base m (linuxAt b m), fastCount := s.fastCount + 1 }
  | .ud2 => s.ud2 i

/-- The load whose number is replaced. -/
def Edit.loads : Edit → ℕ → Bool
  | .number m, j => j == m
  | _, _ => false

/-- The place of the `0B`, for a site at `i`. -/
def Edit.traps (i : ℕ) : Edit → ℕ → Bool
  | .ud2, k => k == i + 1
  | _, _ => false

/-- What the iteration at `i` stores, by the original bytes, the loads that are used up, and whether the site is `ud2`
    already. -/
def siteEdit (noFast : Bool) (used : ℕ → Bool) (trapped : Bool) (b : Buf) (i : ℕ) : Edit :=
  if isSyscall b i && !trapped then
    match freeLoad used b i with
    | some m => if fastAt noFast b m then .number m else .ud2
    | none => if addBefore b i then .ud2 else .keep
  else .keep

/-- The buffer `c` is `b` with the numbers of the loads in `used` replaced, and with `0B` for `05` in the places `ud2`
    behind a `0F`. -/
structure Edited (used ud2 : ℕ → Bool) (b c : Buf) : Prop where
  len : c.length = b.length
  load : ∀ m, used m = true → FastLoad b m
  trap : ∀ k, ud2 k = true → byte b k = 0x05 ∧ (∀ s, k = s + 1 → byte b s = 0x0F) ∧ byte c k = 0x0B
  imm : ∀ m, used m = true →
    byte c (m + 1) = UInt8.ofNat (linuxAt b m % 256) ∧
    byte c (m + 2) = UInt8.ofNat (linuxAt b m / 256 % 256) ∧
    byte c (m + 3) = 0 ∧ byte c (m + 4) = 0
  rest : ∀ k, ud2 k = false → (∀ m, used m = true → k ≤ m ∨ m + 4 < k) → byte c k = byte b k

section Edited

variable {noFast trapped : Bool} {used ud2 : ℕ → Bool} {b c : Buf} {i m : ℕ} {s : PatchState}

lemma five_le_of_pattern (h : ((freeLoad used b i).isSome || addBefore b i) = true) : 5 ≤ i := by
  rcases Bool.or_eq_true_iff.mp h with mv | ad
  · obtain ⟨m, hm⟩ := Option.isSome_iff_exists.mp mv
    have lt := (freeLoad_some hm).1
    omega
  · obtain ⟨j, _, le, ad⟩ := searchDown_isSome.mp ad
    have five := (isAdd_iff.mp ad).1
    omega

/-- An iteration that rewrites a number: its load is a fast one before the site. -/
lemma siteEdit_number (is : siteEdit noFast used trapped b i = .number m) : m + 4 < i ∧ FastLoad b m := by
  rw [siteEdit] at is
  split at is
  · split at is
    · next found =>
      split at is
      · next fast =>
        cases is
        obtain ⟨before, mv, -⟩ := freeLoad_some found
        exact ⟨before, .of_fastAt mv fast⟩
      · cases is
    · split at is <;> cases is
  · cases is

/-- An iteration that makes `ud2` is at a syscall behind a pattern. -/
lemma siteEdit_ud2 (is : siteEdit noFast used trapped b i = .ud2) : isSyscall b i = true ∧ 5 ≤ i := by
  rw [siteEdit] at is
  split at is
  · next sys =>
    refine ⟨(Bool.and_eq_true_iff.mp sys).1, @five_le_of_pattern used b i ?_⟩
    split at is
    · next found => rw [found]; rfl
    · next none => split at is <;> simp_all
  · cases is

namespace Edited

lemma init : Edited (fun _ => false) (fun _ => false) b b :=
  ⟨rfl, fun _ h => Bool.noConfusion h, fun _ h => Bool.noConfusion h, fun _ h => Bool.noConfusion h,
    fun _ _ _ => rfl⟩

section

variable (ed : Edited used ud2 b c)
include ed

/-- The new numbers are an overlay of the old bytes. -/
lemma overlay : Overlay (fun m => used m = true) b c := by
  refine ⟨ed.load, fun k => ?_, fun m hm => ?_⟩
  -- a byte was stored by a slow site, by a fast one, or by none
  · cases slow : ud2 k with
    | true =>
      obtain ⟨old, op, new⟩ := ed.trap k slow
      exact .ud2 op old new
    | false =>
      by_cases imm : ∃ m, used m = true ∧ m < k ∧ k ≤ m + 4
      · obtain ⟨m, hm, gt, le⟩ := imm
        have ld := ed.load m hm
        obtain ⟨e1, e2, e3, e4⟩ := ed.imm m hm
        obtain rfl | rfl | rfl | rfl : k = m + 1 ∨ k = m + 2 ∨ k = m + 3 ∨ k = m + 4 := by omega
        · exact .lo m hm rfl (e1 ▸ ld.newLo.1) (e1 ▸ ld.newLo.2)
        · exact .hi m hm rfl (e2 ▸ ld.newHi)
        · exact .zero m hm (.inl rfl) e3
        · exact .zero m hm (.inr rfl) e4
      refine .same (ed.rest k slow fun m hm => ?_)
      by_contra within
      exact imm ⟨m, hm, by omega, by omega⟩
  · obtain ⟨_, e2, e3, e4⟩ := ed.imm m hm
    exact ⟨e2 ▸ (ed.load m hm).newHi, e3, e4⟩

lemma isMov_eq (j : ℕ) : isMov c j = (isMov b j && !used j) := by
  rw [Bool.eq_iff_iff, ed.overlay.isMov_iff]
  simp

lemma isAdd_eq (j : ℕ) : isAdd c j = isAdd b j := Bool.eq_iff_iff.mpr ed.overlay.isAdd_iff

/-- A syscall keeps its first byte, and the second one unless it becomes `ud2`. -/
lemma site_bytes (sys : isSyscall b i = true) :
    byte c i = 0x0F ∧ byte c (i + 1) = if ud2 (i + 1) then 0x0B else 0x05 := by
  obtain ⟨op, old⟩ := isSyscall_iff.mp sys
  have far : ∀ m, used m = true → i + 1 ≤ m ∨ m + 4 < i := fun m hm => (ed.load m hm).loadLike.syscall_disjoint sys
  have first : ud2 i = false := Bool.eq_false_iff.mpr fun hi => by
    rw [(ed.trap i hi).1] at op
    cases op
  refine ⟨by rw [ed.rest i first fun m hm => by have := far m hm; omega, op], ?_⟩
  cases second : ud2 (i + 1) with
  | true => exact (ed.trap (i + 1) second).2.2
  | false => rw [ed.rest (i + 1) second fun m hm => by have := far m hm; omega, old]; rfl

/-- The syscalls are those of the original that are not `ud2`. -/
lemma isSyscall_eq (i : ℕ) : isSyscall c i = (isSyscall b i && !ud2 (i + 1)) := by
  rw [Bool.eq_iff_iff, Bool.and_eq_true, Bool.not_eq_true']
  constructor
  · intro new
    obtain ⟨op, five⟩ := isSyscall_iff.mp new
    have far : ∀ m, used m = true → i + 1 ≤ m ∨ m + 4 < i := fun m hm =>
      (ed.overlay.loadLike_new hm).syscall_disjoint new
    have no0B {k} (ne : byte c k ≠ 0x0B) : ud2 k = false := Bool.eq_false_iff.mpr fun hk => ne (ed.trap k hk).2.2
    have second := no0B (show byte c (i + 1) ≠ 0x0B by rw [five]; decide)
    rw [ed.rest i (no0B (by rw [op]; decide)) fun m hm => by have := far m hm; omega] at op
    rw [ed.rest (i + 1) second fun m hm => by have := far m hm; omega] at five
    exact ⟨isSyscall_iff.mpr ⟨op, five⟩, second⟩
  · rintro ⟨sys, second⟩
    obtain ⟨op, five⟩ := ed.site_bytes sys
    rw [second] at five
    exact isSyscall_iff.mpr ⟨op, five⟩

lemma foundPattern_eq : foundPattern c i = ((freeLoad used b i).isSome || addBefore b i) := by
  unfold foundPattern freeLoad addBefore
  rw [Bool.eq_iff_iff, Bool.or_eq_true, searchDown_isSome, searchDown_isSome, searchDown_isSome]
  simp only [isPattern_eq, ed.isMov_eq, ed.isAdd_eq, Bool.and_eq_true, Bool.or_eq_true, decide_eq_true_eq]
  constructor
  · rintro ⟨j, ge, le, _, mv | ad⟩
    · exact .inl ⟨j, ge, le, ⟨mv.1, mv.2.1⟩, mv.2.2⟩
    · exact .inr ⟨j, ge, le, ad⟩
  · rintro (⟨j, ge, le, mv⟩ | ⟨j, ge, le, ad⟩)
    · exact ⟨j, ge, le, by omega, .inl ⟨mv.1.1, mv.1.2, mv.2⟩⟩
    · have five := (isAdd_iff.mp ad).1
      exact ⟨j, ge, le, by omega, .inr ad⟩

/-- The look-back on the edited bytes finds the nearest free load of the old ones. -/
lemma findMov_eq (five : 5 ≤ i) : findMov c i = freeLoad used b i := by
  apply searchDown_congr
  intro j _ le
  have lt : j + 4 < i := by omega
  simp [ed.isMov_eq, lt]

/-- A number that an earlier store has changed is out of range both times. -/
lemma fastAt_free (hm : freeLoad used b i = some m) :
    bsdNr c m = bsdNr b m ∨ bsdSyscallMax ≤ bsdNr c m ∧ fastAt noFast b m = false := by
  obtain ⟨_, mv, live⟩ := freeLoad_some hm
  rcases ed.overlay.bsdNr_live mv (by simp [live]) with eq | ⟨gec, geb⟩
  · exact .inl eq
  · refine .inr ⟨gec, ?_⟩
    simp [fastAt, Nat.not_lt.mpr geb]

end

/-- What an iteration does to the edited buffer is what the original bytes say. -/
lemma patchSite_eq (ed : Edited used ud2 b s.base) :
    patchSite noFast i s = (siteEdit noFast used (ud2 (i + 1)) b i).apply b i s := by
  unfold patchSite siteEdit
  rw [ed.isSyscall_eq, ed.foundPattern_eq]
  cases isSyscall b i && !ud2 (i + 1) with
  | false => rfl
  | true =>
    cases pat : (freeLoad used b i).isSome || addBefore b i with
    | false =>
      simp only [Bool.or_eq_false_iff, Option.isSome_eq_false_iff, Option.isNone_iff_eq_none] at pat
      simp [pat, Edit.apply]
    | true =>
      rw [ed.findMov_eq (five_le_of_pattern pat)]
      cases free : freeLoad used b i with
      | none =>
        simp only [free, Option.isSome_none, Bool.false_or] at pat
        simp [pat, Edit.apply]
      | some m =>
        rcases @fastAt_free noFast used ud2 b s.base i m ed free with eq | ⟨big, slow⟩
        · by_cases big : bsdSyscallMax ≤ bsdNr b m
          · have slow : fastAt noFast b m = false := by simp [fastAt, Nat.not_lt.mpr big]
            simp [eq, big, slow, Edit.apply]
          · have fast : fastAt noFast b m = fastNumber noFast (bsdNr b m) := by
              simp [fastAt, Nat.not_le.mp big]
            cases fn : fastNumber noFast (bsdNr b m) <;> simp [eq, big, fast, fn, linuxAt, Edit.apply]
        · simp [big, slow, Edit.apply]

/-- A syscall that becomes `ud2` is one edit more. -/
lemma makeUd2 (ed : Edited used ud2 b c) (sys : isSyscall b i = true) :
    Edited used (fun k => ud2 k || k == i + 1) b (c.set (i + 1) 0x0B) := by
  obtain ⟨op, old⟩ := isSyscall_iff.mp sys
  have bound : i + 1 < c.length := ed.len ▸ isSyscall_lt sys
  refine ⟨by rw [List.length_set, ed.len], ed.load, fun k hk => ?_, fun m hm => ?_, fun k hk hm => ?_⟩
  · by_cases here : k = i + 1
    · subst here
      exact ⟨old, fun s e => by cases e; exact op, byte_set_self bound⟩
    · rw [byte_set_ne here]
      exact ed.trap k (by simpa [here] using hk)
  · have far := (ed.load m hm).loadLike.syscall_disjoint sys
    rw [byte_set_ne (by omega), byte_set_ne (by omega), byte_set_ne (by omega), byte_set_ne (by omega)]
    exact ed.imm m hm
  · simp only [Bool.or_eq_false_iff, beq_eq_false_iff_ne] at hk
    rw [byte_set_ne hk.2]
    exact ed.rest k hk.1 hm

/-- A rewritten load is one edit more. -/
lemma rewrite (ed : Edited used ud2 b c) (ld : FastLoad b m) :
    Edited (fun j => used j || j == m) ud2 b (rewriteImm c m (linuxAt b m)) := by
  obtain ⟨e1, e2, e3, e4, out⟩ := @byte_rewriteImm c m (linuxAt b m) (ed.len ▸ ld.lt)
  refine ⟨by simp only [rewriteImm, List.length_set, ed.len], fun j hj => ?_, fun k hk => ?_, fun j hj => ?_,
    fun k hk hm => ?_⟩
  · by_cases here : j = m
    · exact here ▸ ld
    · exact ed.load j (by simpa [here] using hj)
  · obtain ⟨old, op, new⟩ := ed.trap k hk
    exact ⟨old, op, by rw [out k (ld.trap_disjoint old op), new]⟩
  · by_cases here : j = m
    · subst here
      exact ⟨e1, e2, e3, e4⟩
    · -- another load lies on one side of `m` as a whole
      have other : used j = true := by simpa [here] using hj
      have ld' := ed.load j other
      have far := ld.disjoint ld'.op ld'.b3 ld'.b4 here
      rw [out _ (by omega), out _ (by omega), out _ (by omega), out _ (by omega)]
      exact ed.imm j other
  · rw [out k (hm m (by simp))]
    exact ed.rest k hk fun j hj => hm j (by simp [hj])

/-- One iteration adds the load or the `ud2` that it stores. -/
lemma apply {e : Edit} (ed : Edited used ud2 b s.base) (is : siteEdit noFast used trapped b i = e) :
    Edited (fun j => used j || e.loads j) (fun k => ud2 k || e.traps i k) b (e.apply b i s).base := by
  cases e with
  | keep => simpa [Edit.loads, Edit.traps, Edit.apply] using ed
  | number m => simpa [Edit.loads, Edit.traps, Edit.apply] using ed.rewrite (siteEdit_number is).2
  | ud2 => simpa [Edit.loads, Edit.traps, Edit.apply, PatchState.ud2] using ed.makeUd2 (siteEdit_ud2 is).1

end Edited

end Edited

section Patched

variable {noFast : Bool} {start : ℕ} {b c : Buf} {i : ℕ}

/-- The places of `0B` when the scan has reached `i`. -/
def slowBefore (noFast : Bool) (start : ℕ) (b : Buf) (i : ℕ) : ℕ → Bool
  | 0 => false
  | s + 1 => decide (s < i) && slowSite noFast start b s

/-- The two descriptions of a scanned buffer say the same. -/
lemma patched_iff_edited :
    Patched noFast start b i c ↔ Edited (rewritten noFast start b i) (slowBefore noFast start b i) b c := by
  constructor
  · intro pt
    refine ⟨pt.len, fun m hm => rewritten_fastLoad hm, fun k hk => ?_, pt.imm, fun k hk hm => ?_⟩
    · cases k with
      | zero => cases hk
      | succ s =>
        simp only [slowBefore, Bool.and_eq_true, decide_eq_true_eq] at hk
        obtain ⟨op, old⟩ := isSyscall_iff.mp (slowSite_syscall hk.2).2
        exact ⟨old, fun s' e => by cases e; exact op, pt.slow s hk.1 hk.2⟩
    · refine pt.rest k (fun s lt hs e => ?_) hm
      subst e
      simp [slowBefore, lt, hs] at hk
  · intro ed
    refine ⟨ed.len, fun s lt hs => (ed.trap (s + 1) (by simp [slowBefore, lt, hs])).2.2, ed.imm, fun k hs hm => ?_⟩
    refine ed.rest k ?_ hm
    cases k with
    | zero => rfl
    | succ s =>
      rw [slowBefore, Bool.eq_false_iff]
      simp only [ne_eq, Bool.and_eq_true, decide_eq_true_eq, not_and]
      exact fun lt slow => hs s lt slow rfl

lemma Patched.edited (pt : Patched noFast start b i c) :
    Edited (rewritten noFast start b i) (slowBefore noFast start b i) b c := patched_iff_edited.mp pt

lemma Patched.overlay (pt : Patched noFast start b i c) :
    Overlay (fun m => rewritten noFast start b i m = true) b c := pt.edited.overlay

/-- What an iteration of the scan stores, in terms of its slow and fast sites. -/
lemma siteEdit_eq (ge : start ≤ i) :
    siteEdit noFast (rewritten noFast start b i) false b i =
      if slowSite noFast start b i then .ud2
      else match fastSite noFast start b i with
        | some m => .number m
        | none => .keep := by
  unfold siteEdit slowSite fastSite
  change (if _ then match liveMov noFast start b i with | some m => _ | none => _ else _) = _
  cases isSyscall b i with
  | false => simp
  | true =>
    cases liveMov noFast start b i with
    | none => cases addBefore b i <;> simp [ge]
    | some m => cases fast : fastAt noFast b m <;> simp [ge, Option.filter_some, fast]

lemma slowBefore_self : slowBefore noFast start b i (i + 1) = false := by
  simp [slowBefore]

lemma Patched.patchSite_eq {s : PatchState} (pt : Patched noFast start b i s.base) (ge : start ≤ i) :
    patchSite noFast i s =
      if slowSite noFast start b i then s.ud2 i
      else match fastSite noFast start b i with
        | some m =>
          { s with base := rewriteImm s.base m (linuxAt b m), fastCount := s.fastCount + 1 }
        | none => s := by
  rw [pt.edited.patchSite_eq, slowBefore_self, siteEdit_eq ge]
  cases slowSite noFast start b i with
  | true => rfl
  | false => cases fastSite noFast start b i <;> rfl

lemma fastSite_of_slowSite (hs : slowSite noFast start b i = true) : fastSite noFast start b i = none := by
  rw [Option.eq_none_iff_forall_ne_some]
  intro m hm
  obtain ⟨_, _, lm, fast⟩ := fastSite_some.mp hm
  simp [slowSite, lm, fast] at hs

/-- The step lemma of one scan. -/
lemma patchSite_patched {s : PatchState} (ge : start ≤ i) (pt : Patched noFast start b i s.base) :
    Patched noFast start b (i + 1) (patchSite noFast i s).base := by
  have next := pt.edited.apply (i := i) (@siteEdit_eq noFast start b i ge)
  rw [pt.edited.patchSite_eq, slowBefore_self, siteEdit_eq ge, patched_iff_edited]
  convert next using 1
  · funext m
    rw [Bool.eq_iff_iff, rewritten_succ, Bool.or_eq_true]
    cases hs : slowSite noFast start b i with
    | true => simp [fastSite_of_slowSite hs, Edit.loads]
    | false => cases fastSite noFast start b i <;> grind [Edit.loads]
  · funext k
    cases k with
    | zero => cases slowSite noFast start b i <;> cases fastSite noFast start b i <;> rfl
    | succ s =>
      rw [Bool.eq_iff_iff]
      simp only [slowBefore, Bool.or_eq_true, Bool.and_eq_true, decide_eq_true_eq]
      cases hs : slowSite noFast start b i <;> cases fastSite noFast start b i <;> grind [Edit.traps]

lemma Patched.init : Patched noFast start b start b := by
  refine ⟨rfl, fun s lt hs => ?_, fun m hm => ?_, fun _ _ _ => rfl⟩
  · have ge := (slowSite_syscall hs).1
    omega
  · have lt := (rewritten_mov hm).2.2.2
    omega

def scanStop (seg : LoadedSegment) (rangeStart rangeLen : ℕ) : ℕ :=
  rangeStart + (rangeEnd seg rangeStart rangeLen - 1 - rangeStart)

/-- The run lemma: after a scan the buffer is patched up to its end. -/
theorem patchSyscallsInRange_patched (noFast : Bool) (seg : LoadedSegment)
    (rangeStart rangeLen : ℕ) (s : PatchState) :
    Patched noFast rangeStart s.base (scanStop seg rangeStart rangeLen)
      (patchSyscallsInRange noFast seg rangeStart rangeLen s).base :=
  forUp_invariant (fun i (t : PatchState) => Patched noFast rangeStart s.base i t.base) .init
    fun _ _ ge _ pt => patchSite_patched ge pt

/-- Behind the scan a syscall is `ud2` just if it takes the slow path. -/
lemma Patched.syscall_ud2 (pt : Patched noFast start b i c) {s} (lt : s < i) (sys : isSyscall b s = true) :
    byte c s = 0x0F ∧ (byte c (s + 1) = 0x0B ↔ slowSite noFast start b s = true) := by
  obtain ⟨op, second⟩ := pt.edited.site_bytes sys
  rw [slowBefore, decide_eq_true lt, Bool.true_and] at second
  refine ⟨op, ?_⟩
  rw [second]
  cases slowSite noFast start b s <;> decide

lemma lt_scanStop {seg : LoadedSegment} {rangeStart rangeLen i : ℕ}
    (fits : rangeStart + rangeLen ≤ seg.vmsize.toNat) (ge : rangeStart ≤ i)
    (lt : i + 1 < rangeStart + rangeLen) : i < scanStop seg rangeStart rangeLen := by
  have small := seg.vmsize.isLt
  have mod : (rangeStart + rangeLen) % 2 ^ 64 = rangeStart + rangeLen :=
    Nat.mod_eq_of_lt (by omega)
  unfold scanStop rangeEnd
  rw [mod, Nat.min_eq_left fits]
  omega

end Patched

end Macify.Syscall
