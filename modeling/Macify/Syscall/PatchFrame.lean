import Macify.Syscall.Rewriting

/-!
# The frame of the patcher

`patch_frame` says what a run of `patch_syscalls_in_range` changes: the second byte of a syscall that
becomes `ud2`, and the immediate of a `mov` shortly before a syscall that stays. The run rewrites no
`mov` twice, and its two counters count the changes that can be seen by comparing the buffer before with
the buffer after.
-/

namespace Macify.Syscall
open Lib Image

def rewriteAt (noFast : Bool) (i : ℕ) (s : PatchState) : Option ℕ :=
  if !isSyscall s.base i then none
  else if !foundPattern s.base i then none
  else (findMov s.base i).filter (fastAt noFast s.base)

def logRewrite (noFast : Bool) (i : ℕ) (t : PatchState × List ℕ) : PatchState × List ℕ :=
  (patchSite noFast i t.1, t.2 ++ (rewriteAt noFast i t.1).toList)

def rewrites (noFast : Bool) (seg : LoadedSegment) (rangeStart rangeLen : ℕ) (s : PatchState) : List ℕ :=
  (forUp (logRewrite noFast) rangeStart (rangeEnd seg rangeStart rangeLen - 1 - rangeStart) (s, [])).2

def rewrittenLoads (b c : Buf) : List ℕ := (List.range b.length).filter fun m => isMov b m && !isMov c m

def ud2Sites (b c : Buf) : List ℕ :=
  (List.range b.length).filter fun i => isSyscall b i && byte c i == 0x0F && byte c (i + 1) == 0x0B

structure SyscallIn (seg : LoadedSegment) (rangeStart rangeLen : ℕ) (b : Buf) (i : ℕ) : Prop where
  ge : rangeStart ≤ i
  lt : i + 1 < rangeEnd seg rangeStart rangeLen
  sys : isSyscall b i = true

/-- The byte at `k` is the second one of a syscall of `b` that is `ud2` in `c`, or it belongs to the
    immediate of a `B8` at most 32 bytes before a syscall that is still one. -/
inductive FrameByte (inside : ℕ → Prop) (b c : Buf) (k : ℕ) : Prop where
  | ud2 (i : ℕ) (site : inside i) (pos : k = i + 1) (new : byte c k = 0x0B)
  | imm (m i : ℕ) (op : byte b m = 0xB8) (pos : m < k ∧ k ≤ m + 4) (site : inside i)
      (near : m < i ∧ i ≤ m + 32) (stays : isSyscall c i = true)

structure PatchFrame (inside : ℕ → Prop) (s t : PatchState) (log : List ℕ) : Prop where
  len : t.base.length = s.base.length
  changed : ∀ k, byte t.base k ≠ byte s.base k → FrameByte inside s.base t.base k
  once : log.Nodup
  fast : t.fastCount = s.fastCount + (rewrittenLoads s.base t.base).length
  slow : t.slowCount = s.slowCount + (ud2Sites s.base t.base).length

section Run

variable {noFast : Bool} {start i : ℕ} {b c : Buf}

def fastLoads (noFast : Bool) (start : ℕ) (b : Buf) (i : ℕ) : List ℕ :=
  (List.range i).filterMap (fastSite noFast start b)

def slowSites (noFast : Bool) (start : ℕ) (b : Buf) (i : ℕ) : List ℕ :=
  (List.range i).filter (slowSite noFast start b)

lemma fastLoads_succ :
    fastLoads noFast start b (i + 1) = fastLoads noFast start b i ++ (fastSite noFast start b i).toList := by
  rw [fastLoads, List.range_succ, List.filterMap_append, fastLoads, List.filterMap_cons]
  cases fastSite noFast start b i <;> rfl

lemma slowSites_succ : (slowSites noFast start b (i + 1)).length =
    (slowSites noFast start b i).length + if slowSite noFast start b i = true then 1 else 0 := by
  rw [slowSites, List.range_succ, List.filter_append, List.length_append, slowSites, List.filter_singleton]
  cases slowSite noFast start b i <;> rfl

lemma mem_fastLoads {m} : m ∈ fastLoads noFast start b i ↔ rewritten noFast start b i m = true := by
  induction i with
  | zero => simp [fastLoads, rewritten]
  | succ i ih => rw [fastLoads_succ, List.mem_append, ih, Option.mem_toList, rewritten_succ]

lemma nodup_fastLoads : (fastLoads noFast start b i).Nodup := by
  induction i with
  | zero => exact List.nodup_nil
  | succ i ih =>
    rw [fastLoads_succ]
    cases hf : fastSite noFast start b i with
    | none => simpa using ih
    | some m =>
      have live := (liveMov_some (fastSite_some.mp hf).2.2.1).2.2
      refine List.nodup_append.mpr ⟨ih, List.nodup_singleton m, fun m' old m'' new => ?_⟩
      rw [mem_fastLoads] at old
      rintro rfl
      rw [Option.toList_some, List.mem_singleton] at new
      rw [new, live] at old
      cases old

lemma Patched.rewriteAt_eq {s : PatchState} (pt : Patched noFast start b i s.base) (ge : start ≤ i) :
    rewriteAt noFast i s = fastSite noFast start b i := by
  have ed := pt.edited
  unfold rewriteAt
  rw [ed.isSyscall_eq, slowBefore_self, ed.foundPattern_eq]
  cases sys : isSyscall b i with
  | false => simp [fastSite, sys]
  | true =>
    have live : liveMov noFast start b i = freeLoad (rewritten noFast start b i) b i := rfl
    have site : start ≤ i ∧ isSyscall b i = true := ⟨ge, sys⟩
    rw [fastSite, if_pos site, live]
    cases pat : (freeLoad (rewritten noFast start b i) b i).isSome || addBefore b i with
    | false =>
      simp only [Bool.or_eq_false_iff, Option.isSome_eq_false_iff, Option.isNone_iff_eq_none] at pat
      simp [pat]
    | true =>
      rw [ed.findMov_eq (five_le_of_pattern pat)]
      cases free : freeLoad (rewritten noFast start b i) b i with
      | none => rfl
      | some m =>
        have same : fastAt noFast s.base m = fastAt noFast b m := by
          rcases ed.fastAt_free free with eq | ⟨big, slow⟩
          · rw [fastAt, fastAt, eq]
          · rw [slow, fastAt, decide_eq_false (Nat.not_lt.mpr big), Bool.false_and]
        simp [Option.filter_some, same]

structure Counted (noFast : Bool) (start : ℕ) (s : PatchState) (i : ℕ) (t : PatchState × List ℕ) : Prop where
  patched : Patched noFast start s.base i t.1.base
  log : t.2 = fastLoads noFast start s.base i
  fast : t.1.fastCount = s.fastCount + (fastLoads noFast start s.base i).length
  slow : t.1.slowCount = s.slowCount + (slowSites noFast start s.base i).length

lemma Counted.init {s : PatchState} : Counted noFast start s start (s, []) := by
  have loads : fastLoads noFast start s.base start = [] := by
    refine List.eq_nil_iff_forall_not_mem.mpr fun m mem => ?_
    have lt := (rewritten_mov (mem_fastLoads.mp mem)).2.2.2
    omega
  have sites : slowSites noFast start s.base start = [] := by
    refine List.filter_eq_nil_iff.mpr fun j mem slow => ?_
    have lt := List.mem_range.mp mem
    have ge := (slowSite_syscall slow).1
    omega
  refine ⟨.init, loads.symm, ?_, ?_⟩
  · rw [loads]
    rfl
  · rw [sites]
    rfl

lemma Counted.step {s : PatchState} {t : PatchState × List ℕ} (ct : Counted noFast start s i t)
    (ge : start ≤ i) : Counted noFast start s (i + 1) (logRewrite noFast i t) := by
  obtain ⟨pt, log, fast, slow⟩ := ct
  refine ⟨patchSite_patched ge pt, ?_, ?_, ?_⟩
  · rw [logRewrite, log, pt.rewriteAt_eq ge, fastLoads_succ]
  · rw [fastLoads_succ, List.length_append, ← Nat.add_assoc, ← fast, logRewrite, pt.patchSite_eq ge]
    cases hs : slowSite noFast start s.base i with
    | true =>
      rw [fastSite_of_slowSite hs]
      rfl
    | false => cases hf : fastSite noFast start s.base i <;> rfl
  · rw [slowSites_succ, ← Nat.add_assoc, ← slow, logRewrite, pt.patchSite_eq ge]
    cases hs : slowSite noFast start s.base i with
    | true => rfl
    | false => cases hf : fastSite noFast start s.base i <;> rfl

lemma forUp_logRewrite {n} {t : PatchState × List ℕ} :
    (forUp (logRewrite noFast) i n t).1 = forUp (patchSite noFast) i n t.1 := by
  induction n generalizing i t with
  | zero => rfl
  | succ n ih => rw [forUp, ih, forUp, logRewrite]

lemma Patched.mem_rewrittenLoads (pt : Patched noFast start b i c) {m} :
    m ∈ rewrittenLoads b c ↔ rewritten noFast start b i m = true := by
  rw [rewrittenLoads, List.mem_filter, List.mem_range, pt.edited.isMov_eq]
  constructor
  · rintro ⟨_, both⟩
    simp only [Bool.and_eq_true, Bool.not_eq_true', Bool.and_eq_false_iff, Bool.not_eq_false'] at both
    exact both.2.resolve_left fun no => Bool.false_ne_true (no.symm.trans both.1)
  · intro used
    have lt := (rewritten_fastLoad used).lt
    exact ⟨by omega, by rw [(rewritten_mov used).1, used]; rfl⟩

lemma Patched.syscall_kept (pt : Patched noFast start b i c) {s} (sys : isSyscall b s = true)
    (kept : s < i → slowSite noFast start b s = false) : isSyscall c s = true := by
  have live : slowBefore noFast start b i (s + 1) = false := by
    by_cases lt : s < i
    · rw [slowBefore, kept lt, Bool.and_false]
    · rw [slowBefore, decide_eq_false lt, Bool.false_and]
  rw [pt.edited.isSyscall_eq, sys, live]
  rfl

lemma Patched.mem_ud2Sites (pt : Patched noFast start b i c) {s} :
    s ∈ ud2Sites b c ↔ s ∈ slowSites noFast start b i := by
  rw [ud2Sites, slowSites, List.mem_filter, List.mem_range, List.mem_filter, List.mem_range]
  simp only [Bool.and_eq_true, beq_iff_eq]
  constructor
  · rintro ⟨_, ⟨sys, _⟩, new⟩
    by_contra no
    have kept := pt.syscall_kept sys fun lt => Bool.eq_false_iff.mpr fun hs => no ⟨lt, hs⟩
    rw [(isSyscall_iff.mp kept).2] at new
    cases new
  · rintro ⟨lt, hs⟩
    have sys := (slowSite_syscall hs).2
    obtain ⟨op, ud2⟩ := pt.syscall_ud2 lt sys
    have bound := isSyscall_lt sys
    exact ⟨by omega, ⟨sys, op⟩, ud2.mpr hs⟩

lemma exists_fastSite {m} (used : rewritten noFast start b i m = true) :
    ∃ s < i, fastSite noFast start b s = some m := by
  obtain ⟨s, lt, eq⟩ := List.mem_filterMap.mp (mem_fastLoads.mpr used)
  exact ⟨s, List.mem_range.mp lt, eq⟩

lemma near_of_liveMov {m} (found : liveMov noFast start b i = some m) : m < i ∧ i ≤ m + 32 := by
  obtain ⟨ge, _, _⟩ := searchDown_eq_some.mp found
  have lt := (liveMov_some found).1
  rw [backwardScanBytes] at ge
  omega

lemma Patched.allowed (pt : Patched noFast start b i c) {k} (ne : byte c k ≠ byte b k) :
    FrameByte (fun s => start ≤ s ∧ s < i ∧ isSyscall b s = true) b c k := by
  by_cases slow : ∃ s, s < i ∧ slowSite noFast start b s = true ∧ k = s + 1
  · obtain ⟨s, lt, hs, rfl⟩ := slow
    obtain ⟨ge, sys⟩ := slowSite_syscall hs
    exact .ud2 s ⟨ge, lt, sys⟩ rfl (pt.slow s lt hs)
  by_cases imm : ∃ m, rewritten noFast start b i m = true ∧ m < k ∧ k ≤ m + 4
  · obtain ⟨m, used, within⟩ := imm
    obtain ⟨s, lt, site⟩ := exists_fastSite used
    obtain ⟨ge, sys, found, _⟩ := fastSite_some.mp site
    have fast : slowSite noFast start b s = false := by
      refine Bool.eq_false_iff.mpr fun hs => ?_
      rw [fastSite_of_slowSite hs] at site
      cases site
    exact .imm m s (rewritten_fastLoad used).op within ⟨ge, lt, sys⟩ (near_of_liveMov found)
      (pt.syscall_kept sys fun _ => fast)
  · refine absurd (pt.rest k (fun s lt hs e => slow ⟨s, lt, hs, e⟩) fun m hm => ?_) ne
    by_contra within
    exact imm ⟨m, hm, by omega, by omega⟩

end Run

end Macify.Syscall
