import Macify.Syscall.Rewriting

/-!
# Patching the code sections of a segment

`patch_syscalls_in_segment` (`src/syscall/patcher.c`) scans every section that holds instructions, or the whole
segment if there is none. The look-back of a site is not limited to the section, so the number that the fast path
rewrites may lie in the data before it. `Marks` collects what the scans of all sections store, by the bytes before the
first one, and Main result: `code_sections_only_iff`.
-/

namespace Macify.Syscall
open Lib Image

abbrev S_ATTR_PURE_INSTRUCTIONS : W32 := 0x80000000
abbrev S_ATTR_SOME_INSTRUCTIONS : W32 := 0x00000400
abbrev PROT_EXEC : W32 := 4

def sectionIsCode (sec : LoadedSection) : Bool :=
  sec.flags &&& S_ATTR_SOME_INSTRUCTIONS != 0 || sec.flags &&& S_ATTR_PURE_INSTRUCTIONS != 0

def codeSections (seg : LoadedSegment) (sections : List LoadedSection) : List LoadedSection :=
  sections.filter fun sec => sec.segname.take 16 == seg.name.take 16 && sectionIsCode sec

/-- The memory of a segment, with the bytes right before it: at least those that a look-back reaches. -/
structure SegmentState where
  below : Buf
  patch : PatchState

/-- One iteration of a scan. A section that starts one byte below the segment makes `i + 1` wrap around, so that the
    scan starts at the byte before the segment. -/
inductive ScanStep where
  | before
  | site (i : ℕ)
  deriving DecidableEq

def SegmentState.step (noFast : Bool) (t : SegmentState) : ScanStep → SegmentState
  | .site i => { t with patch := patchSite noFast i t.patch }
  | .before =>
    let s := patchSite noFast (t.below.length - 1) { t.patch with base := t.below ++ t.patch.base }
    ⟨s.base.take t.below.length, { s with base := s.base.drop t.below.length }⟩

def rangeSteps (seg : LoadedSegment) (rangeStart rangeLen : ℕ) : List ScanStep :=
  let stop := rangeEnd seg rangeStart rangeLen
  if rangeStart = 2 ^ 64 - 1 then if 0 < stop then .before :: (List.range (stop - 1)).map .site else []
  else (List.range' rangeStart (stop - 1 - rangeStart)).map .site

def sectionStart (seg : LoadedSegment) (sec : LoadedSection) : ℕ := (sec.addr - seg.vmaddr).toNat

def segmentSteps (writable : Bool) (seg : LoadedSegment) (sections : List LoadedSection) : List ScanStep :=
  if seg.prot &&& PROT_EXEC = 0 ∨ seg.isPagezero ∨ !writable then []
  else if codeSections seg sections = [] then rangeSteps seg 0 seg.vmsize.toNat
  else (codeSections seg sections).flatMap fun sec => rangeSteps seg (sectionStart seg sec) sec.size.toNat

def patchSyscallsInSegment (noFast writable : Bool) (seg : LoadedSegment) (sections : List LoadedSection)
    (t : SegmentState) : SegmentState :=
  (segmentSteps writable seg sections).foldl (SegmentState.step noFast) t

/-- The steps of a range do what `patch_syscalls_in_range` does. -/
lemma foldl_rangeSteps {noFast : Bool} {seg : LoadedSegment} {rangeStart rangeLen : ℕ} {t : SegmentState}
    (ordinary : rangeStart ≠ 2 ^ 64 - 1) :
    (rangeSteps seg rangeStart rangeLen).foldl (SegmentState.step noFast) t =
      { t with patch := patchSyscallsInRange noFast seg rangeStart rangeLen t.patch } := by
  rw [rangeSteps, if_neg ordinary, List.foldl_map, patchSyscallsInRange]
  generalize rangeEnd seg rangeStart rangeLen - 1 - rangeStart = n
  clear ordinary
  induction n generalizing rangeStart t with
  | zero => rfl
  | succ n ih => rw [List.range'_succ, List.foldl_cons, ih, forUp, SegmentState.step]

def InCode (seg : LoadedSegment) (sections : List LoadedSection) (k : ℕ) : Prop :=
  ∃ sec ∈ codeSections seg sections, (seg.vmaddr + BitVec.ofNat 64 k - sec.addr).toNat < sec.size.toNat

instance (seg : LoadedSegment) (sections : List LoadedSection) (k : ℕ) : Decidable (InCode seg sections k) :=
  inferInstanceAs (Decidable (∃ sec ∈ codeSections seg sections, _))

def SegmentState.whole (t : SegmentState) : PatchState := { t.patch with base := t.below ++ t.patch.base }

/-- The loads that the iterations so far have rewritten, and the places of the `0B` of `ud2`, counted from the first
    byte below the segment. -/
structure Marks where
  loads : List ℕ
  traps : List ℕ

/-- What an iteration at `i` adds, in a part of the memory that starts at `n`. -/
def Marks.add (marks : Marks) (n i : ℕ) : Edit → Marks
  | .keep => marks
  | .number m => { marks with loads := (n + m) :: marks.loads }
  | .ud2 => { marks with traps := (n + (i + 1)) :: marks.traps }

/-- One more iteration. What it does is read off the memory before the first one, and off the marks. -/
def Marks.visit (noFast : Bool) (t : SegmentState) (marks : Marks) : ScanStep → Marks
  | .before =>
    let i := t.below.length - 1
    marks.add 0 i (siteEdit noFast marks.loads.contains (marks.traps.contains (i + 1)) t.whole.base i)
  | .site i =>
    let n := t.below.length
    marks.add n i (siteEdit noFast (fun m => marks.loads.contains (n + m)) (marks.traps.contains (n + (i + 1)))
      t.patch.base i)

def scanMarks (noFast : Bool) (t : SegmentState) (steps : List ScanStep) : Marks :=
  steps.foldl (Marks.visit noFast t) ⟨[], []⟩

/-- Of the number of the load at `m`, the bytes outside of the code are those of the Linux number. The last one is
    not: it is `20`. -/
structure NumberInCode (code : ℕ → Prop) (b : Buf) (m : ℕ) : Prop where
  lo : code (m + 1) ∨ byte b (m + 1) = UInt8.ofNat (linuxAt b m % 256)
  hi : code (m + 2) ∨ byte b (m + 2) = UInt8.ofNat (linuxAt b m / 256 % 256)
  last : code (m + 4)

section Marked

variable {noFast : Bool} {code : ℕ → Prop} {used ud2 : ℕ → Bool} {b c : Buf} {i m n : ℕ}

/-- An edited buffer is as before outside of the code just if its stores are in the code or change nothing. -/
lemma Edited.unchanged_iff (ed : Edited used ud2 b c) (loads : ∀ m, used m = true → m + 4 < n)
    (traps : ∀ k, ud2 k = true → k < n) :
    (∀ k, k < n → ¬code k → byte c k = byte b k) ↔
      (∀ m, used m = true → NumberInCode code b m) ∧ ∀ k, ud2 k = true → code k := by
  constructor
  · intro same
    refine ⟨fun m hm => ?_, fun k hk => ?_⟩
    · have lt := loads m hm
      obtain ⟨e1, e2, -, e4⟩ := ed.imm m hm
      refine ⟨?_, ?_, ?_⟩
      · rw [← e1]
        exact or_iff_not_imp_left.mpr fun data => (same (m + 1) (by omega) data).symm
      · rw [← e2]
        exact or_iff_not_imp_left.mpr fun data => (same (m + 2) (by omega) data).symm
      · by_contra data
        have kept := same (m + 4) lt data
        rw [e4, (ed.load m hm).b4] at kept
        cases kept
    · by_contra data
      obtain ⟨old, -, new⟩ := ed.trap k hk
      have kept := same k (traps k hk) data
      rw [new, old] at kept
      cases kept
  · rintro ⟨numbers, inside⟩ k - data
    cases hk : ud2 k with
    | true => exact absurd (inside k hk) data
    | false =>
      by_cases imm : ∃ m, used m = true ∧ m < k ∧ k ≤ m + 4
      · obtain ⟨m, hm, gt, le⟩ := imm
        obtain ⟨e1, e2, e3, -⟩ := ed.imm m hm
        obtain ⟨lo, hi, last⟩ := numbers m hm
        obtain rfl | rfl | rfl | rfl : k = m + 1 ∨ k = m + 2 ∨ k = m + 3 ∨ k = m + 4 := by omega
        · rw [e1, lo.resolve_left data]
        · rw [e2, hi.resolve_left data]
        · rw [e3, (ed.load m hm).b3]
        · exact absurd last data
      · refine ed.rest k hk fun m hm => ?_
        by_contra within
        exact imm ⟨m, hm, by omega, by omega⟩

/-- The part of an edited buffer behind `n`, if no load lies across `n`. -/
lemma Edited.drop (ed : Edited used ud2 b c) (apart : ∀ m, used m = true → m < n → m + 4 < n) :
    Edited (fun m => used (n + m)) (fun k => ud2 (n + k)) (b.drop n) (c.drop n) := by
  have number (m : ℕ) : linuxAt (b.drop n) m = linuxAt b (n + m) := by
    rw [linuxAt, linuxAt, bsdNr, bsdNr, byte_drop, byte_drop]
    rfl
  refine ⟨by rw [List.length_drop, List.length_drop, ed.len], fun m hm => ?_, fun k hk => ?_, fun m hm => ?_,
    fun k hk hm => ?_⟩
  · obtain ⟨op, lo, lo', hi, b3, b4, newLo, newHi⟩ := ed.load _ hm
    constructor <;> simpa only [byte_drop, number, ← Nat.add_assoc]
  · obtain ⟨old, op, new⟩ := ed.trap _ hk
    refine ⟨by rw [byte_drop, old], fun s eq => ?_, by rw [byte_drop, new]⟩
    rw [byte_drop]
    exact op (n + s) (by omega)
  · simpa only [byte_drop, number, ← Nat.add_assoc] using ed.imm _ hm
  · rw [byte_drop, byte_drop]
    refine ed.rest _ hk fun m used => ?_
    rcases Nat.lt_or_ge m n with below | above
    · have := apart m used below
      omega
    · obtain ⟨m, rfl⟩ := Nat.exists_eq_add_of_le above
      have := hm m used
      omega

end Marked

section Runs

variable {noFast writable : Bool} {seg : LoadedSegment} {sections : List LoadedSection} {t u : SegmentState}
  {a : ScanStep} {steps : List ScanStep} {marks : Marks} {k : ℕ}

lemma whole_base : t.whole.base = t.below ++ t.patch.base := rfl

lemma contains_cons_eq {l : List ℕ} {m : ℕ} : (m :: l).contains = fun j => l.contains j || j == m := by
  funext j
  rw [List.contains_cons, Bool.or_comm]

/-- The memory `u` has come from `t` by the stores in the marks. -/
structure Tracked (t : SegmentState) (marks : Marks) (u : SegmentState) : Prop where
  len : u.below.length = t.below.length
  apart : ∀ m ∈ marks.loads, m < t.below.length → m + 4 < t.below.length
  edited : Edited marks.loads.contains marks.traps.contains t.whole.base u.whole.base

/-- The marks seen from the segment alone. -/
lemma Tracked.segment (tr : Tracked t marks u) :
    Edited (fun m => marks.loads.contains (t.below.length + m)) (fun k => marks.traps.contains (t.below.length + k))
      t.patch.base u.patch.base := by
  have ed := tr.edited.drop fun m hm => tr.apart m (List.contains_iff_mem.mp hm)
  rw [whole_base, whole_base, List.drop_left, ← tr.len, List.drop_left, tr.len] at ed
  exact ed

/-- The iteration before the segment works on the whole memory. -/
lemma Tracked.before (tr : Tracked t marks u) :
    Tracked t (marks.visit noFast t .before) (u.step noFast .before) := by
  have steps : patchSite noFast (t.below.length - 1) u.whole = _ := tr.edited.patchSite_eq
  rw [Marks.visit]
  generalize is : siteEdit noFast marks.loads.contains (marks.traps.contains (t.below.length - 1 + 1)) t.whole.base
    (t.below.length - 1) = e at steps ⊢
  have next := tr.edited.apply is
  have whole : (u.step noFast .before).whole.base = (patchSite noFast (t.below.length - 1) u.whole).base := by
    rw [SegmentState.step, tr.len]
    exact List.take_append_drop _ _
  have len : (u.step noFast .before).below.length = t.below.length := by
    have long := next.len
    rw [← steps, @whole_base t, List.length_append] at long
    rw [SegmentState.step, tr.len, List.length_take]
    change min _ (patchSite noFast (t.below.length - 1) u.whole).base.length = _
    omega
  rw [← steps, ← whole] at next
  cases e with
  | keep =>
    simp only [Edit.loads, Edit.traps, Bool.or_false] at next
    exact ⟨len, tr.apart, next⟩
  | number m =>
    have early := (siteEdit_number is).1
    simp only [Edit.loads, Edit.traps, Bool.or_false] at next
    rw [← contains_cons_eq, ← Nat.zero_add m] at next
    exact ⟨len, List.forall_mem_cons.mpr ⟨fun _ => by omega, tr.apart⟩, next⟩
  | ud2 =>
    simp only [Edit.loads, Edit.traps, Bool.or_false] at next
    rw [← contains_cons_eq, ← Nat.zero_add (t.below.length - 1 + 1)] at next
    exact ⟨len, tr.apart, next⟩

lemma rewriteImm_append {a b : Buf} {m n : ℕ} : rewriteImm (a ++ b) (a.length + m) n = a ++ rewriteImm b m n := by
  simp [rewriteImm, Nat.add_assoc, List.set_append_right]

/-- An iteration in the segment sees no byte below it. -/
lemma Tracked.site (tr : Tracked t marks u) {i : ℕ} :
    Tracked t (marks.visit noFast t (.site i)) (u.step noFast (.site i)) := by
  have steps : patchSite noFast i u.patch = _ := tr.segment.patchSite_eq
  rw [Marks.visit, SegmentState.step, steps]
  generalize is : siteEdit noFast (fun m => marks.loads.contains (t.below.length + m))
    (marks.traps.contains (t.below.length + (i + 1))) t.patch.base i = e
  have at_base (k : ℕ) : byte t.whole.base (t.below.length + k) = byte t.patch.base k := byte_append_right
  cases e with
  | keep => exact tr
  | number m =>
    have number : linuxAt t.whole.base (t.below.length + m) = linuxAt t.patch.base m := by
      rw [linuxAt, linuxAt, bsdNr, bsdNr, Nat.add_assoc, Nat.add_assoc, at_base, at_base]
    have load : FastLoad t.whole.base (t.below.length + m) := by
      obtain ⟨op, lo, lo', hi, b3, b4, newLo, newHi⟩ := (siteEdit_number is).2
      constructor <;> simpa only [at_base, number, Nat.add_assoc]
    have next := tr.edited.rewrite load
    rw [← contains_cons_eq, number, @whole_base u, ← tr.len, rewriteImm_append, tr.len] at next
    exact ⟨tr.len, List.forall_mem_cons.mpr ⟨fun lt => by omega, tr.apart⟩, next⟩
  | ud2 =>
    have sys : isSyscall t.whole.base (t.below.length + i) = true := by
      rw [isSyscall, Nat.add_assoc, at_base, at_base]
      exact (siteEdit_ud2 is).1
    have next := tr.edited.makeUd2 sys
    rw [Nat.add_assoc, ← contains_cons_eq, @whole_base u, ← tr.len, List.set_append_right _ _ (by omega),
      Nat.add_sub_cancel_left, tr.len] at next
    exact ⟨tr.len, tr.apart, next⟩

lemma Tracked.init : Tracked t ⟨[], []⟩ t :=
  ⟨rfl, fun _ hm => absurd hm List.not_mem_nil, Edited.init⟩

/-- The run lemma: the stores of all iterations are in the marks. -/
lemma Tracked.foldl (tr : Tracked t marks u) :
    Tracked t (steps.foldl (Marks.visit noFast t) marks) (steps.foldl (SegmentState.step noFast) u) := by
  induction steps generalizing marks u with
  | nil => exact tr
  | cons a steps ih =>
    apply ih
    cases a with
    | before => exact tr.before
    | site i => exact tr.site

def Bounded (seg : LoadedSegment) : ScanStep → Prop
  | .before => 0 < seg.vmsize.toNat
  | .site i => i + 1 < seg.vmsize.toNat

/-- The stores are below the segment or in it. -/
def Marks.Within (marks : Marks) (n : ℕ) : Prop := (∀ m ∈ marks.loads, m + 4 < n) ∧ ∀ k ∈ marks.traps, k < n

/-- An iteration marks nothing behind the segment. -/
lemma within_visit (bounded : Bounded seg a) (before : marks.Within (t.below.length + seg.vmsize.toNat)) :
    (marks.visit noFast t a).Within (t.below.length + seg.vmsize.toNat) := by
  cases a with
  | before =>
    have room : 0 < seg.vmsize.toNat := bounded
    rw [Marks.visit]
    generalize is : siteEdit noFast marks.loads.contains (marks.traps.contains (t.below.length - 1 + 1)) t.whole.base
      (t.below.length - 1) = e
    cases e with
    | keep => exact before
    | number m =>
      have early := (siteEdit_number is).1
      exact ⟨List.forall_mem_cons.mpr ⟨by omega, before.1⟩, before.2⟩
    | ud2 =>
      have late := (siteEdit_ud2 is).2
      exact ⟨before.1, List.forall_mem_cons.mpr ⟨by omega, before.2⟩⟩
  | site i =>
    have room : i + 1 < seg.vmsize.toNat := bounded
    rw [Marks.visit]
    generalize is : siteEdit noFast (fun m => marks.loads.contains (t.below.length + m))
      (marks.traps.contains (t.below.length + (i + 1))) t.patch.base i = e
    cases e with
    | keep => exact before
    | number m =>
      have early := (siteEdit_number is).1
      exact ⟨List.forall_mem_cons.mpr ⟨by omega, before.1⟩, before.2⟩
    | ud2 => exact ⟨before.1, List.forall_mem_cons.mpr ⟨by omega, before.2⟩⟩

lemma within_foldl (bounded : ∀ a ∈ steps, Bounded seg a) (before : marks.Within (t.below.length + seg.vmsize.toNat)) :
    (steps.foldl (Marks.visit noFast t) marks).Within (t.below.length + seg.vmsize.toNat) := by
  induction steps generalizing marks with
  | nil => exact before
  | cons a steps ih =>
    obtain ⟨first, later⟩ := List.forall_mem_cons.mp bounded
    exact ih later (within_visit first before)

lemma mem_rangeSteps {rangeStart rangeLen : ℕ} (here : a ∈ rangeSteps seg rangeStart rangeLen) :
    (a = .before ∧ 0 < rangeEnd seg rangeStart rangeLen) ∨
      ∃ i, a = .site i ∧ i + 1 < rangeEnd seg rangeStart rangeLen ∧
        (rangeStart = 2 ^ 64 - 1 ∨ rangeStart ≤ i) := by
  unfold rangeSteps at here
  dsimp only at here
  split at here
  next wraps =>
    split at here
    next room =>
      rcases List.mem_cons.mp here with rfl | here
      · exact .inl ⟨rfl, room⟩
      · obtain ⟨i, lt, rfl⟩ := List.mem_map.mp here
        rw [List.mem_range] at lt
        exact .inr ⟨i, rfl, by omega, .inl wraps⟩
    next => cases here
  next =>
    obtain ⟨i, within, rfl⟩ := List.mem_map.mp here
    rw [List.mem_range'_1] at within
    exact .inr ⟨i, rfl, by omega, .inr within.1⟩

lemma bounded_rangeSteps {rangeStart rangeLen : ℕ} (here : a ∈ rangeSteps seg rangeStart rangeLen) :
    Bounded seg a := by
  have inside : rangeEnd seg rangeStart rangeLen ≤ seg.vmsize.toNat := Nat.min_le_right _ _
  rcases mem_rangeSteps here with ⟨rfl, room⟩ | ⟨i, rfl, lt, -⟩
  · exact room.trans_le inside
  · exact lt.trans_le inside

/-- Every iteration starts in the segment or just before it. -/
lemma bounded_segmentSteps (here : a ∈ segmentSteps writable seg sections) : Bounded seg a := by
  unfold segmentSteps at here
  split at here
  · cases here
  split at here
  · exact bounded_rangeSteps here
  · obtain ⟨sec, -, here⟩ := List.mem_flatMap.mp here
    exact bounded_rangeSteps here

/-- Every segment, every arrangement of its sections and every contents of the memory: data stays as it is just if
    every rewritten number is in the code, or has the bytes of the Linux number outside of it, and every `ud2` is
    made in the code. -/
theorem code_sections_only_iff :
    (∀ k, k < seg.vmsize.toNat → ¬InCode seg sections k →
        byte (patchSyscallsInSegment noFast writable seg sections t).patch.base k = byte t.patch.base k) ↔
      (∀ m, t.below.length + m ∈ (scanMarks noFast t (segmentSteps writable seg sections)).loads →
          NumberInCode (InCode seg sections) t.patch.base m) ∧
        ∀ k, t.below.length + k ∈ (scanMarks noFast t (segmentSteps writable seg sections)).traps →
          InCode seg sections k := by
  have tracked := @Tracked.foldl noFast t t (segmentSteps writable seg sections) _ .init
  obtain ⟨loads, traps⟩ := @within_foldl noFast seg t (segmentSteps writable seg sections) ⟨[], []⟩
    (fun a mem => bounded_segmentSteps mem) ⟨by simp, by simp⟩
  simp only [← List.contains_iff_mem] at loads traps ⊢
  refine tracked.segment.unchanged_iff (fun m hm => ?_) fun k hk => ?_
  · have := loads _ hm
    omega
  · have := traps _ hk
    omega

/-- The number of `write` and a `syscall`. The number lies in the data before the code, and is rewritten there. -/
theorem data_before_code_patched :
    let seg : LoadedSegment := ⟨0x1000, 7, 5, 5, ascii "__TEXT", false⟩
    let sections : List LoadedSection :=
      [⟨ascii "__const", ascii "__TEXT", 0x1000, 5, 0, 0, 0, 0⟩,
       ⟨ascii "__text", ascii "__TEXT", 0x1005, 2, 0, 0x80000400, 0, 0⟩]
    let t : SegmentState := ⟨[], ⟨[0xB8, 0x04, 0x00, 0x00, 0x20, 0x0F, 0x05], 0, 0⟩⟩
    codeSections seg sections ≠ [] ∧ ¬InCode seg sections 4 ∧
      (patchSyscallsInSegment false true seg sections t).patch.base =
        [0xB8, 0x01, 0x00, 0x00, 0x00, 0x0F, 0x05] := by
  decide +kernel

end Runs

end Macify.Syscall
