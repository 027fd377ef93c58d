import Macify.Dylib.Registry
import Macify.Image.Segments

/-!
# Recognising the guest's code

The shim's table of `__TEXT` ranges (`shim/shim_core.c`). `macho_load_dylib` (`src/macho_dylib.c`) adds the range of a
file as soon as the file is mapped, before it loads the dependencies, and `main` (`src/main.c`) sets that of the main
image after all loads. Main result: `caller_is_guest_iff`.
-/

namespace Macify.Dylib
open Lib Image

def maxTextRanges : ℕ := 64

structure TextRanges where
  lo : W64
  hi : W64
  ranges : List (W64 × W64)

def addTextRange (t : TextRanges) (lo hi : W64) : TextRanges :=
  if lo = 0 ∨ hi ≤ lo then t
  else if t.ranges.contains (lo, hi) then t
  else if maxTextRanges ≤ t.ranges.length then t
  else { t with ranges := t.ranges ++ [(lo, hi)] }

def setTextRange (t : TextRanges) (lo hi : W64) : TextRanges := addTextRange { t with lo := lo, hi := hi } lo hi

def inRange (a : W64) (r : W64 × W64) : Bool := decide (r.1 ≤ a) && decide (a < r.2)

def callerIsMacosText (t : TextRanges) (a : W64) : Bool :=
  if t.lo = 0 ∨ t.hi = 0 then false else inRange a (t.lo, t.hi) || t.ranges.any (inRange a)

def isText (seg : SegmentCommand) : Bool := seg.segname == ascii "__TEXT" && decide (0 < seg.vmsize)

def noteDylib (env : LoadEnv) (t : TextRanges) (mp : Mapping) : TextRanges :=
  match (env.fs.load mp.path).bind fun f => f.segments.find? isText with
  | none => t
  | some seg => addTextRange t (seg.vmaddr + mp.slide) (seg.vmaddr + mp.slide + seg.vmsize)

def noteMain (segs : List LoadedSegment) (t : TextRanges) : TextRanges :=
  match segs.find? fun e => e.name == ascii "__TEXT" with
  | none => t
  | some e => setTextRange t e.vmaddr (e.vmaddr + e.vmsize)

def textAtEntry (env : LoadEnv) (st : Loader) (slide : W64) (cmds : List SegmentCommand) : TextRanges :=
  noteMain (cmds.flatMap (segmentEntries slide)) (st.loaded.foldl (noteDylib env) ⟨0, 0, []⟩)

def Slid (seg : SegmentCommand) (slide a : W64) : Prop :=
  (seg.vmaddr + slide).toNat ≤ a.toNat ∧ a.toNat < (seg.vmaddr + slide).toNat + seg.vmsize.toNat

def InText (segs : List SegmentCommand) (slide a : W64) : Prop :=
  ∃ seg ∈ segs, isText seg = true ∧ Slid seg slide a

/-- There is one `__TEXT` that is not empty, and it is mapped: neither at address zero nor past the last address. -/
structure OneText (segs : List SegmentCommand) (slide : W64) (text : SegmentCommand) : Prop where
  mem : text ∈ segs
  isText : isText text = true
  only : ∀ seg ∈ segs, Dylib.isText seg = true → seg = text
  start : text.vmaddr + slide ≠ 0
  fits : (text.vmaddr + slide).toNat + text.vmsize.toNat < 2 ^ 64

section Lemmas

variable {t : TextRanges} {lo hi a slide : W64} {env : LoadEnv} {segs cmds : List SegmentCommand}
  {text : SegmentCommand} {st st' : Loader} {paths : List Buf} {mps : List Mapping}

lemma addTextRange_length : (addTextRange t lo hi).ranges.length ≤ t.ranges.length + 1 := by
  unfold addTextRange
  split_ifs
  · exact Nat.le_succ _
  · exact Nat.le_succ _
  · exact Nat.le_succ _
  · exact (List.length_append ..).le

lemma addTextRange_any (ne : lo ≠ 0) (lt : lo < hi) (room : t.ranges.length < maxTextRanges) :
    (addTextRange t lo hi).ranges.any (inRange a) = true ↔
      t.ranges.any (inRange a) = true ∨ inRange a (lo, hi) = true := by
  rw [addTextRange, if_neg (not_or.mpr ⟨ne, BitVec.not_le.mpr lt⟩)]
  by_cases there : t.ranges.contains (lo, hi) = true
  · rw [if_pos there]
    refine (or_iff_left_of_imp fun inside => ?_).symm
    exact List.any_eq_true.mpr ⟨_, List.contains_iff_mem.mp there, inside⟩
  · rw [if_neg there, if_neg (Nat.not_le.mpr room), List.any_append, Bool.or_eq_true, List.any_cons, List.any_nil,
      Bool.or_false]

lemma find?_of_unique {α : Type*} {p : α → Bool} {l : List α} {x : α} (mem : x ∈ l) (holds : p x = true)
    (only : ∀ y ∈ l, p y = true → y = x) : l.find? p = some x := by
  cases found : l.find? p with
  | none => exact absurd holds (List.find?_eq_none.mp found x mem)
  | some y => rw [only y (List.mem_of_find?_eq_some found) (List.find?_some found)]

namespace OneText

variable (one : OneText segs slide text)
include one

lemma pos : 0 < text.vmsize.toNat := by
  have filled := (Bool.and_eq_true_iff.mp one.isText).2
  exact BitVec.lt_def.mp (of_decide_eq_true filled)

lemma toNat_end : (text.vmaddr + slide + text.vmsize).toNat = (text.vmaddr + slide).toNat + text.vmsize.toNat := by
  rw [BitVec.toNat_add, Nat.mod_eq_of_lt one.fits]

lemma lt : text.vmaddr + slide < text.vmaddr + slide + text.vmsize := by
  have pos := one.pos
  rw [BitVec.lt_def, one.toNat_end]
  omega

lemma inRange_iff :
    inRange a (text.vmaddr + slide, text.vmaddr + slide + text.vmsize) = true ↔ InText segs slide a := by
  rw [inRange, Bool.and_eq_true, decide_eq_true_eq, decide_eq_true_eq, BitVec.le_def, BitVec.lt_def, one.toNat_end]
  constructor
  · exact fun inside => ⟨text, one.mem, one.isText, inside⟩
  · rintro ⟨seg, mem, isText, inside⟩
    rwa [one.only seg mem isText] at inside

lemma find_entry :
    (segs.flatMap (segmentEntries slide)).find? (fun e => e.name == ascii "__TEXT") =
      some (mappedEntry slide text) := by
  have named : text.segname = ascii "__TEXT" := beq_iff_eq.mp (Bool.and_eq_true_iff.mp one.isText).1
  have filled : text.vmsize ≠ 0 := fun zero => absurd one.pos (by rw [zero]; decide)
  refine find?_of_unique (List.mem_flatMap.mpr ⟨text, one.mem, ?_⟩) ?_ fun e mem name => ?_
  · rw [segmentEntries, if_neg filled, SegmentCommand.isPagezero, named, if_neg (by decide)]
    exact List.mem_singleton_self _
  · show (text.segname.take 15 == ascii "__TEXT") = true
    rw [named]
    decide
  · obtain ⟨seg, mem, entry⟩ := List.mem_flatMap.mp mem
    have short : seg.segname.take 15 = ascii "__TEXT" → seg.segname = ascii "__TEXT" := by
      intro eq
      have six := congrArg List.length eq
      rw [List.length_take] at six
      rw [← eq, List.take_of_length_le]
      exact Nat.le_of_lt (by change min 15 _ = 6 at six; omega)
    unfold segmentEntries at entry
    split_ifs at entry with zero pagezero
    · cases entry
    · obtain rfl := List.mem_singleton.mp entry
      rw [SegmentCommand.isPagezero, short (beq_iff_eq.mp name)] at pagezero
      exact absurd pagezero (by decide)
    · obtain rfl := List.mem_singleton.mp entry
      refine congrArg (mappedEntry slide) (one.only seg (by assumption) ?_)
      rw [Dylib.isText, short (beq_iff_eq.mp name), beq_self_eq_true, Bool.true_and, decide_eq_true_eq, BitVec.lt_def]
      exact Nat.pos_of_ne_zero fun none => zero (BitVec.eq_of_toNat_eq none)

end OneText

lemma Loads.files (run : Loads env paths st st') :
    ∀ mp ∈ st'.loaded, mp ∈ st.loaded ∨ ∃ f, env.fs.load mp.path = some f := by
  induction run with
  | nil => exact fun mp mem => .inl mem
  | inert _ _ ih => exact ih
  | failed _ _ _ _ ih =>
    rw [countMap_loaded, reserve_loaded] at ih
    exact ih
  | loaded _ file _ _ _ ihd ih =>
    rw [publish_loaded] at ih
    rw [opened_loaded] at ihd
    intro mp mem
    rcases ih mp mem with mem | read
    · rcases ihd mp mem with mem | read
      · rcases List.mem_append.mp mem with mem | mem
        · exact .inl mem
        · obtain rfl := List.mem_singleton.mp mem
          exact .inr ⟨_, file⟩
      · exact .inr read
    · exact .inr read

lemma foldl_noteDylib (texts : ∀ mp ∈ mps, ∃ f text, env.fs.load mp.path = some f ∧ OneText f.segments mp.slide text)
    (room : t.ranges.length + mps.length ≤ maxTextRanges) :
    (mps.foldl (noteDylib env) t).ranges.length ≤ t.ranges.length + mps.length ∧
      ((mps.foldl (noteDylib env) t).ranges.any (inRange a) = true ↔
        t.ranges.any (inRange a) = true ∨
          ∃ mp ∈ mps, ∃ f, env.fs.load mp.path = some f ∧ InText f.segments mp.slide a) := by
  induction mps generalizing t with
  | nil => exact ⟨Nat.le_refl _, by simp⟩
  | cons mp mps ih =>
    obtain ⟨f, text, file, one⟩ := texts mp (.head _)
    have note : noteDylib env t mp =
        addTextRange t (text.vmaddr + mp.slide) (text.vmaddr + mp.slide + text.vmsize) := by
      rw [noteDylib, file, Option.bind_some, find?_of_unique one.mem one.isText one.only]
    rw [List.length_cons] at room
    have more := @addTextRange_length t (text.vmaddr + mp.slide) (text.vmaddr + mp.slide + text.vmsize)
    obtain ⟨length, covers⟩ := @ih (noteDylib env t mp) (fun mp mem => texts mp (.tail _ mem)) (by rw [note]; omega)
    refine ⟨by rw [List.foldl_cons, List.length_cons]; rw [note] at length ⊢; omega, ?_⟩
    rw [List.foldl_cons, covers, note, addTextRange_any one.start one.lt (by omega), one.inRange_iff, or_assoc]
    refine or_congr_right ⟨?_, ?_⟩
    · rintro (inside | ⟨mp', mem, rest⟩)
      · exact ⟨mp, .head _, f, file, inside⟩
      · exact ⟨mp', .tail _ mem, rest⟩
    · rintro ⟨mp', mem, f', file', inside⟩
      rcases List.mem_cons.mp mem with rfl | mem
      · cases file.symm.trans file'
        exact .inl inside
      · exact .inr ⟨mp', mem, f', file', inside⟩

end Lemmas

/-- With fewer than 64 files loaded: just if the address is in the `__TEXT` of the main image or of a loaded file. -/
theorem caller_is_guest_iff (env : LoadEnv) (paths : List Buf) (st : Loader) (slide : W64)
    (cmds : List SegmentCommand) (run : Loads env paths .init st) (few : st.loaded.length < maxTextRanges)
    (main : ∃ text, OneText cmds slide text)
    (dylibs : ∀ mp ∈ st.loaded, ∀ f, env.fs.load mp.path = some f → ∃ text, OneText f.segments mp.slide text)
    (a : W64) :
    callerIsMacosText (textAtEntry env st slide cmds) a = true ↔
      InText cmds slide a ∨ ∃ mp ∈ st.loaded, ∃ f, env.fs.load mp.path = some f ∧ InText f.segments mp.slide a := by
  obtain ⟨text, one⟩ := main
  have texts : ∀ mp ∈ st.loaded, ∃ f text, env.fs.load mp.path = some f ∧ OneText f.segments mp.slide text := by
    intro mp mem
    obtain ⟨f, file⟩ := (run.files mp mem).resolve_left List.not_mem_nil
    obtain ⟨text, one⟩ := dylibs mp mem f file
    exact ⟨f, text, file, one⟩
  obtain ⟨length, covers⟩ := @foldl_noteDylib ⟨0, 0, []⟩ a env st.loaded texts (by rw [List.length_nil]; omega)
  rw [List.length_nil] at length
  rw [textAtEntry, noteMain, one.find_entry]
  generalize st.loaded.foldl (noteDylib env) ⟨0, 0, []⟩ = t at length covers
  have set : (addTextRange { t with lo := text.vmaddr + slide, hi := text.vmaddr + slide + text.vmsize }
      (text.vmaddr + slide) (text.vmaddr + slide + text.vmsize)).lo = text.vmaddr + slide ∧
      (addTextRange { t with lo := text.vmaddr + slide, hi := text.vmaddr + slide + text.vmsize }
      (text.vmaddr + slide) (text.vmaddr + slide + text.vmsize)).hi = text.vmaddr + slide + text.vmsize := by
    unfold addTextRange
    split_ifs <;> exact ⟨rfl, rfl⟩
  have behind : text.vmaddr + slide + text.vmsize ≠ 0 := fun zero => by
    have lt := one.lt
    rw [zero] at lt
    exact absurd lt (BitVec.not_lt_zero)
  dsimp only [setTextRange, mappedEntry]
  rw [callerIsMacosText, set.1, set.2, if_neg (not_or.mpr ⟨one.start, behind⟩), Bool.or_eq_true,
    addTextRange_any one.start one.lt (by dsimp only; omega), covers, one.inRange_iff]
  constructor
  · rintro (inside | (none | inside) | inside)
    · exact .inl inside
    · cases none
    · exact .inr inside
    · exact .inl inside
  · rintro (inside | inside)
    · exact .inl inside
    · exact .inr (.inl (.inr inside))

theorem caller_is_guest_two :
    ∃ st, Loads twoDylibsEnv [ascii "/a.dylib"] .init st ∧ st.loaded.length = 2 ∧
      callerIsMacosText (textAtEntry twoDylibsEnv st 0 [⟨ascii "__TEXT", 0x8000, 0x1000, 0, 0x1000, 5, []⟩]) 0x20010 =
        true := by
  obtain ⟨st, call, loaded, -⟩ := twoDylibs_run
  have run : Loads twoDylibsEnv [ascii "/a.dylib"] .init st := @loads_of_loadDeps _ 2 _ _ _ (by
    rw [loadDeps_cons, call]
    rfl)
  have one : ∀ vmaddr slide : W64, vmaddr + slide ≠ 0 → (vmaddr + slide).toNat + 0x1000 < 2 ^ 64 →
      ∃ text, OneText [⟨ascii "__TEXT", vmaddr, 0x1000, 0, 0x1000, 5, []⟩] slide text := fun vmaddr slide start fits =>
    ⟨_, List.mem_singleton_self _, rfl, fun seg mem _ => List.mem_singleton.mp mem, start, fits⟩
  have dylibs : ∀ mp ∈ st.loaded, ∀ f, twoDylibsEnv.fs.load mp.path = some f →
      ∃ text, OneText f.segments mp.slide text := by
    rw [loaded]
    intro mp mem f file
    rcases List.mem_cons.mp mem with rfl | mem
    · cases file
      exact one 0 0x10000 (by decide) (by decide)
    · obtain rfl := List.mem_singleton.mp mem
      cases file
      exact one 0 0x20000 (by decide) (by decide)
  refine ⟨st, run, by rw [loaded]; rfl, (caller_is_guest_iff twoDylibsEnv [ascii "/a.dylib"] st 0
    [⟨ascii "__TEXT", 0x8000, 0x1000, 0, 0x1000, 5, []⟩] run (by rw [loaded]; decide)
    (one 0x8000 0 (by decide) (by decide)) dylibs 0x20010).mpr
      (.inr ⟨⟨ascii "/b.dylib", 0x20000, 0x20000⟩, ?_, smallDylib [] (ascii "_fb"), rfl, ?_⟩)⟩
  · rw [loaded]
    exact .tail _ (.head _)
  · exact ⟨_, List.mem_singleton_self _, rfl, by decide, by decide⟩

end Macify.Dylib
