import Macify.Entry.InlineStdio
import Macify.Image.Reservation
import Macify.Lib.BitSets

/-!
# Rights of pages at the entry point

The passes of `main` (`src/main.c`) that call `mprotect` on the main image, with every call successful. The rewriters
leave a page readable and executable and record nothing, and the last loop passes over a segment whose recorded rights
are those of the file. Main result: `file_rights_iff`.
-/

namespace Macify.Image.Protections
open Lib
open Space (Within pageOf pagesOf)
open Placement (needsMemory)
open Entry (Rewriter Rewrite getcLoop eofLoop putcLoop afterGetc afterSeof)

abbrev RX : W32 := PROT_READ ||| PROT_EXEC
abbrev RW : W32 := PROT_READ ||| PROT_WRITE
abbrev RWX : W32 := PROT_READ ||| PROT_WRITE ||| PROT_EXEC

abbrev Rights := Space W32

def OnPage (e : LoadedSegment) (q : ℕ) : Prop :=
  e.isPagezero = false ∧ Within (pageOf e.vmaddr) (pagesOf e.vmsize) q

def protect (m : Rights) (e : LoadedSegment) (rights : W32) : Rights :=
  m.change (pageOf e.vmaddr) (pagesOf e.vmsize) fun _ => rights

def mapPages (m : Rights) (e : LoadedSegment) : Rights :=
  if e.isPagezero then m else m.map (pageOf e.vmaddr) (pagesOf e.vmsize) e.prot

def patchPages (m : Rights) (e : LoadedSegment) : Rights :=
  if e.prot &&& PROT_EXEC = 0 ∨ e.isPagezero then m else protect (protect m e RWX) e e.targetProt

def patchEntry (e : LoadedSegment) : LoadedSegment :=
  if e.prot &&& PROT_EXEC = 0 ∨ e.isPagezero then e else { e with prot := e.targetProt }

def rewritePage (m : Rights) (p : ℕ) : Rights := (m.change p 1 fun _ => RWX).change p 1 fun _ => RX

def enforcePages (m : Rights) (e : LoadedSegment) : Rights :=
  if e.isPagezero ∨ e.prot = e.targetProt then m else protect m e e.targetProt

def rewriterPages (r : Rewriter) (t : Code) : List ℕ :=
  (r.offsets.foldl (fun st i => (r.step st.1 i, st.2 ++ ((r.rewrite st.1.1 i).elim [] Rewrite.writable)))
    ((t, 0), ([] : List ℕ))).2

/-- What the passes find: the code of `__text` after the patches, `MACIFY_PATCH_EOF`, and three addresses. -/
structure Found where
  code : Code
  patchEof : Bool
  symbols : List W64

section Passes

variable (slide : W64) (cmds : List SegmentCommand) (found : Found) (m : Rights)

def entries : List LoadedSegment := cmds.flatMap (segmentEntries slide)

def grantsAll (_ : ℕ) : Bool := true

def touched : List ℕ :=
  let text := findSection (cmds.flatMap (sectionEntries slide)) (ascii "__TEXT") (ascii "__text")
  let inText := text.elim [] fun s =>
    let addr := s.addr.toNat
    let size := s.size.toNat
    rewriterPages (getcLoop grantsAll addr size) found.code ++
      rewriterPages (eofLoop grantsAll addr size found.patchEof found.code)
        (afterGetc grantsAll addr size found.code).1 ++
      rewriterPages (putcLoop grantsAll addr size) (afterSeof grantsAll addr size found.patchEof found.code)
  inText ++ if slide = 0 then [] else found.symbols.map pageOf

def atEntry : Rights :=
  let table := entries slide cmds
  let mapped := table.foldl mapPages m
  let patched := table.foldl patchPages mapped
  let rewritten := (touched slide cmds found).foldl rewritePage patched
  (table.map patchEntry).foldl enforcePages rewritten

/-- Every page of a segment has the rights of the file, and none can be both written and executed. -/
def FileRights : Prop :=
  ∀ seg ∈ cmds, needsMemory seg = true → ∀ q, Within (pageOf (seg.vmaddr + slide)) (pagesOf seg.vmsize) q →
    ∃ rights, atEntry slide cmds found m q = some rights ∧ rights = seg.initprot &&& 7 ∧
      ¬(rights &&& PROT_WRITE ≠ 0 ∧ rights &&& PROT_EXEC ≠ 0)

/-- Segments with pages of their own, which are read and executed if they are executed. -/
structure WellFormed : Prop where
  apart : (entries slide cmds).Pairwise fun a b => ∀ q, OnPage a q → ¬OnPage b q
  executable : ∀ seg ∈ cmds, seg.initprot &&& VM_PROT_EXECUTE ≠ 0 → seg.initprot &&& 7 = RX

end Passes

section Lemmas

variable {slide : W64} {cmds : List SegmentCommand} {found : Found} {m : Rights} {e : LoadedSegment}
  {seg : SegmentCommand} {q : ℕ} {rights : W32}

lemma protect_on (on : OnPage e q) : protect m e rights q = (m q).map fun _ => rights := Space.change_within on.2

lemma mapPages_other (other : ¬OnPage e q) : mapPages m e q = m q := by
  unfold mapPages
  split
  next => rfl
  next some => exact Space.map_outside fun within => other ⟨Bool.eq_false_of_not_eq_true some, within⟩

lemma protect_other (some : e.isPagezero = false) (other : ¬OnPage e q) : protect m e rights q = m q :=
  Space.change_outside fun within => other ⟨some, within⟩

lemma patchPages_other (other : ¬OnPage e q) : patchPages m e q = m q := by
  unfold patchPages
  split
  next => rfl
  next skip =>
    have some := Bool.eq_false_of_not_eq_true fun zero => skip (.inr zero)
    rw [protect_other some other, protect_other some other]

lemma enforcePages_other (other : ¬OnPage e q) : enforcePages m e q = m q := by
  unfold enforcePages
  split
  next => rfl
  next skip => exact protect_other (Bool.eq_false_of_not_eq_true fun zero => skip (.inl zero)) other

lemma foldl_rewritePage {pages : List ℕ} (mapped : m q = some rights) :
    pages.foldl rewritePage m q = some (if q ∈ pages then RX else rights) := by
  induction pages generalizing m rights with
  | nil => exact mapped
  | cons p pages ih =>
    by_cases here : q = p
    · subst here
      have rewritten : rewritePage m q q = some RX := by
        have within : Within q 1 q := ⟨Nat.le_refl q, Nat.lt_succ_self q⟩
        rw [rewritePage, Space.change_within within, Space.change_within within, mapped]
        rfl
      rw [List.foldl_cons, ih rewritten, if_pos List.mem_cons_self, ite_self]
    · have kept : rewritePage m p q = some rights := by
        have outside : ¬Within p 1 q := fun within => here (by unfold Within at within; omega)
        rw [rewritePage, Space.change_outside outside, Space.change_outside outside, mapped]
      rw [List.foldl_cons, ih kept]
      simp only [List.mem_cons, here, false_or]

lemma onPage_patchEntry : OnPage (patchEntry e) q ↔ OnPage e q := by
  unfold patchEntry
  split <;> rfl

lemma protFromMacos_eq {prot : W32} : protFromMacos prot = prot &&& 7 := by
  have single : ∀ n < 32, (if prot &&& (1 : W32) <<< n ≠ 0 then (1 : W32) <<< n else 0#32) =
      prot &&& (1 : W32) <<< n := by
    intro n lt
    split
    next ne => exact ((and_single_cases lt).resolve_left ne).symm
    next zero => exact (not_not.mp zero).symm
  have parts : protFromMacos prot =
      prot &&& (1 : W32) <<< 0 ||| prot &&& (1 : W32) <<< 1 ||| prot &&& (1 : W32) <<< 2 := by
    rw [← single 0 (by decide), ← single 1 (by decide), ← single 2 (by decide)]
    rfl
  rw [parts, ← BitVec.and_or_distrib_left, ← BitVec.and_or_distrib_left]
  rfl

lemma mappedEntry_mem (mem : seg ∈ cmds) (needs : needsMemory seg = true) :
    mappedEntry slide seg ∈ entries slide cmds := by
  unfold needsMemory at needs
  rw [Bool.and_eq_true, Bool.not_eq_true', decide_eq_true_eq] at needs
  refine List.mem_flatMap.mpr ⟨seg, mem, ?_⟩
  rw [segmentEntries, if_neg fun zero => ?_, if_neg (by rw [needs.1]; exact Bool.false_ne_true)]
  · exact List.mem_singleton_self _
  · rw [zero] at needs
    exact absurd needs.2 (by decide)

lemma mappedEntry_onPage (within : Within (pageOf (seg.vmaddr + slide)) (pagesOf seg.vmsize) q) :
    OnPage (mappedEntry slide seg) q := ⟨rfl, within⟩

lemma rewritten_page (apart : (entries slide cmds).Pairwise fun a b => ∀ q, OnPage a q → ¬OnPage b q)
    (mem : e ∈ entries slide cmds) (on : OnPage e q) :
    (touched slide cmds found).foldl rewritePage
        ((entries slide cmds).foldl patchPages ((entries slide cmds).foldl mapPages m)) q =
      some (if q ∈ touched slide cmds found then RX else
        if e.prot &&& PROT_EXEC = 0 then e.prot else e.targetProt) := by
  have some : ¬e.isPagezero = true := by
    rw [on.1]
    exact Bool.false_ne_true
  obtain ⟨m₁, -, mapped⟩ := @Space.foldl_local _ _ OnPage mapPages m _ e q (fun _ _ _ => mapPages_other) apart mem on
  rw [mapPages, if_neg some, Space.map_within on.2] at mapped
  obtain ⟨m₂, same, patched⟩ := @Space.foldl_local _ _ OnPage patchPages ((entries slide cmds).foldl mapPages m) _ e q
    (fun _ _ _ => patchPages_other) apart mem on
  refine foldl_rewritePage (patched.trans ?_)
  rw [mapped] at same
  unfold patchPages
  by_cases exec : e.prot &&& PROT_EXEC = 0
  · rw [if_pos (.inl exec), if_pos exec, same]
  · rw [if_neg (not_or.mpr ⟨exec, some⟩), if_neg exec, protect_on on, protect_on on, same]
    rfl

lemma atEntry_page (apart : (entries slide cmds).Pairwise fun a b => ∀ q, OnPage a q → ¬OnPage b q)
    (mem : e ∈ entries slide cmds) (on : OnPage e q) :
    atEntry slide cmds found m q =
      some (if (patchEntry e).prot ≠ e.targetProt then e.targetProt
        else if q ∈ touched slide cmds found then RX
        else if e.prot &&& PROT_EXEC = 0 then e.prot else e.targetProt) := by
  have some : ¬(patchEntry e).isPagezero = true := by
    rw [(onPage_patchEntry.mpr on).1]
    exact Bool.false_ne_true
  have apart' : ((entries slide cmds).map patchEntry).Pairwise fun a b => ∀ q, OnPage a q → ¬OnPage b q := by
    rw [List.pairwise_map]
    exact apart.imp fun {a b} ne q => by
      rw [onPage_patchEntry, onPage_patchEntry]
      exact ne q
  obtain ⟨m', same, final⟩ := @Space.foldl_local _ _ OnPage enforcePages _ _ (patchEntry e) q
    (fun _ _ _ => enforcePages_other) apart' (List.mem_map_of_mem mem) (onPage_patchEntry.mpr on)
  refine final.trans ?_
  rw [rewritten_page apart mem on] at same
  have target : (patchEntry e).targetProt = e.targetProt := by
    unfold patchEntry
    split <;> rfl
  unfold enforcePages
  by_cases recorded : (patchEntry e).prot = e.targetProt
  · rw [if_pos (.inr (recorded.trans target.symm)), if_neg (not_not.mpr recorded), same]
  · rw [if_neg (not_or.mpr ⟨some, by rw [target]; exact recorded⟩), if_pos recorded,
      protect_on (onPage_patchEntry.mpr on), same, target]
    rfl

lemma atEntry_segment (wf : WellFormed slide cmds) (mem : seg ∈ cmds) (needs : needsMemory seg = true)
    (within : Within (pageOf (seg.vmaddr + slide)) (pagesOf seg.vmsize) q) :
    atEntry slide cmds found m q =
      some (if seg.initprot &&& 7 = RW ∧ q ∈ touched slide cmds found then RX else seg.initprot &&& 7) := by
  rw [atEntry_page wf.apart (mappedEntry_mem mem needs) (mappedEntry_onPage within)]
  have target : (mappedEntry slide seg).targetProt = seg.initprot &&& 7 := protFromMacos_eq
  by_cases exec : seg.initprot &&& VM_PROT_EXECUTE = 0
  · have prot : (mappedEntry slide seg).prot = RW := by
      rw [mappedEntry, if_neg (not_not.mpr exec)]
      rfl
    have skip : (mappedEntry slide seg).prot &&& PROT_EXEC = 0 := by
      rw [prot]
      rfl
    have patched : patchEntry (mappedEntry slide seg) = mappedEntry slide seg := if_pos (.inl skip)
    rw [patched, if_pos skip, prot, target]
    by_cases writable : seg.initprot &&& 7 = RW
    · simp only [writable, ne_eq, not_true_eq_false, if_false, true_and]
    · rw [if_pos (Ne.symm writable), if_neg (fun both => writable both.1)]
  · have rights := wf.executable seg mem exec
    have prot : ¬(mappedEntry slide seg).prot &&& PROT_EXEC = 0 := by
      rw [mappedEntry, if_pos exec]
      exact (by decide : ¬RWX &&& PROT_EXEC = 0)
    have patched : (patchEntry (mappedEntry slide seg)).prot = (mappedEntry slide seg).targetProt :=
      congrArg LoadedSegment.prot (if_neg (not_or.mpr ⟨prot, Bool.false_ne_true⟩))
    rw [if_neg (not_not.mpr patched), if_neg prot, target, rights, ite_self, ite_self]

end Lemmas

/-- The pages end with the rights of the file, none writable and executable, unless a rewriter opens one that is
    readable and writable. -/
theorem file_rights_iff (slide : W64) (cmds : List SegmentCommand) (found : Found) (m : Rights)
    (wf : WellFormed slide cmds) :
    FileRights slide cmds found m ↔
      ∀ seg ∈ cmds, needsMemory seg = true → seg.initprot &&& 7 = RW →
        ∀ q, Within (pageOf (seg.vmaddr + slide)) (pagesOf seg.vmsize) q → q ∉ touched slide cmds found := by
  constructor
  · intro same seg mem needs writable q within opened
    obtain ⟨rights, final, eq, -⟩ := same seg mem needs q within
    rw [atEntry_segment wf mem needs within, if_pos ⟨writable, opened⟩, eq, writable] at final
    exact absurd final (by decide)
  · intro closed seg mem needs q within
    refine ⟨_, atEntry_segment wf mem needs within, if_neg fun both => closed seg mem needs both.1 q within both.2, ?_⟩
    rw [if_neg fun both => closed seg mem needs both.1 q within both.2]
    rintro ⟨write, exec⟩
    by_cases runs : seg.initprot &&& VM_PROT_EXECUTE = 0
    · refine exec ?_
      rw [BitVec.and_assoc]
      exact runs
    · rw [wf.executable seg mem runs] at write
      exact write rfl

def image (text other : W32) : List SegmentCommand :=
  [⟨ascii "__TEXT", 0x100000000, 0x1000, 0, 0x1000, text,
      [⟨ascii "__text", ascii "__TEXT", 0x100000000, 24, 0, 0, 0, 0⟩]⟩,
    ⟨ascii "__OTHER", 0x100001000, 0x1000, 0x1000, 0x1000, other, []⟩]

/-- `mov eax, [rbx+8]`, `lea ecx, [rax-1]`, `mov [rbx+8], ecx`, `test eax, eax`, `jle`. -/
def inlinedGetc : Found where
  code := byte [0x90, 0x90, 0x8B, 0x43, 0x08, 0x8D, 0x48, 0xFF, 0x89, 0x4B, 0x08, 0x85, 0xC0, 0x7E, 0x10]
  patchEof := false
  symbols := []

lemma image_apart {text other : W32} :
    (entries 0 (image text other)).Pairwise fun a b => ∀ q, OnPage a q → ¬OnPage b q := by
  refine List.Pairwise.cons (fun b mem q on on' => ?_) (List.pairwise_singleton _ _)
  obtain rfl := List.mem_singleton.mp mem
  have first : pageOf (0x100000000 + 0) = 0x100000 ∧ pagesOf 0x1000 = 1 := by decide
  have second : pageOf (0x100001000 + 0) = 0x100001 := by decide
  have before := on.2.2
  have behind := on'.2.1
  simp only [mappedEntry, first, second] at before behind
  omega

theorem file_rights_of_code :
    WellFormed 0 (image RX RW) ∧ FileRights 0 (image RX RW) inlinedGetc fun _ => none := by
  have wf : WellFormed 0 (image RX RW) := ⟨image_apart, by decide⟩
  refine ⟨wf, (file_rights_iff 0 (image RX RW) inlinedGetc (fun _ => none) wf).mpr ?_⟩
  intro seg mem _ writable q within opened
  have opens : touched 0 (image RX RW) inlinedGetc = [0x100000] := by decide +kernel
  rw [opens, List.mem_singleton] at opened
  rcases List.mem_cons.mp mem with rfl | mem
  · exact absurd writable (by decide)
  · obtain rfl := List.mem_singleton.mp mem
    have second : pageOf (0x100001000 + 0) = 0x100001 := by decide
    have behind := within.1
    rw [second] at behind
    omega

/-- A `__text` that can be written is left executable and can no longer be written. -/
theorem rewriter_changes_rights :
    WellFormed 0 (image RW RX) ∧ atEntry 0 (image RW RX) inlinedGetc (fun _ => none) 0x100000 = some RX ∧
      ¬FileRights 0 (image RW RX) inlinedGetc fun _ => none := by
  have wf : WellFormed 0 (image RW RX) := ⟨image_apart, by decide⟩
  have final : atEntry 0 (image RW RX) inlinedGetc (fun _ => none) 0x100000 = some RX := by decide +kernel
  refine ⟨wf, final, fun same => ?_⟩
  obtain ⟨rights, eq, file, -⟩ := same _ List.mem_cons_self (by decide) 0x100000 ⟨by decide, by decide⟩
  rw [final, file] at eq
  exact absurd eq (by decide)

end Macify.Image.Protections
