import Macify.Lib.Walk
import Macify.Fixups.ChainFormat

/-!
# Bounds of chain walks

The interpreters of chained fixups walk the pages of the segments in order. A page has fewer than 65536 bytes and
entries are at least four bytes apart, so the limit of 16384 entries is never reached. When the segments end below
`2 ^ 47`, no address wraps around, and each page is walked from its start to the last entry of its chain
(`chain_walks_bounded`).
-/

namespace Macify.Fixups
open Lib Image

structure Page where
  segment : ℕ
  vmsize : ℕ
  base : ℕ
  size : ℕ
  start : BitVec 16

def Page.last (page : Page) : ℕ := min (page.base + page.size) (page.segment + page.vmsize)

def Page.first (page : Page) : Option ℕ :=
  if page.start = DYLD_CHAINED_PTR_START_NONE ∨ page.last < page.base + page.start.toNat + 8 then none
  else some (page.base + page.start.toNat)

def Visit.addr (v : Visit) : ℕ := v.ptr.toNat
def Visit.step (v : Visit) : ℕ := 4 * (chainNext (v.before.read64 v.ptr)).toNat

structure Walked (page : Page) (vs : List Visit) : Prop where
  starts : vs.head?.map Visit.addr = page.first
  inSegment : ∀ v ∈ vs, page.segment ≤ v.addr ∧ v.addr + 8 ≤ page.segment + page.vmsize
  inPage : ∀ v ∈ vs, page.base ≤ v.addr ∧ v.addr + 8 ≤ page.base + page.size
  increasing : vs.Pairwise fun v w => v.addr < w.addr
  linked : vs.IsChain fun v w => w.addr = v.addr + v.step
  ends : ∀ v ∈ vs.getLast?, v.step = 0 ∨ page.last < v.addr + v.step + 8

def Threaded : Mem → List Visit → Mem → Prop
  | mem, [], mem' => mem' = mem
  | mem, v :: vs, mem' => v.before = mem ∧ (∃ w, v.after = replace mem v.ptr w) ∧ Threaded v.after vs mem'

def Walks (pages : List Page) (st st' : ChainState) : Prop :=
  ∃ walks, st'.visits = st.visits ++ walks.flatten ∧ List.Forall₂ Walked pages walks ∧
    Threaded st.mem walks.flatten st'.mem

lemma Threaded.append {mem mem₁ mem₂ vs ws} (fst : Threaded mem vs mem₁) (snd : Threaded mem₁ ws mem₂) :
    Threaded mem (vs ++ ws) mem₂ := by
  induction vs generalizing mem with
  | nil =>
    cases fst
    exact snd
  | cons v vs ih =>
    obtain ⟨before, stored, rest⟩ := fst
    exact ⟨before, stored, ih rest⟩

section Walks

variable {pages pages' : List Page} {st st₁ st₂ : ChainState}

lemma Walks.refl : Walks [] st st := ⟨[], (List.append_nil _).symm, .nil, rfl⟩

lemma Walks.append (fst : Walks pages st st₁) (snd : Walks pages' st₁ st₂) : Walks (pages ++ pages') st st₂ := by
  obtain ⟨walks, visits, walked, mem⟩ := fst
  obtain ⟨walks', visits', walked', mem'⟩ := snd
  refine ⟨walks ++ walks', ?_, List.rel_append walked walked', ?_⟩
  · rw [visits', visits, List.flatten_append, List.append_assoc]
  · rw [List.flatten_append]
    exact mem.append mem'

lemma Walks.foldl {β : Type*} {f : ChainState → β → ChainState} {pagesOf : β → List Page} {l : List β}
    (turn : ∀ b ∈ l, ∀ st, Walks (pagesOf b) st (f st b)) :
    Walks (l.flatMap pagesOf) st (l.foldl f st) := by
  induction l generalizing st with
  | nil => exact .refl
  | cons b l ih =>
    rw [List.flatMap_cons, List.foldl_cons]
    exact (turn b List.mem_cons_self st).append (ih fun c mem => turn c (List.mem_cons_of_mem b mem))

end Walks

section Chain

variable {format : BitVec 16} {entry : W64 → Replacement} {last ptr value : W64}
  {st : ChainState} {n : ℕ}

lemma chainNext_lt : (chainNext value).toNat < 4096 := by
  rw [chainNext, BitVec.toNat_and]
  exact Nat.lt_succ_of_le Nat.and_le_right

lemma nextEntry_cases (low : last.toNat < 2 ^ 47) (fits : ptr.toNat + 8 ≤ last.toNat) :
    (nextEntry last ptr value = none ∧ (4 * (chainNext value).toNat = 0 ∨
      last.toNat < ptr.toNat + 4 * (chainNext value).toNat + 8)) ∨
    ∃ q, nextEntry last ptr value = some q ∧ 0 < 4 * (chainNext value).toNat ∧
      q.toNat = ptr.toNat + 4 * (chainNext value).toNat ∧ q.toNat + 8 ≤ last.toNat := by
  have less := @chainNext_lt value
  unfold nextEntry
  generalize chainNext value = next at less ⊢
  have moved : (ptr + next * 4).toNat = ptr.toNat + 4 * next.toNat := by
    rw [BitVec.toNat_add, BitVec.toNat_mul, show (4 : W64).toNat = 4 from rfl]
    omega
  have behind : (ptr + next * 4 + 8).toNat = ptr.toNat + 4 * next.toNat + 8 := by
    rw [BitVec.toNat_add, moved, show (8 : W64).toNat = 8 from rfl]
    omega
  by_cases zero : next = 0
  · rw [if_pos zero, zero]
    exact .inl ⟨rfl, .inl rfl⟩
  have positive : 0 < next.toNat := by
    refine Nat.pos_of_ne_zero fun e => zero ?_
    exact BitVec.eq_of_toNat_eq e
  rw [if_neg zero]
  dsimp only
  by_cases beyond : last < ptr + next * 4 + 8
  · rw [if_pos beyond]
    rw [BitVec.lt_def, behind] at beyond
    exact .inl ⟨rfl, .inr beyond⟩
  · rw [if_neg beyond]
    rw [BitVec.lt_def, behind] at beyond
    exact .inr ⟨_, rfl, by omega, moved, by omega⟩

lemma walkChain_links (low : last.toNat < 2 ^ 47) (fits : ptr.toNat + 8 ≤ last.toNat)
    (enough : last.toNat < ptr.toNat + 8 + 4 * n) :
    ∃ vs, (walkChain format entry last n ptr st).visits = st.visits ++ vs ∧
      Links Visit.addr Visit.step 8 last.toNat ptr.toNat vs ∧
      Threaded st.mem vs (walkChain format entry last n ptr st).mem := by
  induction n generalizing ptr st with
  | zero => omega
  | succ n ih =>
    rw [walkChain, chainStep]
    let v : Visit := ⟨format, ptr, st.mem, replace st.mem ptr (entry (st.mem.read64 ptr)).word⟩
    -- the link is read before the entry is replaced
    obtain ⟨stops, why⟩ | ⟨q, goes, moves, there, inside⟩ :=
      @nextEntry_cases last ptr (st.mem.read64 ptr) low fits
    · rw [stops]
      exact ⟨[v], rfl, @Links.stop _ _ _ _ _ v fits why, rfl, ⟨_, rfl⟩, rfl⟩
    · rw [goes]
      obtain ⟨vs, visits, links, mem⟩ := @ih q (st.fix format entry ptr) inside (by omega)
      rw [there] at links
      refine ⟨v :: vs, ?_, @Links.next _ _ _ _ _ v vs fits moves links, rfl, ⟨_, rfl⟩, mem⟩
      show (walkChain format entry last n q (st.fix format entry ptr)).visits = _
      rw [visits]
      exact List.append_assoc _ _ _

end Chain

def pageOf (blob : Buf) (s : ℕ) (base vmsize : W64) (p : ℕ) : Page :=
  ⟨base.toNat, vmsize.toNat, base.toNat + p * (pageSize blob s).toNat, (pageSize blob s).toNat,
    pageStart blob s p⟩

def segmentPages (blob : Buf) (s : ℕ) (base vmsize : W64) : List Page :=
  (List.range (pageCount blob s)).flatMap fun p => [pageOf blob s base vmsize p]

section Pages

variable {entry : W64 → Replacement} {blob : Buf} {s p : ℕ} {base vmsize : W64}
  {st : ChainState}

lemma pageSize_lt : (pageSize blob s).toNat < 2 ^ 16 := by
  rw [pageSize, BitVec.toNat_setWidth_of_le (by omega)]
  exact BitVec.isLt _

lemma page_offset_lt (page : p < 2 ^ 16) : p * (pageSize blob s).toNat < 2 ^ 32 := by
  calc
    p * (pageSize blob s).toNat < 2 ^ 16 * 2 ^ 16 := Nat.mul_lt_mul'' page pageSize_lt
    _ = 2 ^ 32 := by decide

section

variable (low : base.toNat + vmsize.toNat < 2 ^ 47)
include low

lemma toNat_pageBase (page : p < 2 ^ 16) :
    (pageBase blob s base p).toNat = (pageOf blob s base vmsize p).base := by
  have offset := @page_offset_lt blob s p page
  have index : (BitVec.ofNat 64 p).toNat = p := by
    rw [BitVec.toNat_ofNat]
    omega
  rw [pageBase, BitVec.toNat_add, BitVec.toNat_mul, index, pageOf]
  dsimp only
  omega

lemma toNat_pageEnd (page : p < 2 ^ 16) :
    (pageEnd blob s base vmsize p).toNat = (pageOf blob s base vmsize p).last := by
  have offset := @page_offset_lt blob s p page
  have size := @pageSize_lt blob s
  have start := @toNat_pageBase blob s p base vmsize low page
  have segment : (base + vmsize).toNat = base.toNat + vmsize.toNat := by
    rw [BitVec.toNat_add]
    omega
  have whole : (pageBase blob s base p + pageSize blob s).toNat =
      base.toNat + p * (pageSize blob s).toNat + (pageSize blob s).toNat := by
    rw [BitVec.toNat_add, start, pageOf]
    dsimp only
    omega
  rw [pageEnd, Page.last, pageOf]
  dsimp only
  by_cases clipped : base + vmsize < pageBase blob s base p + pageSize blob s
  · rw [if_pos clipped, segment]
    rw [BitVec.lt_def, segment, whole] at clipped
    omega
  · rw [if_neg clipped, whole]
    rw [BitVec.lt_def, segment, whole] at clipped
    omega

lemma toNat_firstEntry (page : p < 2 ^ 16) :
    (pageBase blob s base p + (pageStart blob s p).setWidth 64).toNat =
      (pageOf blob s base vmsize p).base + (pageStart blob s p).toNat := by
  have offset := @page_offset_lt blob s p page
  have start := (pageStart blob s p).isLt
  rw [BitVec.toNat_add, @toNat_pageBase blob s p base vmsize low page,
    BitVec.toNat_setWidth_of_le (by omega), pageOf]
  dsimp only
  omega

lemma toNat_firstEntry_end (page : p < 2 ^ 16) :
    (pageBase blob s base p + (pageStart blob s p).setWidth 64 + 8).toNat =
      (pageOf blob s base vmsize p).base + (pageStart blob s p).toNat + 8 := by
  have offset := @page_offset_lt blob s p page
  have start := (pageStart blob s p).isLt
  rw [BitVec.toNat_add, @toNat_firstEntry blob s p base vmsize low page, show (8 : W64).toNat = 8 from rfl, pageOf]
  dsimp only
  omega

end

lemma pageOf_last_lt (a : ℕ) : (pageOf blob s base vmsize p).last <
    (pageOf blob s base vmsize p).base + a + 8 + 4 * 16384 := by
  have size := @pageSize_lt blob s
  have whole : (pageOf blob s base vmsize p).last ≤
      (pageOf blob s base vmsize p).base + (pageSize blob s).toNat := min_le_left _ _
  omega

lemma walked_nil {page : Page} (none : page.first = none) : Walked page [] :=
  ⟨none.symm, nofun, nofun, .nil, .nil, nofun⟩

lemma Walked.of_links {page : Page} {vs} (some : page.first = some (page.base + page.start.toNat))
    (after : page.segment ≤ page.base)
    (links : Links Visit.addr Visit.step 8 page.last (page.base + page.start.toNat) vs) :
    Walked page vs := by
  refine ⟨links.head.trans some.symm, fun v mem => ?_, fun v mem => ?_, links.increasing, links.linked,
    links.ends⟩
  · obtain ⟨ge, le⟩ := links.bounds v mem
    exact ⟨by omega, le.trans (min_le_right _ _)⟩
  · obtain ⟨ge, le⟩ := links.bounds v mem
    exact ⟨by omega, le.trans (min_le_left _ _)⟩

lemma walkPage_walks (low : base.toNat + vmsize.toNat < 2 ^ 47) (page : p < 2 ^ 16) :
    Walks [pageOf blob s base vmsize p] st (walkPage entry blob s base vmsize st p) := by
  have skipped : (pageOf blob s base vmsize p).first = none →
      Walks [pageOf blob s base vmsize p] st st := fun none =>
    ⟨[[]], (List.append_nil _).symm, .cons (walked_nil none) .nil, rfl⟩
  have first := @toNat_firstEntry blob s p base vmsize low page
  have last := @toNat_pageEnd blob s p base vmsize low page
  have clipped : (pageOf blob s base vmsize p).last ≤ base.toNat + vmsize.toNat := min_le_right _ _
  unfold walkPage
  by_cases absent : pageStart blob s p = DYLD_CHAINED_PTR_START_NONE
  · rw [if_pos absent]
    exact skipped (if_pos (.inl absent))
  rw [if_neg absent]
  dsimp only
  by_cases beyond : pageEnd blob s base vmsize p <
      pageBase blob s base p + (pageStart blob s p).setWidth 64 + 8
  · rw [if_pos beyond]
    rw [BitVec.lt_def, last, toNat_firstEntry_end low page] at beyond
    exact skipped (if_pos (.inr beyond))
  rw [if_neg beyond]
  rw [BitVec.lt_def, last, toNat_firstEntry_end low page] at beyond
  have small := @pageOf_last_lt blob s p base vmsize (pageStart blob s p).toNat
  obtain ⟨vs, visits, links, mem⟩ := @walkChain_links (ptrFormat blob s) entry
    (pageEnd blob s base vmsize p) (pageBase blob s base p + (pageStart blob s p).setWidth 64) st 16384
    (by omega) (by omega) (by omega)
  rw [first, last] at links
  refine ⟨[vs], ?_, .cons (.of_links ?_ (Nat.le_add_right _ _) links) .nil, ?_⟩
  · rw [visits, List.flatten_singleton]
  · exact if_neg (not_or.mpr ⟨absent, beyond⟩)
  · rw [List.flatten_singleton]
    exact mem

lemma walkPages_walks (low : base.toNat + vmsize.toNat < 2 ^ 47) :
    Walks (segmentPages blob s base vmsize) st (walkPages entry blob s base vmsize st) := by
  apply Walks.foldl
  intro p mem st
  exact walkPage_walks low ((List.mem_range.mp mem).trans (BitVec.isLt _))

end Pages

def startedPages (blob : Buf) (k : ℕ) (base vmsize : W64) : List Page :=
  if segStarts blob k = 0 then [] else segmentPages blob (startsOffset blob + segStarts blob k) base vmsize

def supported (blob : Buf) (k : ℕ) : Bool :=
  segStarts blob k == 0 ||
    ptrFormat blob (startsOffset blob + segStarts blob k) == DYLD_CHAINED_PTR_64 ||
    ptrFormat blob (startsOffset blob + segStarts blob k) == DYLD_CHAINED_PTR_64_OFFSET

def chainedPages (env : BindEnv) (blob : Buf) : List Page :=
  if fixupsVersion blob ≠ 0 then []
  else ((env.segs.take (startsCount blob)).zipIdx.takeWhile fun seg => supported blob seg.2).flatMap
    fun seg => startedPages blob seg.2 seg.1.vmaddr seg.1.vmsize

def dylibChainedPages (env : DylibBindEnv) (blob : Buf) : List Page :=
  if fixupsVersion blob ≠ 0 then []
  else (env.segs.take (startsCount blob)).zipIdx.flatMap
    fun seg => startedPages blob seg.2 (seg.1.vmaddr + env.slide) seg.1.vmsize

section Interpreters

variable {env : BindEnv} {dylib : DylibBindEnv} {blob : Buf} {mem : Mem} {st : ChainState}

lemma startedPages_walks {entry k base vmsize} (low : base.toNat + vmsize.toNat < 2 ^ 47) :
    Walks (startedPages blob k base vmsize) st
      (if segStarts blob k = 0 then st
        else walkPages entry blob (startsOffset blob + segStarts blob k) base vmsize st) := by
  unfold startedPages
  by_cases absent : segStarts blob k = 0
  · rw [if_pos absent, if_pos absent]
    exact .refl
  · rw [if_neg absent, if_neg absent]
    exact walkPages_walks low

lemma chainSegments_walks {segs : List (LoadedSegment × ℕ)}
    (low : ∀ seg ∈ segs, seg.1.vmaddr.toNat + seg.1.vmsize.toNat < 2 ^ 47) :
    Walks ((segs.takeWhile fun seg => supported blob seg.2).flatMap
        fun seg => startedPages blob seg.2 seg.1.vmaddr seg.1.vmsize)
      st (chainSegments env blob segs st).2 := by
  induction segs generalizing st with
  | nil => exact .refl
  | cons seg segs ih =>
    obtain ⟨seg, k⟩ := seg
    have rest := fun st => @ih st fun seg mem => low seg (List.mem_cons_of_mem _ mem)
    have here := @startedPages_walks blob st (chainEntry env blob) k _ _ (low _ List.mem_cons_self)
    rw [chainSegments]
    by_cases absent : segStarts blob k = 0
    · rw [if_pos absent] at here ⊢
      rw [List.takeWhile_cons_of_pos (by simp [supported, absent]), List.flatMap_cons]
      exact here.append (rest st)
    rw [if_neg absent] at here ⊢
    dsimp only
    split
    · next other =>
      have format : supported blob k = false := by
        simp only [supported, Bool.or_eq_false_iff, beq_eq_false_iff_ne]
        exact ⟨⟨absent, other.1⟩, other.2⟩
      rw [List.takeWhile_cons_of_neg (by simp [format])]
      exact .refl
    · next known =>
      have format : supported blob k = true := by
        simp only [supported, Bool.or_eq_true, beq_iff_eq]
        tauto
      rw [List.takeWhile_cons_of_pos (by simp [format]), List.flatMap_cons]
      exact here.append (rest _)

/-- Each page is walked from its start, inside the segment and the page at increasing addresses, up to an entry
    without a successor. -/
theorem chain_walks_bounded (low : ∀ seg ∈ env.segs, seg.vmaddr.toNat + seg.vmsize.toNat < 2 ^ 47)
    (dylibLow : ∀ seg ∈ dylib.segs, (seg.vmaddr + dylib.slide).toNat + seg.vmsize.toNat < 2 ^ 47) :
    Walks (chainedPages env blob) (.start mem) (executeChainedFixups env blob mem).2 ∧
      Walks (dylibChainedPages dylib blob) (.start mem) (processDylibChainedFixups dylib blob mem) := by
  unfold chainedPages dylibChainedPages executeChainedFixups processDylibChainedFixups
  by_cases version : fixupsVersion blob ≠ 0
  · rw [if_pos version, if_pos version, if_pos version, if_pos version]
    exact ⟨.refl, .refl⟩
  rw [if_neg version, if_neg version, if_neg version, if_neg version]
  constructor
  · apply chainSegments_walks
    intro seg listed
    exact low _ (List.mem_of_mem_take (List.fst_mem_of_mem_zipIdx listed))
  · apply Walks.foldl
    intro seg listed st
    exact startedPages_walks (dylibLow _ (List.mem_of_mem_take (List.fst_mem_of_mem_zipIdx listed)))

end Interpreters

def overlapping : Mem := Mem.write64 (fun _ => 0) 0x10000 0x0008000000000100

theorem chain_walks_bounded_overlapping :
    ((executeChainedFixups oneSegment (oneChain 6) overlapping).2.visits.map Visit.addr =
        [0x10000, 0x10004] ∧
      Walks (chainedPages oneSegment (oneChain 6)) (.start overlapping)
        (executeChainedFixups oneSegment (oneChain 6) overlapping).2) ∧
    Walks (dylibChainedPages ⟨[⟨0, 0x1000, 0, 0x1000⟩], 0x10000, fun _ _ => 0, 0x2000⟩ (oneChain 6))
      (.start overlapping)
      (processDylibChainedFixups ⟨[⟨0, 0x1000, 0, 0x1000⟩], 0x10000, fun _ _ => 0, 0x2000⟩ (oneChain 6)
        overlapping) := by
  have walks := @chain_walks_bounded oneSegment
    ⟨[⟨0, 0x1000, 0, 0x1000⟩], 0x10000, fun _ _ => 0, 0x2000⟩ (oneChain 6) overlapping
    (by decide) (by decide)
  exact ⟨⟨by decide +kernel, walks.1⟩, walks.2⟩

end Macify.Fixups
