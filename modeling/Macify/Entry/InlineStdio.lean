import Macify.Lib.Code
import Macify.Lib.Loop

/-!
# Inlined stdio macros

Models of the three loops of `main` (`src/main.c`) that rewrite the stdio macros inlined into `__text`: `getc`, the
test of `__SEOF` and `__SERR`, and `putc`. A rewrite makes pages writable and then stores. Main result:
`inline_stdio_in_bounds_iff`.
-/

namespace Macify.Entry
open Lib
open Mem (leBytes)

def pageOf (addr k : ℕ) : ℕ := (addr + k) / 4096

structure Rewrite where
  writable : List ℕ
  stores : List (ℕ × Buf)
  deriving DecidableEq

structure BranchSite where
  pos : ℕ
  near : Bool
  jumps : Bool
  deriving DecidableEq

namespace BranchSite

def length (b : BranchSite) : ℕ := if b.near then 6 else 2

def code (t : Code) (b : BranchSite) : Buf :=
  match b.near, b.jumps with
  | false, true => [0xEB]
  | true, true => 0xE9 :: leBytes 4 (t.word32 (b.pos + 2) + 1).toNat ++ [0x90]
  | _, false => List.replicate b.length 0x90

end BranchSite

structure DecOp where
  reg : ℕ
  base : Option ℕ
  disp : ℤ
  len : ℕ
  deriving DecidableEq

def decGetcOp (t : Code) (n start : ℕ) (opcode : UInt8) : Option DecOp :=
  let rex : UInt8 := if start < n ∧ t start &&& 0xF0 = 0x40 then t start else 0
  let p := if rex = 0 then start else start + 1
  if n ≤ p ∨ t p ≠ opcode then none
  else if n ≤ p + 1 then none
  else
    let modrm := t (p + 1)
    let reg := (modrm >>> 3 &&& 7).toNat + if rex &&& 4 ≠ 0 then 8 else 0
    let high := if rex &&& 1 ≠ 0 then 8 else 0
    let rm := (modrm &&& 7).toNat + high
    if modrm >>> 6 = 3 then
      if rm ≠ reg then none else some ⟨reg, none, 0, p + 2 - start⟩
    else if modrm >>> 6 ≠ 1 then none
    else if modrm &&& 7 = 4 then
      if n ≤ p + 2 then none
      else if t (p + 2) >>> 3 &&& 7 ≠ 4 then none
      else if n ≤ p + 3 then none
      else some ⟨reg, some ((t (p + 2) &&& 7).toNat + high), t.rel8 (p + 3), p + 4 - start⟩
    else if n ≤ p + 2 then none
    else some ⟨reg, some rm, t.rel8 (p + 2), p + 3 - start⟩

structure GetcSite where
  leaEnd : ℕ
  stLen : ℕ
  branch : BranchSite
  deriving DecidableEq

def getcBranch (t : Code) (size jmpOff : ℕ) : Option BranchSite :=
  if size ≤ jmpOff + 1 then none
  else if t jmpOff = 0x7E then some ⟨jmpOff, false, true⟩
  else if t jmpOff = 0x7F then some ⟨jmpOff, false, false⟩
  else if t jmpOff = 0x0F ∧ jmpOff + 5 < size ∧ (t (jmpOff + 1) = 0x8E ∨ t (jmpOff + 1) = 0x8F) then
    some ⟨jmpOff, true, t (jmpOff + 1) == 0x8E⟩
  else none

def getcCluster (t : Code) (size i : ℕ) (lea : DecOp) (k : ℕ) : Option GetcSite := do
  let ld ← (decGetcOp t size (i - k) 0x8B).filter fun ld =>
    decide (k ≤ i) && i - k + ld.len == i && ld.disp == 8 && ld.base.isSome && some ld.reg == lea.base
  let st ← (decGetcOp t size (i + lea.len) 0x89).filter fun st =>
    st.disp == 8 && st.base == ld.base && st.reg == lea.reg
  let ts ← (decGetcOp t size (i + lea.len + st.len) 0x85).filter fun ts =>
    ts.base == none && some ts.reg == lea.base
  let branch ← getcBranch t size (i + lea.len + st.len + ts.len)
  return ⟨i + lea.len, st.len, branch⟩

def getcSite (t : Code) (size i : ℕ) : Option GetcSite :=
  if t i ≠ 0x8D ∧ t i &&& 0xF0 ≠ 0x40 then none
  else
    ((decGetcOp t size i 0x8D).filter fun lea => lea.base.isSome && lea.disp == -1).bind fun lea =>
      [5, 4, 3].findSome? (getcCluster t size i lea)

def GetcSite.stores (t : Code) (s : GetcSite) : List (ℕ × Buf) :=
  let nops := List.replicate s.stLen 0x90
  [(s.leaEnd, nops), (s.branch.pos, s.branch.code (t.store s.leaEnd nops))]

def GetcSite.pages (addr : ℕ) (s : GetcSite) : List ℕ :=
  List.range' (pageOf addr s.leaEnd)
    (pageOf addr (s.branch.pos + s.branch.length - 1) + 1 - pageOf addr s.leaEnd)

def getcRewrite (grants : ℕ → Bool) (addr size : ℕ) (t : Code) (i : ℕ) : Option Rewrite :=
  (getcSite t size i).map fun s => ⟨(s.pages addr).filter grants, s.stores t⟩

/-- `test byte [rX+0x10], 0x20` or `0x40`, and `je` or `jne`. -/
def seofSite (t : Code) (i : ℕ) : Option BranchSite :=
  let hasRex := if t i = 0x41 then 1 else 0
  let off := i + hasRex
  let after := i + 4 + hasRex
  if t off ≠ 0xF6 then none
  else if t (off + 1) &&& 0xF8 ≠ 0x40 then none
  else if t (off + 2) ≠ 0x10 then none
  else if t (off + 3) ≠ 0x20 ∧ t (off + 3) ≠ 0x40 then none
  else if t after = 0x74 then some ⟨after, false, true⟩
  else if t after = 0x75 then some ⟨after, false, false⟩
  else if t after = 0x0F ∧ t (after + 1) = 0x84 then some ⟨after, true, true⟩
  else if t after = 0x0F ∧ t (after + 1) = 0x85 then some ⟨after, true, false⟩
  else none

/-- Only the page of the first byte is made writable. -/
def seofRewrite (grants : ℕ → Bool) (addr : ℕ) (t : Code) (i : ℕ) : Option Rewrite :=
  (seofSite t i).map fun b => ⟨[pageOf addr b.pos].filter grants, [(b.pos, b.code t)]⟩

def patchEof (size getcPatched : ℕ) (env : Bool) : Bool :=
  decide (size ≤ 100000) || decide (0 < getcPatched) || env

/-- `mov r1, [rX+0x0c]`, `lea r2, [r1-1]`, `mov [rX+0x0c], r2`, `test r1, r1`, and `jg` or `jle`. -/
def putcPrologue (t : Code) (i : ℕ) : Bool :=
  let r1 := t (i + 1) >>> 3 &&& 7
  let base := t (i + 1) &&& 7
  let r2 := t (i + 4) >>> 3 &&& 7
  t i == 0x8B && t (i + 1) &&& 0xC0 == 0x40 && t (i + 1) &&& 7 != 4 && t (i + 2) == 0x0C &&
  (t (i + 3) == 0x8D && t (i + 4) &&& 0xC0 == 0x40 && t (i + 4) &&& 7 == r1 && t (i + 5) == 0xFF) &&
  (t (i + 6) == 0x89 && t (i + 7) &&& 0xC0 == 0x40 && t (i + 7) >>> 3 &&& 7 == r2 &&
    t (i + 7) &&& 7 == base && t (i + 8) == 0x0C) &&
  (t (i + 9) == 0x85 && t (i + 10) &&& 0xC0 == 0xC0 && t (i + 10) >>> 3 &&& 7 == r1 &&
    t (i + 10) &&& 7 == r1) &&
  (t (i + 11) == 0x7F || t (i + 11) == 0x7E)

/-- The branch to the slow label: the one that is found, or one of the checks behind it. -/
def slowBranch (t : Code) (i : ℕ) : Option ℕ :=
  let p := i + 13
  if t (i + 11) = 0x7E then some (i + 11)
  else if t p = 0x74 then some p
  else if t p = 0x3C ∧ t (p + 1) = 0x0A ∧ t (p + 2) = 0x74 then some (p + 2)
  else if t p = 0x3B ∧ t (p + 3) = 0x7E then some (p + 3)
  else if t p = 0x3D ∧ t (p + 5) = 0x7E then some (p + 5)
  else none

def slowLabel (t : Code) (i : ℕ) : Option ℤ := (slowBranch t i).map fun q => q + 2 + t.rel8 (q + 1)

def putcSite (t : Code) (size i : ℕ) : Option UInt8 :=
  if !putcPrologue t i then none
  else
    (slowLabel t i).bind fun slow =>
      let rel := UInt8.ofBitVec (BitVec.ofInt 8 (slow - (i + 13)))
      if slow < 0 ∨ (size : ℤ) < slow + 2 then none
      else if slow ≠ i + 13 + rel.toBitVec.toInt then none
      -- `mov edi, imm32` or `movsbl al, edi`
      else if t slow.toNat = 0xBF ∨ t slow.toNat = 0x0F ∧ t (slow.toNat + 1) = 0xBE then some rel
      else none

def putcStores (i : ℕ) (rel : UInt8) : List (ℕ × Buf) := [(i + 6, [0x90, 0x90, 0x90]), (i + 11, [0xEB, rel])]

def putcRewrite (grants : ℕ → Bool) (addr size : ℕ) (t : Code) (i : ℕ) : Option Rewrite :=
  (putcSite t size i).bind fun rel =>
    if grants (pageOf addr i) then some ⟨[pageOf addr i], putcStores i rel⟩ else none

structure Rewriter where
  rewrite : Code → ℕ → Option Rewrite
  offsets : List ℕ

namespace Rewriter

def step (r : Rewriter) (s : Code × ℕ) (i : ℕ) : Code × ℕ :=
  match r.rewrite s.1 i with
  | none => s
  | some w => (s.1.storeAll w.stores, s.2 + 1)

def run (r : Rewriter) (t : Code) : Code × ℕ := r.offsets.foldl r.step (t, 0)

def Always (r : Rewriter) (P : Code → ℕ → Prop) (t : Code) : Prop :=
  Along r.step (fun s i => P s.1 i) (t, 0) r.offsets

lemma always_congr {r : Rewriter} {P Q : Code → ℕ → Prop} {t : Code}
    (same : ∀ t, ∀ i ∈ r.offsets, (P t i ↔ Q t i)) : r.Always P t ↔ r.Always Q t :=
  along_congr fun s i mem => same s.1 i mem

end Rewriter

section Loops

variable (grants : ℕ → Bool) (addr size : ℕ) (env : Bool) (t : Code)

def getcLoop : Rewriter := ⟨getcRewrite grants addr size, List.range' 5 (size - 17)⟩

def seofLoop (patch : Bool) : Rewriter :=
  ⟨seofRewrite grants addr, if patch then List.range (size - 7) else []⟩

def putcLoop : Rewriter := ⟨putcRewrite grants addr size, List.range (size - 20)⟩

def afterGetc : Code × ℕ := (getcLoop grants addr size).run t

def eofLoop : Rewriter := seofLoop grants addr size (patchEof size (afterGetc grants addr size t).2 env)

def afterSeof : Code := ((eofLoop grants addr size env t).run (afterGetc grants addr size t).1).1

end Loops

def Rewrite.Safe (addr size : ℕ) (w : Rewrite) : Prop :=
  ∀ k ∈ Code.written w.stores, k < size ∧ pageOf addr k ∈ w.writable

section Bounds

variable {grants : ℕ → Bool} {addr size i k : ℕ} {env : Bool} {t : Code} {b : BranchSite} {s : GetcSite}
  {rel : UInt8}

lemma same_page_iff {p n : ℕ} (pos : 0 < n) :
    (∀ k, p ≤ k → k < p + n → pageOf addr k = pageOf addr p) ↔ (addr + p) % 4096 + n ≤ 4096 := by
  unfold pageOf
  constructor
  · intro same
    have last := same (p + n - 1) (by omega) (by omega)
    omega
  · intro room k ge lt
    omega

def BranchSite.stored (b : BranchSite) : ℕ := if b.near then 6 else if b.jumps then 1 else 2

lemma BranchSite.length_code : (b.code t).length = b.stored := by
  obtain ⟨pos, near, jumps⟩ := b
  cases near <;> cases jumps <;> simp [code, stored, length, Mem.length_leBytes]

lemma BranchSite.stored_le : b.stored ≤ b.length := by
  obtain ⟨pos, near, jumps⟩ := b
  cases near <;> cases jumps <;> simp [stored, length]

/-- The branch that a site is about: `always` is the condition on which the program goes on as it is to. -/
def BranchSite.Is (always : UInt8) (t : Code) (b : BranchSite) : Prop :=
  let cc := if b.jumps then always else always + 1
  if b.near then t b.pos = 0x0F ∧ t (b.pos + 1) = 0x80 + cc else t b.pos = 0x70 + cc

lemma getcBranch_spec {p : ℕ} (found : getcBranch t size p = some b) :
    b.pos = p ∧ p + b.length ≤ size ∧ b.Is 0xE t := by
  unfold getcBranch at found
  split_ifs at found with _ jle jg near
  all_goals obtain rfl := Option.some.inj found
  · exact ⟨rfl, show p + 2 ≤ size by omega, jle⟩
  · exact ⟨rfl, show p + 2 ≤ size by omega, jg⟩
  · obtain ⟨code, bound, second⟩ := near
    refine ⟨rfl, show p + 6 ≤ size by omega, ?_⟩
    rcases second with jle | jg
    · rw [jle]
      exact ⟨code, jle⟩
    · rw [jg]
      exact ⟨code, jg⟩

structure GetcSite.Found (t : Code) (size : ℕ) (s : GetcSite) : Prop where
  order : s.leaEnd + s.stLen ≤ s.branch.pos
  inside : s.branch.pos + s.branch.length ≤ size
  branch : s.branch.Is 0xE t

lemma getcSite_spec (found : getcSite t size i = some s) : s.Found t size := by
  unfold getcSite at found
  split at found
  next => cases found
  next =>
    obtain ⟨lea, -, cluster⟩ := Option.bind_eq_some_iff.mp found
    obtain ⟨k, -, cluster⟩ := List.exists_of_findSome?_eq_some cluster
    obtain ⟨ld, -, cluster⟩ := Option.bind_eq_some_iff.mp cluster
    obtain ⟨st, -, cluster⟩ := Option.bind_eq_some_iff.mp cluster
    obtain ⟨ts, -, cluster⟩ := Option.bind_eq_some_iff.mp cluster
    obtain ⟨b, branch, site⟩ := Option.bind_eq_some_iff.mp cluster
    obtain rfl := Option.some.inj site
    obtain ⟨pos, inside, is⟩ := getcBranch_spec branch
    exact ⟨by rw [pos]; exact Nat.le_add_right _ ts.len, by rw [pos]; exact inside, is⟩

lemma seofSite_spec (found : seofSite t i = some b) : b.Is 4 t := by
  unfold seofSite at found
  dsimp only at found
  generalize (if t i = 0x41 then 1 else 0) = rex at found
  split_ifs at found with _ _ _ _ je jne je jne
  all_goals obtain rfl := Option.some.inj found
  · exact je
  · exact jne
  · exact je
  · exact jne

lemma GetcSite.mem_written_iff :
    k ∈ Code.written (s.stores t) ↔ s.leaEnd ≤ k ∧ k < s.leaEnd + s.stLen ∨
      s.branch.pos ≤ k ∧ k < s.branch.pos + s.branch.stored := by
  simp only [stores, Code.mem_written_cons, Code.mem_written_nil, or_false, List.length_replicate,
    BranchSite.length_code]

lemma GetcSite.Found.safe_iff (found : s.Found t size) :
    (Rewrite.mk ((s.pages addr).filter grants) (s.stores t)).Safe addr size ↔
      ∀ k ∈ Code.written (s.stores t), grants (pageOf addr k) = true := by
  refine forall₂_congr fun k mem => ?_
  have between : s.leaEnd ≤ k ∧ k ≤ s.branch.pos + s.branch.length - 1 := by
    have order := found.order
    have short := s.branch.stored_le
    rw [mem_written_iff] at mem
    omega
  have positive : 0 < s.branch.length := by
    unfold BranchSite.length
    split <;> decide
  have inside := found.inside
  have asked : pageOf addr k ∈ s.pages addr := by
    rw [pages, List.mem_range'_1]
    unfold pageOf
    omega
  rw [List.mem_filter]
  exact ⟨fun safe => safe.2.2, fun granted => ⟨by omega, asked, granted⟩⟩

def BranchSite.Fits (grants : ℕ → Bool) (addr size : ℕ) (b : BranchSite) : Prop :=
  grants (pageOf addr b.pos) = true ∧ b.pos + b.stored ≤ size ∧ (addr + b.pos) % 4096 + b.stored ≤ 4096

lemma BranchSite.safe_iff :
    (Rewrite.mk ([pageOf addr b.pos].filter grants) [(b.pos, b.code t)]).Safe addr size ↔
      b.Fits grants addr size := by
  have positive : 0 < b.stored := by
    unfold stored
    split
    · decide
    · split <;> decide
  have mem : ∀ k, k ∈ Code.written [(b.pos, b.code t)] ↔ b.pos ≤ k ∧ k < b.pos + b.stored := by
    intro k
    simp only [Code.mem_written_cons, Code.mem_written_nil, or_false, length_code]
  simp only [Rewrite.Safe, Fits, mem, List.mem_filter, List.mem_singleton, ← same_page_iff positive]
  constructor
  · intro safe
    have first := safe b.pos ⟨by omega, by omega⟩
    have last := safe (b.pos + b.stored - 1) ⟨by omega, by omega⟩
    exact ⟨first.2.2, by omega, fun k ge lt => (safe k ⟨ge, lt⟩).2.1⟩
  · rintro ⟨granted, room, same⟩ k ⟨ge, lt⟩
    have page := same k ge lt
    exact ⟨by omega, page, by rw [page]; exact granted⟩

lemma putc_safe_iff (inside : i + 20 < size) :
    (Rewrite.mk [pageOf addr i] (putcStores i rel)).Safe addr size ↔ (addr + i) % 4096 + 13 ≤ 4096 := by
  have mem : ∀ k, k ∈ Code.written (putcStores i rel) ↔
      i + 6 ≤ k ∧ k < i + 9 ∨ i + 11 ≤ k ∧ k < i + 13 := by
    intro k
    simp only [putcStores, Code.mem_written_cons, Code.mem_written_nil, or_false]
    exact Iff.rfl
  simp only [Rewrite.Safe, mem, List.mem_singleton, ← same_page_iff (show 0 < 13 by decide)]
  unfold pageOf
  constructor
  · intro safe k ge lt
    have last := safe (i + 12) (by omega)
    omega
  · intro same k inside
    exact ⟨by omega, same k (by omega) (by omega)⟩

end Bounds

section Runs

variable (grants : ℕ → Bool) (addr size : ℕ) (env : Bool) (t : Code)

def InBounds : Prop :=
  (getcLoop grants addr size).Always
    (fun t i => ∀ w, getcRewrite grants addr size t i = some w → w.Safe addr size) t ∧
  (eofLoop grants addr size env t).Always
    (fun t i => ∀ w, seofRewrite grants addr t i = some w → w.Safe addr size)
    (afterGetc grants addr size t).1 ∧
  (putcLoop grants addr size).Always
    (fun t i => ∀ w, putcRewrite grants addr size t i = some w → w.Safe addr size)
    (afterSeof grants addr size env t)

/-- The first loop is safe; the others are where what they store fits on one page and, for the second, into the
    section. -/
theorem inline_stdio_in_bounds_iff :
    InBounds grants addr size env t ↔
      (getcLoop grants addr size).Always
        (fun t i => ∀ s, getcSite t size i = some s →
          ∀ k ∈ Code.written (s.stores t), grants (pageOf addr k) = true) t ∧
      (eofLoop grants addr size env t).Always
        (fun t i => ∀ b, seofSite t i = some b → b.Fits grants addr size)
        (afterGetc grants addr size t).1 ∧
      (putcLoop grants addr size).Always
        (fun t i => ∀ rel, putcSite t size i = some rel → grants (pageOf addr i) = true →
          (addr + i) % 4096 + 13 ≤ 4096)
        (afterSeof grants addr size env t) := by
  refine and_congr ?_ (and_congr ?_ ?_)
  · refine Rewriter.always_congr fun t i _ => ?_
    simp only [getcRewrite, Option.map_eq_some_iff, forall_exists_index, and_imp, forall_apply_eq_imp_iff₂]
    exact forall₂_congr fun s found => (getcSite_spec found).safe_iff
  · refine Rewriter.always_congr fun t i _ => ?_
    simp only [seofRewrite, Option.map_eq_some_iff, forall_exists_index, and_imp, forall_apply_eq_imp_iff₂]
    exact forall₂_congr fun b _ => BranchSite.safe_iff
  · refine Rewriter.always_congr fun t i mem => ?_
    have inside : i + 20 < size := by
      have lt := List.mem_range.mp mem
      omega
    simp only [putcRewrite, Option.bind_eq_some_iff, forall_exists_index, and_imp,
      Option.ite_none_right_eq_some, Option.some.injEq]
    constructor
    · intro safe rel found granted
      exact (putc_safe_iff inside).mp (safe _ rel found granted rfl)
    · rintro room w rel found granted rfl
      exact (putc_safe_iff inside).mpr (room rel found granted)

end Runs

def cutOffTest : Code := byte [0xF6, 0x40, 0x10, 0x20, 0x0F, 0x84, 0x05, 0x00, 0x00, 0x00]

def shortTest : Code := byte [0xF6, 0x40, 0x10, 0x20, 0x75, 0x05, 0x90, 0x90]

def putcNewline : Code :=
  byte [0x8B, 0x43, 0x0C, 0x8D, 0x48, 0xFF, 0x89, 0x4B, 0x0C, 0x85, 0xC0, 0x7E, 0x00, 0xBF, 0x0A]

/-- Bytes behind the section are changed, and code is stored to the page behind the one that is writable. -/
theorem inline_stdio_out_of_bounds :
    (seofRewrite (fun _ => true) 0 cutOffTest 0 = some ⟨[0], [(4, [0xE9, 6, 0, 0, 0, 0x90])]⟩ ∧
      ¬InBounds (fun _ => true) 0 8 false cutOffTest) ∧
    (seofRewrite (fun _ => true) 4091 shortTest 0 = some ⟨[0], [(4, [0x90, 0x90])]⟩ ∧
      ¬InBounds (fun _ => true) 4091 8 false shortTest) ∧
    (putcRewrite (fun _ => true) 4085 21 putcNewline 0 =
        some ⟨[0], [(6, [0x90, 0x90, 0x90]), (11, [0xEB, 0])]⟩ ∧
      ¬InBounds (fun _ => true) 4085 21 false putcNewline) := by
  have cut : seofRewrite (fun _ => true) 0 cutOffTest 0 = some ⟨[0], [(4, [0xE9, 6, 0, 0, 0, 0x90])]⟩ := by
    decide +kernel
  have short : seofRewrite (fun _ => true) 4091 shortTest 0 = some ⟨[0], [(4, [0x90, 0x90])]⟩ := by
    decide +kernel
  have putc : putcRewrite (fun _ => true) 4085 21 putcNewline 0 =
      some ⟨[0], [(6, [0x90, 0x90, 0x90]), (11, [0xEB, 0])]⟩ := by decide +kernel
  refine ⟨⟨cut, fun all => ?_⟩, ⟨short, fun all => ?_⟩, putc, fun all => ?_⟩
  · have behind := (all.2.1.1 _ cut 8 (by decide)).1
    omega
  · have page := (all.2.1.1 _ short 5 (by decide)).2
    exact absurd page (by decide)
  · have page := (all.2.2.1 _ putc 11 (by decide)).2
    exact absurd page (by decide)

end Macify.Entry
