import Macify.Entry.InlineStdio
import Macify.Syscall.GoPatches

/-!
# Where rewritten branches go

The rewriters of `main` and `patch_go_systemstack` emit branches of another length than those that they
replace, or from another place. `rewritten_branches_land` decodes the code that they leave, for every text
and every place that is rewritten.
-/

namespace Macify.Entry
open Lib
open Mem (leBytes)
open Syscall (SystemstackSite findSystemstack patchGoSystemstack patchGoSystemstack_of_found
  findSystemstack_spec systemstackCode)

/-- The conditional branch became a jump to its target if it was taken on `always`, and nothing otherwise. -/
def Decided (always : UInt8) (t t' : Code) (p : ℕ) : Prop :=
  ∃ cc target next, t.branchAt p = some (.cond cc target next) ∧
    if cc = always then t'.branchAt p = some (.jump target) else t'.FallsThrough p next

section Branches

variable {always : UInt8} {t t' : Code} {b : BranchSite} {s : GetcSite} {size i : ℕ} {d : UInt8}

def BranchSite.rel (t : Code) (b : BranchSite) : ℤ := if b.near then t.rel32 (b.pos + 2) else t.rel8 (b.pos + 1)

lemma BranchSite.Is.branchAt (is : b.Is always t) (kind : always = 4 ∨ always = 0xE) :
    t.branchAt b.pos = some (.cond (if b.jumps then always else always + 1) (b.pos + b.length + b.rel t)
      (b.pos + b.length)) := by
  obtain ⟨pos, near, jumps⟩ := b
  cases near with
  | false =>
    have code : t pos = 0x70 + if jumps then always else always + 1 := is
    have short : t pos &&& 0xF0 = 0x70 ∧ t pos &&& 0x0F = if jumps then always else always + 1 := by
      rw [code]
      rcases kind with rfl | rfl <;> cases jumps <;> decide
    rw [Code.branchAt_short_cond short.1, short.2]
    rfl
  | true =>
    obtain ⟨code, second⟩ : t pos = 0x0F ∧ t (pos + 1) = 0x80 + if jumps then always else always + 1 := is
    have near : t (pos + 1) &&& 0xF0 = 0x80 ∧
        t (pos + 1) &&& 0x0F = if jumps then always else always + 1 := by
      rw [second]
      rcases kind with rfl | rfl <;> cases jumps <;> decide
    rw [Code.branchAt_near_cond code near.1, near.2]
    rfl

lemma toInt_add_one {v : W32} (ne : v ≠ 0x7fffffff) : (v + 1).toInt = v.toInt + 1 := by
  have bound : v.toNat ≠ 0x7fffffff := fun e => ne (BitVec.eq_of_toNat_eq e)
  rw [BitVec.toInt_add, Int.bmod_def, BitVec.toInt_eq_toNat_cond]
  have one : (1 : W32).toInt = 1 := by decide
  have lt := v.isLt
  rw [one]
  split <;> omega

lemma BranchSite.jump_lands (jumps : b.jumps = true)
    (fits : b.near = true → t.word32 (b.pos + 2) ≠ 0x7fffffff) (holds : t'.Holds b.pos (b.code t))
    (rest : ∀ k, b.pos + b.stored ≤ k → t' k = t k) :
    t'.branchAt b.pos = some (.jump (b.pos + b.length + b.rel t)) := by
  obtain ⟨pos, near, taken⟩ := b
  obtain rfl : taken = true := jumps
  cases near with
  | false =>
    have op : t' pos = 0xEB := holds 0 Nat.one_pos
    have kept : t' (pos + 1) = t (pos + 1) := rest (pos + 1) (Nat.le_refl _)
    rw [Code.branchAt_short_jmp op, Code.rel8, kept]
    rfl
  | true =>
    have jmp : t'.Holds pos (0xE9 :: leBytes 4 (t.word32 (pos + 2) + 1).toNat) :=
      (Code.holds_append.mp holds).1
    rw [Code.branchAt_jmp jmp, toInt_add_one (fits rfl)]
    congr 2
    show (pos + 5 + ((t.word32 (pos + 2)).toInt + 1) : ℤ) = pos + 6 + (t.word32 (pos + 2)).toInt
    omega

lemma BranchSite.falls_through (falls : b.jumps = false) (holds : t'.Holds b.pos (b.code t)) :
    t'.FallsThrough b.pos (b.pos + b.length) := by
  have nops : b.code t = List.replicate b.length 0x90 := by
    unfold code
    rw [falls]
    cases b.near <;> rfl
  rw [nops] at holds
  intro k ge lt
  obtain ⟨j, rfl⟩ := Nat.exists_eq_add_of_le ge
  have bound : j < (List.replicate b.length (0x90 : UInt8)).length := by
    rw [List.length_replicate]
    omega
  rw [holds j bound, byte_of_lt bound, List.getElem_replicate]

lemma BranchSite.Is.decided (is : b.Is always t) (kind : always = 4 ∨ always = 0xE)
    (fits : b.near = true → t.word32 (b.pos + 2) ≠ 0x7fffffff) (holds : t'.Holds b.pos (b.code t))
    (rest : ∀ k, b.pos + b.stored ≤ k → t' k = t k) : Decided always t t' b.pos := by
  refine ⟨_, _, _, is.branchAt kind, ?_⟩
  cases taken : b.jumps with
  | true =>
    rw [if_pos rfl, if_pos rfl]
    exact jump_lands taken fits holds rest
  | false =>
    have other : always + 1 ≠ always := by rcases kind with rfl | rfl <;> decide
    rw [if_neg Bool.false_ne_true, if_neg other]
    exact falls_through taken holds

lemma BranchSite.code_congr (same : ∀ k, b.pos ≤ k → t' k = t k) : b.code t' = b.code t := by
  rw [code, code, Code.word32_congr fun k ge => same k (by omega)]

lemma getc_decided (found : getcSite t size i = some s)
    (fits : s.branch.near = true → t.word32 (s.branch.pos + 2) ≠ 0x7fffffff) :
    Decided 0xE t (t.storeAll (s.stores t)) s.branch.pos := by
  have site := getcSite_spec found
  have order := site.order
  -- the displacement is read when the store of `_r` is gone already, which ends before the branch
  have code : s.branch.code (t.store s.leaEnd (List.replicate s.stLen 0x90)) = s.branch.code t :=
    BranchSite.code_congr fun k ge => Code.store_outside (by rw [List.length_replicate]; omega)
  refine site.branch.decided (.inr rfl) fits (code ▸ Code.holds_store) fun k ge => ?_
  refine Code.storeAll_outside fun mem => ?_
  rw [GetcSite.mem_written_iff] at mem
  omega

lemma seof_decided (found : seofSite t i = some b) (fits : b.near = true → t.word32 (b.pos + 2) ≠ 0x7fffffff) :
    Decided 4 t (t.storeAll [(b.pos, b.code t)]) b.pos := by
  refine (seofSite_spec found).decided (.inl rfl) fits Code.holds_store fun k ge => ?_
  exact Code.store_outside (.inr (by rw [BranchSite.length_code]; exact ge))

lemma slowBranch_spec {q : ℕ} (found : slowBranch t i = some q) : t q &&& 0xF0 = 0x70 := by
  unfold slowBranch at found
  dsimp only at found
  split_ifs at found with jle je line buffered full
  all_goals obtain rfl := Option.some.inj found
  · rw [jle]; rfl
  · rw [je]; rfl
  · rw [line.2.2]; rfl
  · rw [buffered.2]; rfl
  · rw [full.2]; rfl

lemma putc_lands (found : putcSite t size i = some d) :
    ∃ q cc slow next, slowBranch t i = some q ∧ t.branchAt q = some (.cond cc slow next) ∧
      (t.storeAll (putcStores i d)).branchAt (i + 11) = some (.jump slow) := by
  unfold putcSite at found
  split at found
  next => cases found
  next =>
    obtain ⟨slow, label, found⟩ := Option.bind_eq_some_iff.mp found
    obtain ⟨q, branch, target⟩ := Option.map_eq_some_iff.mp label
    have old : t.branchAt q = some (.cond (t q &&& 0x0F) slow (q + 2)) := by
      rw [Code.branchAt_short_cond (slowBranch_spec branch), target]
    refine ⟨q, _, slow, _, branch, old, ?_⟩
    have stored : (t.storeAll (putcStores i d)).Holds (i + 11) [0xEB, d] := Code.holds_store
    have op : t.storeAll (putcStores i d) (i + 11) = 0xEB := stored 0 Nat.two_pos
    have rel : t.storeAll (putcStores i d) (i + 12) = d := stored 1 Nat.one_lt_two
    have reached : slow = i + 13 + d.toBitVec.toInt := by
      dsimp only at found
      split_ifs at found with _ away
      obtain rfl := Option.some.inj found
      exact not_not.mp away
    rw [Code.branchAt_short_jmp op, Code.rel8, rel, reached]
    congr 2

/-- The four emitters, for every text. A near branch must not have the displacement `0x7fffffff`, and the
    segment of the last one is smaller than 2 GiB. -/
theorem rewritten_branches_land :
    (∀ t size i s, getcSite t size i = some s →
      (s.branch.near = true → t.word32 (s.branch.pos + 2) ≠ 0x7fffffff) →
      Decided 0xE t (t.storeAll (s.stores t)) s.branch.pos) ∧
    (∀ t i b, seofSite t i = some b →
      (b.near = true → t.word32 (b.pos + 2) ≠ 0x7fffffff) →
      Decided 4 t (t.storeAll [(b.pos, b.code t)]) b.pos) ∧
    (∀ t size i d, putcSite t size i = some d →
      ∃ q cc slow next, slowBranch t i = some q ∧ t.branchAt q = some (.cond cc slow next) ∧
        (t.storeAll (putcStores i d)).branchAt (i + 11) = some (.jump slow)) ∧
    ∀ vmsize m s, vmsize < 2 ^ 31 → findSystemstack vmsize m = some (some s) →
      ∃ stores, patchGoSystemstack vmsize m = some stores ∧ s.Lands (Code.storeAll m stores) := by
  refine ⟨fun t size i s found fits => getc_decided found fits,
    fun t i b found fits => seof_decided found fits, fun t size i d found => putc_lands found, ?_⟩
  intro vmsize m s small search
  obtain ⟨r, total, found⟩ := @findSystemstack_spec vmsize m
  rw [search, Option.some.injEq] at total
  exact ⟨_, patchGoSystemstack_of_found search, (found s total.symm).lands small⟩

end Branches

def getcNear : Code :=
  byte [0x90, 0x90, 0x8B, 0x43, 0x08, 0x8D, 0x48, 0xFF, 0x89, 0x4B, 0x08, 0x85, 0xC0, 0x0F, 0x8E, 0x10]

theorem rewritten_branches_land_each :
    (getcSite getcNear 24 5 = some ⟨8, 3, ⟨13, true, true⟩⟩ ∧
      Decided 0xE getcNear (getcNear.storeAll (GetcSite.stores getcNear ⟨8, 3, ⟨13, true, true⟩⟩)) 13) ∧
    (seofSite cutOffTest 0 = some ⟨4, true, true⟩ ∧
      Decided 4 cutOffTest (cutOffTest.storeAll [(4, BranchSite.code cutOffTest ⟨4, true, true⟩)]) 4) ∧
    (putcSite putcNewline 21 0 = some 0 ∧
      ∃ q cc slow next, slowBranch putcNewline 0 = some q ∧
        putcNewline.branchAt q = some (.cond cc slow next) ∧
        (putcNewline.storeAll (putcStores 0 0)).branchAt 11 = some (.jump slow)) ∧
    findSystemstack 64 (systemstackCode 39) = some (some ⟨0, 20, 17⟩) ∧
      ∃ stores, patchGoSystemstack 64 (systemstackCode 39) = some stores ∧
        SystemstackSite.Lands ⟨0, 20, 17⟩ (Code.storeAll (systemstackCode 39) stores) := by
  have getc : getcSite getcNear 24 5 = some ⟨8, 3, ⟨13, true, true⟩⟩ := by decide +kernel
  have seof : seofSite cutOffTest 0 = some ⟨4, true, true⟩ := by decide +kernel
  have putc : putcSite putcNewline 21 0 = some 0 := by decide +kernel
  have search : findSystemstack 64 (systemstackCode 39) = some (some ⟨0, 20, 17⟩) := by decide +kernel
  obtain ⟨decided, tested, slow, lands⟩ := rewritten_branches_land
  exact ⟨⟨getc, decided _ _ _ _ getc fun _ => by decide +kernel⟩,
    ⟨seof, tested _ _ _ seof fun _ => by decide +kernel⟩, ⟨putc, slow _ _ _ _ putc⟩, search,
    lands _ _ _ (by decide) search⟩

end Macify.Entry
