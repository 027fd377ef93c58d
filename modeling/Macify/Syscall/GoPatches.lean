import Macify.Lib.Code
import Macify.Lib.Loop

/-!
# Patches for Go programs

Models of `patch_go_systemstack` and `patch_go_gs_probe` (`src/syscall/patcher.c`), which rewrite the first sequence of
instructions of the Go runtime that they find. The first takes room for two trampolines from padding; reads fail
outside of the segment (`readAt`). `systemstack_patch_iff` says when all that it overwrites is padding,
`gs_probes_gone_iff` when one run of the second is enough.
-/

namespace Macify.Syscall
open Lib
open Mem (leBytes)

def readAt (vmsize : ℕ) (m : Code) (k : ℕ) : Option UInt8 := if k < vmsize then some (m k) else none

def readsByte (vmsize : ℕ) (m : Code) (k : ℕ) (v : UInt8) : Option Bool := (readAt vmsize m k).map (· == v)

def memcmpAt (vmsize : ℕ) (m : Code) (p : ℕ) (bytes : Buf) : Option Bool :=
  if p + bytes.length ≤ vmsize then some (decide (m.Holds p bytes)) else none

def both (a b : Option Bool) : Option Bool := a.bind fun x => if x then b else some false

/-- `mov gs:0x30, rax`, `mov rsp, [rax+0x38]` and the prefix of the next instruction. -/
def systemstackPattern : Buf :=
  [0x65, 0x48, 0x89, 0x04, 0x25, 0x30, 0x00, 0x00, 0x00, 0x48, 0x8B, 0x60, 0x38, 0x48]

/-- The loop `while (j + pad < vmsize && base[j + pad] == 0xCC) pad++`. -/
def padLength (vmsize : ℕ) (m : Code) (j : ℕ) : ℕ :=
  ((List.range' j (vmsize - j)).takeWhile fun k => m k == 0xCC).length

def paddingAt (vmsize : ℕ) (m : Code) (j : ℕ) : Option (Option ℕ) :=
  (both (readsByte vmsize m j 0xCC)
    (both (readsByte vmsize m (j + 1) 0xCC) (readsByte vmsize m (j + 2) 0xCC))).map fun here : Bool =>
      if here ∧ 39 ≤ padLength vmsize m j then some j else none

def popRetAt (vmsize : ℕ) (m : Code) (j : ℕ) : Option (Option ℕ) :=
  (both (readsByte vmsize m j 0x5D) (readsByte vmsize m (j + 1) 0xC3)).map fun here =>
    if here then some j else none

structure SystemstackSite where
  pos : ℕ
  trampoline : ℕ
  popRet : ℕ
  deriving DecidableEq

def SystemstackSite.t1 (s : SystemstackSite) : ℕ := s.trampoline

def SystemstackSite.t2 (s : SystemstackSite) : ℕ := s.trampoline + 22

def systemstackAt (vmsize : ℕ) (m : Code) (i : ℕ) : Option (Option SystemstackSite) :=
  (both (memcmpAt vmsize m i systemstackPattern)
    (both (readsByte vmsize m (i + 14) 0x8B) (readsByte vmsize m (i + 15) 0x68))).bind fun here =>
      if !here then some none
      else
        (searchUp (paddingAt vmsize m) (i + 20) (vmsize - 39 - (i + 20))).bind fun
          | none => some none
          | some trampoline =>
            (searchUp (popRetAt vmsize m) (i + 17) 33).map fun found =>
              found.map fun popRet => ⟨i, trampoline, popRet⟩

def findSystemstack (vmsize : ℕ) (m : Code) : Option (Option SystemstackSite) :=
  searchUp (systemstackAt vmsize m) 0 (vmsize - 34)

def displacement (target next : ℕ) : W32 := BitVec.ofInt 32 (target - next)

def disp32 (target next : ℕ) : Buf := leBytes 4 (displacement target next).toNat

namespace SystemstackSite

variable (s : SystemstackSite)

/-- Without a current goroutine: `mov rax, [rbx]`, `mov gs:0x30, rax`, and the end of the function. -/
def trampoline1 : Buf :=
  0x48 :: 0x8B :: 0x03 :: systemstackPattern.take 9 ++
    (0xE9 :: disp32 s.popRet (s.t1 + 17) ++ List.replicate 5 0x90)

/-- With one: what the patched instructions did, and back behind them. -/
def trampoline2 (disp8 : UInt8) : Buf :=
  systemstackPattern.take 13 ++ [0x48, 0x8B, 0x68, disp8] ++ 0xE9 :: disp32 (s.pos + 17) (s.t2 + 22)

def patch : Buf :=
  [0x48, 0x85, 0xC0] ++ (0x0F :: 0x84 :: disp32 s.t1 (s.pos + 3 + 6) ++ 0xE9 :: disp32 s.t2 (s.pos + 14))

def stores (disp8 : UInt8) : List (ℕ × Buf) :=
  [(s.t1, s.trampoline1), (s.t2, s.trampoline2 disp8), (s.pos, s.patch)]

end SystemstackSite

def patchGoSystemstack (vmsize : ℕ) (m : Code) : Option (List (ℕ × Buf)) :=
  (findSystemstack vmsize m).bind fun
    | none => some []
    | some s =>
      (readAt vmsize (m.store s.t1 s.trampoline1) (s.pos + 16)).map fun disp8 => s.stores disp8

section Systemstack

variable {vmsize : ℕ} {m : Code} {i j k : ℕ} {s : SystemstackSite} {disp8 v : UInt8}

lemma readAt_of_lt (lt : k < vmsize) : readAt vmsize m k = some (m k) := if_pos lt

lemma readsByte_of_lt (lt : k < vmsize) : readsByte vmsize m k v = some (m k == v) := by
  rw [readsByte, readAt_of_lt lt, Option.map_some]

lemma both_some {x y : Bool} : both (some x) (some y) = some (x && y) := by
  cases x <;> rfl

lemma byte_of_padLength {n : ℕ} (long : n ≤ padLength vmsize m j) (lt : k < n) : m (j + k) = 0xCC := by
  have pre := List.takeWhile_prefix (fun k => m k == 0xCC) (l := List.range' j (vmsize - j))
  have bound : k < ((List.range' j (vmsize - j)).takeWhile fun k => m k == 0xCC).length := lt.trans_le long
  have all := List.all_takeWhile (p := fun k => m k == 0xCC) (l := List.range' j (vmsize - j))
  have here := List.all_eq_true.mp all _ (List.getElem_mem bound)
  rw [pre.getElem bound, List.getElem_range', Nat.one_mul, beq_iff_eq] at here
  exact here

lemma paddingAt_spec (lt : j + 39 < vmsize) :
    ∃ r, paddingAt vmsize m j = some r ∧ ∀ t, r = some t → t = j ∧ ∀ k, k < 39 → m (j + k) = 0xCC := by
  unfold paddingAt
  rw [readsByte_of_lt (by omega), readsByte_of_lt (by omega), readsByte_of_lt (by omega), both_some,
    both_some, Option.map_some]
  refine ⟨_, rfl, fun t found => ?_⟩
  split at found
  next long => exact ⟨(Option.some.inj found).symm, fun k lt => byte_of_padLength long.2 lt⟩
  next => cases found

lemma popRetAt_spec (lt : j + 1 < vmsize) :
    ∃ r, popRetAt vmsize m j = some r ∧ ∀ p, r = some p → p = j ∧ m j = 0x5D ∧ m (j + 1) = 0xC3 := by
  unfold popRetAt
  rw [readsByte_of_lt (by omega), readsByte_of_lt lt, both_some, Option.map_some]
  refine ⟨_, rfl, fun p found => ?_⟩
  split at found
  next here =>
    rw [Bool.and_eq_true, beq_iff_eq, beq_iff_eq] at here
    exact ⟨(Option.some.inj found).symm, here⟩
  next => cases found

structure SystemstackSite.Found (vmsize : ℕ) (m : Code) (s : SystemstackSite) : Prop where
  pattern : m.Holds s.pos systemstackPattern
  after : s.pos + 20 ≤ s.trampoline
  room : s.trampoline + 39 < vmsize
  padding : ∀ k, k < 39 → m (s.trampoline + k) = 0xCC
  popRet : s.pos + 17 ≤ s.popRet ∧ s.popRet < s.pos + 50
  ret : m s.popRet = 0x5D ∧ m (s.popRet + 1) = 0xC3

lemma systemstackAt_spec (lt : i + 34 < vmsize) :
    ∃ r, systemstackAt vmsize m i = some r ∧ ∀ s, r = some s → s.Found vmsize m := by
  unfold systemstackAt
  have compared : memcmpAt vmsize m i systemstackPattern = some (decide (m.Holds i systemstackPattern)) :=
    if_pos (show i + 14 ≤ vmsize by omega)
  rw [compared, readsByte_of_lt (by omega), readsByte_of_lt (by omega), both_some, both_some, Option.bind_some]
  split
  next => exact ⟨none, rfl, nofun⟩
  next matched =>
    rw [Bool.not_eq_true, Bool.not_eq_false', Bool.and_eq_true, decide_eq_true_iff] at matched
    obtain ⟨t, padded, padding⟩ := @searchUp_spec _ (paddingAt vmsize m)
      (fun j t => t = j ∧ ∀ k, k < 39 → m (j + k) = 0xCC) (i + 20) (vmsize - 39 - (i + 20))
      fun j ge lt => paddingAt_spec (by omega)
    rw [padded, Option.bind_some]
    cases t with
    | none => exact ⟨none, rfl, nofun⟩
    | some t =>
      obtain ⟨j, ge, lt, rfl, padding⟩ := padding t rfl
      have room : t + 39 < vmsize := by omega
      obtain ⟨p, popped, found⟩ := @searchUp_spec _ (popRetAt vmsize m)
        (fun j p => p = j ∧ m j = 0x5D ∧ m (j + 1) = 0xC3) (i + 17) 33
        fun j ge' lt' => popRetAt_spec (by omega)
      refine ⟨_, by rw [popped]; rfl, fun s eq => ?_⟩
      cases p with
      | none => cases eq
      | some p =>
        obtain rfl := Option.some.inj eq
        obtain ⟨j, above, below, rfl, ret⟩ := found p rfl
        exact ⟨matched.1, ge, room, padding, ⟨above, by omega⟩, ret⟩

lemma findSystemstack_spec : ∃ r, findSystemstack vmsize m = some r ∧ ∀ s, r = some s → s.Found vmsize m := by
  obtain ⟨r, search, found⟩ := @searchUp_spec _ (systemstackAt vmsize m) (fun _ s => s.Found vmsize m) 0
    (vmsize - 34) fun i _ lt => systemstackAt_spec (by omega)
  refine ⟨r, search, fun s eq => ?_⟩
  obtain ⟨-, -, -, here⟩ := found s eq
  exact here

namespace SystemstackSite

@[simp] lemma length_disp32 {target next : ℕ} : (disp32 target next).length = 4 := Mem.length_leBytes

@[simp] lemma length_trampoline1 : s.trampoline1.length = 22 := by simp [trampoline1, systemstackPattern]

@[simp] lemma length_trampoline2 : (s.trampoline2 disp8).length = 22 := by
  simp [trampoline2, systemstackPattern]

@[simp] lemma length_patch : s.patch.length = 14 := by simp [patch]

lemma mem_written_iff :
    k ∈ Code.written (s.stores disp8) ↔
      s.trampoline ≤ k ∧ k < s.trampoline + 44 ∨ s.pos ≤ k ∧ k < s.pos + 14 := by
  simp only [stores, Code.mem_written_cons, Code.mem_written_nil, or_false, length_trampoline1,
    length_trampoline2, length_patch, t1, t2]
  omega

end SystemstackSite

def Spared (vmsize : ℕ) (m : Code) (stores : List (ℕ × Buf)) : Prop :=
  ∀ k ∈ Code.written stores,
    (∃ s, findSystemstack vmsize m = some (some s) ∧ s.pos ≤ k ∧ k < s.pos + systemstackPattern.length) ∨
      m k = 0xCC

lemma patchGoSystemstack_of_found (search : findSystemstack vmsize m = some (some s)) :
    patchGoSystemstack vmsize m = some (s.stores (m (s.pos + 16))) := by
  obtain ⟨r, total, found⟩ := @findSystemstack_spec vmsize m
  rw [search, Option.some.injEq] at total
  have site := found s total.symm
  have after := site.after
  have room := site.room
  rw [patchGoSystemstack, search, Option.bind_some]
  dsimp only
  rw [readAt_of_lt (by omega), Option.map_some, Code.store_outside (by rw [SystemstackSite.t1]; omega)]

/-- All reads are inside, and what is overwritten is padding if there are five more bytes of it than are asked for. -/
theorem systemstack_patch_iff :
    (∃ stores, patchGoSystemstack vmsize m = some stores ∧ Spared vmsize m stores) ↔
      ∀ s, findSystemstack vmsize m = some (some s) →
        ∀ k, 39 ≤ k → k < 44 → m (s.trampoline + k) = 0xCC := by
  obtain ⟨r, search, found⟩ := @findSystemstack_spec vmsize m
  unfold Spared
  cases r with
  | none =>
    rw [patchGoSystemstack, search, Option.bind_some]
    exact iff_of_true ⟨[], rfl, nofun⟩ nofun
  | some s =>
    have site := found s rfl
    rw [patchGoSystemstack_of_found search, search]
    simp only [Option.some.injEq, exists_eq_left', forall_eq']
    constructor
    · intro spared k ge lt
      have mem : s.trampoline + k ∈ Code.written (s.stores (m (s.pos + 16))) :=
        SystemstackSite.mem_written_iff.mpr (.inl ⟨by omega, by omega⟩)
      refine (spared _ mem).resolve_left fun inside => ?_
      have after := site.after
      have pattern : s.trampoline + k < s.pos + 14 := inside.2
      omega
    · intro padded k mem
      rcases SystemstackSite.mem_written_iff.mp mem with ⟨ge, lt⟩ | inside
      · obtain ⟨j, rfl⟩ := Nat.exists_eq_add_of_le ge
        rcases Nat.lt_or_ge j 39 with near | far
        · exact .inr (site.padding j near)
        · exact .inr (padded j far (by omega))
      · exact .inl inside

def systemstackCode (pad : ℕ) : Code :=
  byte (systemstackPattern ++ [0x8B, 0x68, 0x60, 0x5D, 0xC3, 0x90] ++ List.replicate pad 0xCC ++
    List.replicate 8 0x55)

/-- With 39 bytes of padding, five bytes of the code behind it are overwritten. -/
theorem systemstack_patch_overruns :
    findSystemstack 64 (systemstackCode 39) = some (some ⟨0, 20, 17⟩) ∧
      systemstackCode 39 59 = 0x55 ∧
      ∃ stores, patchGoSystemstack 64 (systemstackCode 39) = some stores ∧
        Code.storeAll (systemstackCode 39) stores 59 = 0xE9 ∧ ¬Spared 64 (systemstackCode 39) stores := by
  have search : findSystemstack 64 (systemstackCode 39) = some (some ⟨0, 20, 17⟩) := by decide +kernel
  refine ⟨search, by decide +kernel, _, patchGoSystemstack_of_found search, by decide +kernel, ?_⟩
  intro spared
  have mem : 59 ∈ Code.written (SystemstackSite.stores ⟨0, 20, 17⟩ (systemstackCode 39 (0 + 16))) :=
    SystemstackSite.mem_written_iff.mpr (.inl (by decide))
  rcases spared 59 mem with ⟨s, here, -, lt⟩ | padding
  · rw [search] at here
    cases here
    exact absurd lt (by decide)
  · exact absurd padding (by decide +kernel)

/-- The four branches of the patch and its trampolines. Where the first trampoline goes, there is still `pop rbp;
    ret`. -/
structure SystemstackSite.Lands (s : SystemstackSite) (m : Code) : Prop where
  null : m.branchAt (s.pos + 3) = some (.cond 4 s.t1 (s.pos + 9))
  current : m.branchAt (s.pos + 9) = some (.jump s.t2)
  finish : m.branchAt (s.t1 + 12) = some (.jump s.popRet)
  ret : m s.popRet = 0x5D ∧ m (s.popRet + 1) = 0xC3
  resume : m.branchAt (s.t2 + 17) = some (.jump (s.pos + 17 : ℕ))

lemma toInt_displacement {target next : ℕ} (low : target < 2 ^ 31) (back : next ≤ target + 2 ^ 31) :
    (displacement target next).toInt = target - next := by
  rw [displacement, BitVec.toInt_ofInt, Int.bmod_def]
  omega

lemma branchAt_disp32 {p target next : ℕ} (holds : m.Holds p (0xE9 :: disp32 target next))
    (place : next = p + 5) (low : target < 2 ^ 31) (back : next ≤ target + 2 ^ 31) :
    m.branchAt p = some (.jump target) := by
  rw [Code.branchAt_jmp holds, toInt_displacement low back, place]
  congr 2
  omega

lemma SystemstackSite.Found.ret_kept (found : s.Found vmsize m) :
    m.storeAll (s.stores disp8) s.popRet = m s.popRet ∧
      m.storeAll (s.stores disp8) (s.popRet + 1) = m (s.popRet + 1) := by
  obtain ⟨above, below⟩ := found.popRet
  have kept : ∀ k, s.pos + 17 ≤ k → k < s.trampoline + 39 → m k ≠ 0xCC →
      m.storeAll (s.stores disp8) k = m k := by
    intro k ge lt code
    refine Code.storeAll_outside fun mem => ?_
    rcases mem_written_iff.mp mem with ⟨inside, -⟩ | front
    · obtain ⟨j, rfl⟩ := Nat.exists_eq_add_of_le inside
      exact code (found.padding j (by omega))
    · omega
  have after := found.after
  constructor
  · exact kept _ above (by omega) (by rw [found.ret.1]; decide)
  · exact kept _ (by omega) (by omega) (by rw [found.ret.2]; decide)

lemma SystemstackSite.Found.lands (found : s.Found vmsize m) (small : vmsize < 2 ^ 31) :
    s.Lands (m.storeAll (s.stores disp8)) := by
  have after := found.after
  have room := found.room
  have popRet := found.popRet.2
  have at1 : s.t1 = s.trampoline := rfl
  have at2 : s.t2 = s.trampoline + 22 := rfl
  have patched : (m.storeAll (s.stores disp8)).Holds s.pos s.patch := Code.holds_store
  have second : (m.storeAll (s.stores disp8)).Holds s.t2 (s.trampoline2 disp8) :=
    Code.holds_store.store_apart (by rw [length_patch]; omega)
  have first : (m.storeAll (s.stores disp8)).Holds s.t1 s.trampoline1 := by
    refine (Code.holds_store.store_apart ?_).store_apart ?_
    · rw [length_trampoline1]; omega
    · rw [length_patch]; omega
  obtain ⟨je, jmp⟩ := Code.holds_append.mp (Code.holds_append.mp patched).2
  have je : (m.storeAll (s.stores disp8)).Holds (s.pos + 3) (0x0F :: 0x84 :: disp32 s.t1 (s.pos + 9)) := je
  have jmp : (m.storeAll (s.stores disp8)).Holds (s.pos + 9) (0xE9 :: disp32 s.t2 (s.pos + 14)) := jmp
  have finish : (m.storeAll (s.stores disp8)).Holds (s.t1 + 12) (0xE9 :: disp32 s.popRet (s.t1 + 17)) :=
    (Code.holds_append.mp (Code.holds_append.mp first).2).1
  have resume : (m.storeAll (s.stores disp8)).Holds (s.t2 + 17)
      (0xE9 :: disp32 (s.pos + 17) (s.t2 + 22)) := (Code.holds_append.mp second).2
  constructor
  · rw [Code.branchAt_je je, toInt_displacement (by omega) (by omega)]
    congr 2
    omega
  · exact branchAt_disp32 jmp rfl (by omega) (by omega)
  · exact branchAt_disp32 finish rfl (by omega) (by omega)
  · rw [found.ret_kept.1, found.ret_kept.2]
    exact found.ret
  · exact branchAt_disp32 resume rfl (by omega) (by omega)

end Systemstack

/-- `mov gs:0x30, 0x123` and `mov rax, [rip+disp32]` without its displacement. -/
def probeHead : Buf :=
  [0x65, 0x48, 0xC7, 0x04, 0x25, 0x30, 0x00, 0x00, 0x00, 0x23, 0x01, 0x00, 0x00, 0x48, 0x8B, 0x05]

/-- `cmp rax, 0x123` and the opcode of `je`. -/
def probeTail : Buf := [0x48, 0x3D, 0x23, 0x01, 0x00, 0x00, 0x74]

/-- `je_off`; the comment in the source says 27. -/
def jeOff : ℕ := 26

def gsProbe (m : Code) (i : ℕ) : Bool :=
  decide (m.Holds i probeHead) && decide (m.Holds (i + 20) probeTail) &&
    decide (0 < m.rel8 (i + jeOff + 1) ∧ m.rel8 (i + jeOff + 1) ≤ 16) && m (i + jeOff + 2) == 0xE8

def patchGoGsProbe (vmsize : ℕ) (m : Code) : Code :=
  match (List.range (vmsize - 28)).find? (gsProbe m) with
  | none => m
  | some i => m.store (i + jeOff) [0xEB]

def ProbeAt (vmsize : ℕ) (m : Code) (i : ℕ) : Prop := i + 28 < vmsize ∧ gsProbe m i = true

section GsProbe

variable {vmsize : ℕ} {m : Code} {i j k : ℕ}

lemma gsProbe_iff :
    gsProbe m i = true ↔ m.Holds i probeHead ∧ m.Holds (i + 20) probeTail ∧
      (0 < m.rel8 (i + 27) ∧ m.rel8 (i + 27) ≤ 16) ∧ m (i + 28) = 0xE8 := by
  rw [gsProbe, Bool.and_eq_true, Bool.and_eq_true, Bool.and_eq_true, decide_eq_true_iff,
    decide_eq_true_iff, decide_eq_true_iff, beq_iff_eq, and_assoc, and_assoc]
  rfl

/-- The offsets of the bytes that a test looks at: all but the displacement. -/
def Looked (k : ℕ) : Prop := k < 16 ∨ 20 ≤ k ∧ k < 29

lemma gsProbe_congr {m' : Code} (same : ∀ k, Looked k → m' (j + k) = m (j + k)) : gsProbe m' j = gsProbe m j := by
  have head : m'.Holds j probeHead ↔ m.Holds j probeHead :=
    forall₂_congr fun k lt => by rw [same k (.inl lt)]
  have tail : m'.Holds (j + 20) probeTail ↔ m.Holds (j + 20) probeTail := by
    refine forall₂_congr fun k lt => ?_
    have lt : k < 7 := lt
    rw [Nat.add_assoc, same (20 + k) (.inr ⟨by omega, by omega⟩)]
  rw [Bool.eq_iff_iff, gsProbe_iff, gsProbe_iff, head, tail, Code.rel8, Code.rel8,
    same 27 (.inr (by decide)), same 28 (.inr (by decide))]

lemma probe_byte (probe : gsProbe m j = true) (looked : Looked k) :
    m (j + k) ≠ 0xEB ∧ (m (j + k) = 0x74 → k = jeOff) := by
  obtain ⟨head, tail, rel, call⟩ := gsProbe_iff.mp probe
  have inHead : ∀ k, k < 16 → byte probeHead k ≠ 0xEB ∧ (byte probeHead k = 0x74 → k = jeOff) := by decide
  have inTail : ∀ d, d < 7 → byte probeTail d ≠ 0xEB ∧ (byte probeTail d = 0x74 → 20 + d = jeOff) := by
    decide
  rcases looked with front | ⟨ge, lt⟩
  · rw [head k front]
    exact inHead k front
  · obtain ⟨d, rfl⟩ := Nat.exists_eq_add_of_le ge
    rcases Nat.lt_or_ge d 7 with short | behind
    · rw [← Nat.add_assoc, tail d short]
      exact inTail d short
    · obtain rfl | rfl : d = 7 ∨ d = 8 := by omega
      · constructor
        · intro jump
          rw [Code.rel8, jump] at rel
          exact absurd rel (by decide)
        · intro je
          rw [Code.rel8, je] at rel
          exact absurd rel (by decide)
      · rw [call]
        exact ⟨by decide, fun je => absurd je (by decide)⟩

/-- The patch of one test leaves all others as they are, because none looks at the patched byte. -/
lemma gsProbe_store (probe : gsProbe m i = true) (ne : j ≠ i) :
    gsProbe (m.store (i + jeOff) [0xEB]) j = gsProbe m j := by
  have before : m (i + jeOff) = 0x74 := (gsProbe_iff.mp probe).2.1 6 (by decide)
  have after : m.store (i + jeOff) [0xEB] (i + jeOff) = 0xEB := Code.holds_store 0 (by decide)
  have agree (clear : ∀ k, Looked k → j + k ≠ i + jeOff) :
      gsProbe (m.store (i + jeOff) [0xEB]) j = gsProbe m j :=
    gsProbe_congr fun k looked => Code.store_outside (by
      have := clear k looked
      rw [List.length_singleton]
      omega)
  by_cases clear : ∀ k, Looked k → j + k ≠ i + jeOff
  · exact agree clear
  · push Not at clear
    obtain ⟨k, looked, here⟩ := clear
    -- both tests fail at the patched byte
    have unpatched : gsProbe m j = false := by
      by_contra probe
      have only := (probe_byte (eq_true_of_ne_false probe) looked).2
      rw [here] at only
      have := only before
      omega
    rw [unpatched]
    by_contra probe
    have never := (probe_byte (eq_true_of_ne_false probe) looked).1
    rw [here] at never
    exact never after

/-- For every contents of the segment. -/
theorem gs_probes_gone_iff :
    (∀ i, ¬ProbeAt vmsize (patchGoGsProbe vmsize m) i) ↔
      ∀ i j, ProbeAt vmsize m i → ProbeAt vmsize m j → i = j := by
  unfold patchGoGsProbe
  cases search : (List.range (vmsize - 28)).find? (gsProbe m) with
  | none =>
    have absent (i : ℕ) : ¬ProbeAt vmsize m i := by
      rintro ⟨lt, probe⟩
      exact List.find?_eq_none.mp search i (List.mem_range.mpr (by omega)) probe
    exact iff_of_true absent fun i j here _ => absurd here (absent i)
  | some i =>
    have probe : gsProbe m i = true := List.find?_some search
    have inside : i + 28 < vmsize := by
      have := List.mem_range.mp (List.mem_of_find?_eq_some search)
      omega
    constructor
    · intro gone j k atJ atK
      have only (j : ℕ) (here : ProbeAt vmsize m j) : j = i := by
        by_contra ne
        exact gone j ⟨here.1, by rw [gsProbe_store probe ne]; exact here.2⟩
      rw [only j atJ, only k atK]
    · rintro single j ⟨lt, left⟩
      by_cases here : j = i
      · subst here
        exact (probe_byte left (.inr (by decide) : Looked jeOff)).1 (Code.holds_store 0 (by decide))
      · dsimp only at left
        rw [gsProbe_store probe here] at left
        exact here (single j i ⟨lt, left⟩ ⟨inside, probe⟩)

def probeCode : Buf := probeHead ++ [0, 0, 0, 0] ++ probeTail ++ [0x05, 0xE8, 0, 0, 0, 0]

/-- The second of two tests is left. -/
theorem gs_probe_survives :
    ProbeAt 66 (byte (probeCode ++ probeCode)) 0 ∧ ProbeAt 66 (byte (probeCode ++ probeCode)) 33 ∧
      ProbeAt 66 (patchGoGsProbe 66 (byte (probeCode ++ probeCode))) 33 :=
  ⟨⟨by decide, by decide +kernel⟩, ⟨by decide, by decide +kernel⟩, ⟨by decide, by decide +kernel⟩⟩

end GsProbe

end Macify.Syscall
