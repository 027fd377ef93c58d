import Macify.Image.Segments
import Macify.Lib.CStrings

/-!
# Thread-local variables

The loader finds the sections `__thread_data` and `__thread_bss` (`src/main.c`) and hands an address and two sizes to
the shim, which allocates a block for each thread that asks for a variable (`shim/shim_tlv.c`). The block is as large
as the two sections, and the storage of a variable starts at the offset in its descriptor, a difference of addresses.
Main result: `tlv_blocks_cover_iff`.
-/

namespace Macify.Shim.ThreadLocals
open Lib Image

structure TlvInfo where
  dataBase : W64
  dataSize : W64
  bssSize : W64

def threadData (sections : List LoadedSection) : Option LoadedSection :=
  findSection sections (ascii "__DATA") (ascii "__thread_data")

def threadBss (sections : List LoadedSection) : Option LoadedSection :=
  findSection sections (ascii "__DATA") (ascii "__thread_bss")

def tlvInfo (sections : List LoadedSection) : TlvInfo where
  dataBase := ((threadData sections).map LoadedSection.addr).getD 0
  dataSize := ((threadData sections).map LoadedSection.size).getD 0
  bssSize := ((threadBss sections).map LoadedSection.size).getD 0

/-- A thread: how deep it is in `__tlv_bootstrap_impl`, and its block. -/
structure TlvThread where
  depth : ℕ
  block : Option Buf

def TlvThread.new : TlvThread := ⟨0, none⟩

def TlvInfo.total (info : TlvInfo) : W64 :=
  let total := info.dataSize + info.bssSize
  if total = 0 then 4096 else total

def TlvInfo.newBlock (info : TlvInfo) (mem : Mem) : Buf :=
  let zeros := List.replicate info.total.toNat 0
  if info.dataBase ≠ 0 ∧ 0 < info.dataSize then
    mem.load info.dataBase info.dataSize.toNat ++ zeros.drop info.dataSize.toNat
  else zeros

def getTlvBlock (info : TlvInfo) (mem : Mem) (t : TlvThread) : Buf × TlvThread :=
  match t.block with
  | some block => (block, t)
  | none => (info.newBlock mem, { t with block := some (info.newBlock mem) })

def tlvBootstrapImpl (info : TlvInfo) (mem : Mem) (offset : W64) (t : TlvThread) : Option ((Buf × W64) × TlvThread) :=
  if 10 < t.depth + 1 then none
  else
    let r := getTlvBlock info mem { t with depth := t.depth + 1 }
    some ((r.1, offset), { r.2 with depth := r.2.depth - 1 })

/-- The sections for variables that are filled with zeros lie behind the others, and both in the address space. -/
structure TlvImage where
  sections : List LoadedSection
  mapped : ∀ td, threadData sections = some td → td.addr ≠ 0
  ordered : ∀ td tb, threadData sections = some td → threadBss sections = some tb →
    td.addr.toNat + td.size.toNat ≤ tb.addr.toNat
  dataInside : ∀ td, threadData sections = some td → td.addr.toNat + td.size.toNat ≤ 2 ^ 64
  bssInside : ∀ tb, threadBss sections = some tb → tb.addr.toNat + tb.size.toNat ≤ 2 ^ 64

structure Variable where
  addr : W64
  size : ℕ
  zeroFill : Bool

namespace TlvImage

variable (image : TlvImage)

def Has (v : Variable) : Prop :=
  0 < v.size ∧ ∃ s, (if v.zeroFill then threadBss image.sections else threadData image.sections) = some s ∧
    s.addr.toNat ≤ v.addr.toNat ∧ v.addr.toNat + v.size ≤ s.addr.toNat + s.size.toNat

def start : W64 :=
  (((threadData image.sections).or (threadBss image.sections)).map LoadedSection.addr).getD 0

def offset (v : Variable) : W64 := v.addr - image.start

def initial (mem : Mem) (v : Variable) : Buf :=
  if v.zeroFill then List.replicate v.size 0 else mem.load v.addr v.size

/-- A new thread gets storage for the variable that lies in its block and holds the right bytes. -/
def Covers (mem : Mem) (v : Variable) : Prop :=
  ∃ block offset t,
    tlvBootstrapImpl (tlvInfo image.sections) mem (image.offset v) .new = some ((block, offset), t) ∧
      offset.toNat + v.size ≤ block.length ∧ (block.drop offset.toNat).take v.size = initial mem v

/-- The sections are next to each other, or there is nothing in the second one. -/
def Gapless : Prop :=
  ∀ td tb, threadData image.sections = some td → threadBss image.sections = some tb →
    tb.size = 0 ∨ tb.addr = td.addr + td.size

end TlvImage

section Blocks

variable {image : TlvImage} {mem : Mem} {v : Variable} {td tb : LoadedSection}

lemma load_zero {a : W64} : mem.load a 0 = [] := rfl

lemma sizes_lt : (tlvInfo image.sections).dataSize.toNat + (tlvInfo image.sections).bssSize.toNat < 2 ^ 64 := by
  unfold tlvInfo
  cases data : threadData image.sections with
  | none =>
    have lt := (((threadBss image.sections).map LoadedSection.size).getD 0).isLt
    simpa using lt
  | some td =>
    have lt := td.size.isLt
    cases bss : threadBss image.sections with
    | none => simpa using lt
    | some tb =>
      have apart := image.ordered td tb data bss
      have inside := image.bssInside tb bss
      have above : 0 < td.addr.toNat := toNat_pos (image.mapped td data)
      show td.size.toNat + tb.size.toNat < 2 ^ 64
      omega

lemma newBlock_eq (some : 0 < (tlvInfo image.sections).dataSize.toNat + (tlvInfo image.sections).bssSize.toNat) :
    (tlvInfo image.sections).newBlock mem =
      mem.load (tlvInfo image.sections).dataBase (tlvInfo image.sections).dataSize.toNat ++
        List.replicate (tlvInfo image.sections).bssSize.toNat 0 := by
  have lt := @sizes_lt image
  have base : (tlvInfo image.sections).dataBase = 0 → (tlvInfo image.sections).dataSize = 0 := by
    unfold tlvInfo
    cases data : threadData image.sections with
    | none => exact fun _ => rfl
    | some td => exact fun zero => absurd zero (image.mapped td data)
  generalize tlvInfo image.sections = info at some lt base
  have sum : (info.dataSize + info.bssSize).toNat = info.dataSize.toNat + info.bssSize.toNat :=
    BitVec.toNat_add_of_lt lt
  have total : info.total.toNat = info.dataSize.toNat + info.bssSize.toNat := by
    rw [TlvInfo.total, if_neg, sum]
    intro zero
    rw [zero] at sum
    exact absurd sum.symm some.ne'
  rw [TlvInfo.newBlock]
  split
  · rw [total, List.drop_replicate, Nat.add_sub_cancel_left]
  next skipped =>
    have none : info.dataSize = 0 := by
      by_contra ne
      exact skipped ⟨mt base ne, BitVec.lt_def.mpr (toNat_pos ne)⟩
    rw [total, none]
    show _ = mem.load info.dataBase 0 ++ _
    rw [load_zero, List.nil_append]
    congr 1
    exact Nat.zero_add _

lemma covers_iff : image.Covers mem v ↔
    (image.offset v).toNat + v.size ≤ ((tlvInfo image.sections).newBlock mem).length ∧
      (((tlvInfo image.sections).newBlock mem).drop (image.offset v).toNat).take v.size =
        TlvImage.initial mem v := by
  constructor
  · rintro ⟨block, offset, t, call, inside, bytes⟩
    cases call
    exact ⟨inside, bytes⟩
  · rintro ⟨inside, bytes⟩
    exact ⟨_, _, _, rfl, inside, bytes⟩

lemma length_newBlock (some : 0 < (tlvInfo image.sections).dataSize.toNat + (tlvInfo image.sections).bssSize.toNat) :
    ((tlvInfo image.sections).newBlock mem).length =
      (tlvInfo image.sections).dataSize.toNat + (tlvInfo image.sections).bssSize.toNat := by
  rw [newBlock_eq some, List.length_append, Mem.length_load, List.length_replicate]

lemma dataSize_eq (data : threadData image.sections = some td) : (tlvInfo image.sections).dataSize = td.size := by
  rw [tlvInfo, data]
  rfl

lemma toNat_offset (data : threadData image.sections = some td) (ge : td.addr.toNat ≤ v.addr.toNat) :
    (image.offset v).toNat = v.addr.toNat - td.addr.toNat := by
  rw [TlvImage.offset, TlvImage.start, data]
  exact BitVec.toNat_sub_of_le ge

lemma covers_data (data : threadData image.sections = some td) (pos : 0 < v.size)
    (kind : v.zeroFill = false) (ge : td.addr.toNat ≤ v.addr.toNat)
    (le : v.addr.toNat + v.size ≤ td.addr.toNat + td.size.toNat) : image.Covers mem v := by
  have size := dataSize_eq data
  have base : (tlvInfo image.sections).dataBase = td.addr := by rw [tlvInfo, data]; rfl
  have offset := toNat_offset data ge
  have some : 0 < (tlvInfo image.sections).dataSize.toNat + (tlvInfo image.sections).bssSize.toNat := by
    rw [size]
    omega
  rw [covers_iff]
  refine ⟨?_, ?_⟩
  · rw [length_newBlock some, size, offset]
    omega
  · have place : td.addr + BitVec.ofNat 64 (v.addr.toNat - td.addr.toNat) = v.addr := by bv_omega
    have fits : v.addr.toNat - td.addr.toNat + v.size ≤ td.size.toNat := by omega
    have room : v.size ≤ ((mem.load td.addr td.size.toNat).drop (v.addr.toNat - td.addr.toNat)).length := by
      rw [List.length_drop, Mem.length_load]
      omega
    rw [newBlock_eq some, size, base, offset, List.drop_append_of_le_length (by rw [Mem.length_load]; omega),
      List.take_append_of_le_length room, Mem.load_slice fits, place, TlvImage.initial, kind]
    rfl

lemma covers_bss_iff (bss : threadBss image.sections = some tb) (pos : 0 < v.size)
    (kind : v.zeroFill = true) (behind : (tlvInfo image.sections).dataSize.toNat ≤ (image.offset v).toNat)
    (le : v.size ≤ tb.size.toNat) :
    image.Covers mem v ↔
      (image.offset v).toNat + v.size ≤ (tlvInfo image.sections).dataSize.toNat + tb.size.toNat := by
  have size : (tlvInfo image.sections).bssSize = tb.size := by rw [tlvInfo, bss]; rfl
  have some : 0 < (tlvInfo image.sections).dataSize.toNat + (tlvInfo image.sections).bssSize.toNat := by
    rw [size]
    omega
  rw [covers_iff, length_newBlock some, size]
  refine and_iff_left_of_imp fun inside => ?_
  have front : (mem.load (tlvInfo image.sections).dataBase (tlvInfo image.sections).dataSize.toNat).length ≤
      (image.offset v).toNat := Mem.length_load.trans_le behind
  rw [newBlock_eq some, List.drop_append, List.drop_of_length_le front, List.nil_append, Mem.length_load, size,
    List.drop_replicate, List.take_replicate, TlvImage.initial, kind, if_pos rfl]
  congr 1
  omega

end Blocks

section Images

variable {image : TlvImage} {mem : Mem} {v : Variable} {td tb : LoadedSection}

lemma covers_bss_alone (data : threadData image.sections = none) (bss : threadBss image.sections = some tb)
    (pos : 0 < v.size) (kind : v.zeroFill = true) (ge : tb.addr.toNat ≤ v.addr.toNat)
    (le : v.addr.toNat + v.size ≤ tb.addr.toNat + tb.size.toNat) : image.Covers mem v := by
  have size : (tlvInfo image.sections).dataSize = 0 := by rw [tlvInfo, data]; rfl
  have offset : (image.offset v).toNat = v.addr.toNat - tb.addr.toNat := by
    rw [TlvImage.offset, TlvImage.start, data, bss]
    exact BitVec.toNat_sub_of_le ge
  have zero : (tlvInfo image.sections).dataSize.toNat = 0 := by rw [size]; rfl
  rw [covers_bss_iff bss pos kind (by omega) (by omega)]
  omega

lemma covers_bss_both (data : threadData image.sections = some td)
    (bss : threadBss image.sections = some tb) (pos : 0 < v.size) (kind : v.zeroFill = true)
    (ge : tb.addr.toNat ≤ v.addr.toNat) (le : v.addr.toNat + v.size ≤ tb.addr.toNat + tb.size.toNat) :
    image.Covers mem v ↔ v.addr.toNat + v.size ≤ td.addr.toNat + td.size.toNat + tb.size.toNat := by
  have apart := image.ordered td tb data bss
  have size := dataSize_eq data
  have offset := @toNat_offset image v td data (by omega)
  rw [covers_bss_iff bss pos kind (by rw [size, offset]; omega) (by omega), size, offset]
  omega

/-- All variables lie in a new thread's block exactly when there is no gap between the sections or nothing in the
    second. -/
theorem tlv_blocks_cover_iff (image : TlvImage) (mem : Mem) :
    (∀ v, image.Has v → image.Covers mem v) ↔ image.Gapless := by
  constructor
  · intro all td tb data bss
    have apart := image.ordered td tb data bss
    have inside := image.bssInside tb bss
    by_cases empty : tb.size = 0
    · exact .inl empty
    -- the last byte of the second section
    have pos : 0 < tb.size.toNat := toNat_pos empty
    have place : (tb.addr + (tb.size - 1)).toNat = tb.addr.toNat + tb.size.toNat - 1 := by bv_omega
    have covered := all ⟨tb.addr + (tb.size - 1), 1, true⟩
      ⟨Nat.one_pos, tb, bss, by dsimp only; omega, by dsimp only; omega⟩
    rw [covers_bss_both data bss Nat.one_pos rfl (by dsimp only; omega) (by dsimp only; omega)] at covered
    dsimp only at covered
    refine .inr (BitVec.eq_of_toNat_eq ?_)
    rw [BitVec.toNat_add_of_lt (by omega)]
    omega
  · rintro gapless v ⟨pos, s, home, ge, le⟩
    cases kind : v.zeroFill with
    | false =>
      rw [kind] at home
      exact covers_data home pos kind ge le
    | true =>
      rw [kind] at home
      cases data : threadData image.sections with
      | none => exact covers_bss_alone data home pos kind ge le
      | some td =>
        rw [covers_bss_both data home pos kind ge le]
        have apart := image.ordered td s data home
        rcases gapless td s data home with empty | next
        · have zero : s.size.toNat = 0 := by rw [empty]; rfl
          omega
        · have sum : (td.addr + td.size).toNat = td.addr.toNat + td.size.toNat :=
            BitVec.toNat_add_of_lt (by have := s.addr.isLt; omega)
          rw [next, sum] at le
          exact le

def gapData : LoadedSection := ⟨ascii "__thread_data", ascii "__DATA", 0x1000, 4, 0, 0, 0, 0⟩

def gapBss : LoadedSection := ⟨ascii "__thread_bss", ascii "__DATA", 0x1010, 16, 0, 0, 0, 0⟩

lemma threadData_gap : threadData [gapData, gapBss] = some gapData := by decide

lemma threadBss_gap : threadBss [gapData, gapBss] = some gapBss := by decide

def gapImage : TlvImage where
  sections := [gapData, gapBss]
  mapped := by
    rw [threadData_gap]
    rintro td ⟨⟩
    decide
  ordered := by
    rw [threadData_gap, threadBss_gap]
    rintro td tb ⟨⟩ ⟨⟩
    decide
  dataInside := by
    rw [threadData_gap]
    rintro td ⟨⟩
    decide
  bssInside := by
    rw [threadBss_gap]
    rintro tb ⟨⟩
    decide

/-- A variable that takes all of the second section ends behind the block of twenty bytes. -/
theorem tlv_gap_uncovered :
    gapImage.Has ⟨0x1010, 16, true⟩ ∧ gapImage.offset ⟨0x1010, 16, true⟩ = 16 ∧
      (tlvInfo gapImage.sections).total = 20 ∧ ¬gapImage.Covers (fun _ => 0) ⟨0x1010, 16, true⟩ := by
  refine ⟨⟨by decide, gapBss, threadBss_gap, by decide, by decide⟩, by decide, by decide, fun covered => ?_⟩
  rw [covers_bss_both threadData_gap threadBss_gap (by decide) rfl (by decide) (by decide)] at covered
  exact absurd covered (by decide)

end Images

end Macify.Shim.ThreadLocals
