import Macify.Lib.BitSets
import Macify.Lib.Packing
import Macify.Shim.PathCalls

/-!
# The buffer of getattrlist

`macify_attrlist_fill` (`shim/io/attrlist.c`) with what it writes; `fill_result` says that its sizes are those in
`Shim.PathCalls`. The attributes are packed behind a length of four bytes in the order of the groups. One word
`returned` collects the bits of all four groups, and masks take the groups out of it at the end.
-/

namespace Macify.Shim.Files
open Lib Lib.Packing Image
open Lib.Mem (leBytes)

inductive AttrGroup where
  | common | vol | dir | file
  deriving DecidableEq

def AttrList.word (al : AttrList) : AttrGroup → W32
  | .common => al.commonattr
  | .vol => al.volattr
  | .dir => al.dirattr
  | .file => al.fileattr

structure Attr where
  group : AttrGroup
  bit : W32
  deriving DecidableEq

def AttrList.wants (al : AttrList) (f : PackField Attr) : Bool := al.word f.tag.group &&& f.tag.bit != 0

structure Timespec where
  sec : W64
  nsec : W64

structure Stat where
  dev : W64
  ino : W64
  nlink : W64
  mode : W32
  rdev : W64
  size : W64
  blksize : W64
  blocks : W64
  atim : Timespec
  mtim : Timespec
  ctim : Timespec

structure AttrTarget where
  path : Option Buf
  invalid : Bool

section Attributes

variable (group : AttrGroup) (bit : W32)

def put32 (v : W32) : Buf := leBytes 4 v.toNat

def put64 (v : W64) : Buf := leBytes 8 v.toNat

@[simp] lemma length_put32 {v : W32} : (put32 v).length = 4 := Mem.length_leBytes

@[simp] lemma length_put64 {v : W64} : (put64 v).length = 8 := Mem.length_leBytes

def attr32 (v : W32) : PackField Attr := ⟨⟨group, bit⟩, 4, put32 v, by simp⟩

def attr64 (v : W64) : PackField Attr := ⟨⟨group, bit⟩, 8, put64 v, by simp⟩

def attrTime (t : Timespec) : PackField Attr :=
  ⟨⟨group, bit⟩, 16, put64 t.sec ++ put64 t.nsec, by simp⟩

end Attributes

def vtypeFromMode (mode : W32) : W32 :=
  let type := mode &&& 0xF000
  if type = 0x8000 then 1
  else if type = 0x4000 then 2
  else if type = 0x6000 then 3
  else if type = 0x2000 then 4
  else if type = 0xA000 then 5
  else if type = 0xC000 then 6
  else if type = 0x1000 then 7
  else 0

lemma le_align4 {n : ℕ} : n ≤ align4 n := by
  unfold align4
  omega

/-- A reference and the name behind it, with the byte after it, which is no zero if the name is too long. -/
def nameAttr (path : Option Buf) : PackField Attr :=
  let nm := path.elim [] fileName
  let nl := min 255 nm.length
  ⟨⟨.common, 0x00000001⟩, 8 + align4 (nl + 1),
    put32 8 ++ put32 (BitVec.ofNat 32 (nl + 1)) ++ (nm ++ [0]).take (nl + 1), by
      have := @le_align4 (nl + 1)
      rw [List.length_append, List.length_append, List.length_take, length_put32, length_put32]
      omega⟩

def returnedAttr : PackField Attr := ⟨⟨.common, 0x80000000⟩, 20, [], Nat.zero_le _⟩

section Table

variable (path : Option Buf) (st : Stat)

/-- `VT_HFS` for the tag, and 2 for the parent. -/
def commonAttrs : List (PackField Attr) :=
  [returnedAttr, nameAttr path, attr64 .common 0x00000002 st.dev, attr64 .common 0x00000004 st.dev,
   attr32 .common 0x00000008 (vtypeFromMode st.mode), attr32 .common 0x00000010 16,
   attrTime .common 0x00000200 st.ctim, attrTime .common 0x00000400 st.mtim,
   attrTime .common 0x00000800 st.ctim, attrTime .common 0x00001000 st.atim,
   ⟨⟨.common, 0x00004000⟩, 32, List.replicate 32 0, by simp⟩,
   attr32 .common 0x02000000 (st.ino.setWidth 32), attr32 .common 0x04000000 2]

/-- Four words of capabilities, of which the first one says that case matters, and which of them are valid. -/
def volAttrs : List (PackField Attr) :=
  let caps := put32 0x00000100 ++ put32 0 ++ put32 0 ++ put32 0
  [attr32 .vol 0x80000000 0, ⟨⟨.vol, 0x00020000⟩, 32, caps ++ caps, by decide⟩]

def dirAttrs : List (PackField Attr) :=
  [attr32 .dir 0x00000001 (if st.mode &&& 0xF000 = 0x4000 then 2 else 1), attr32 .dir 0x00000002 0]

def fileAttrs : List (PackField Attr) :=
  [attr32 .file 0x00000001 (st.nlink.setWidth 32), attr64 .file 0x00000002 st.size,
   attr64 .file 0x00000004 (st.blocks * 512), attr32 .file 0x00000008 (st.blksize.setWidth 32),
   attr64 .file 0x00000020 st.rdev, attr64 .file 0x00000200 st.size]

def attributes : List (PackField Attr) := commonAttrs path st ++ volAttrs ++ dirAttrs st ++ fileAttrs st

end Table

def groupMask : AttrGroup → W32
  | .common =>
    ~~~(0x80000000 ||| 0x00020000 ||| 0x80000000 ||| 0x00000001 ||| 0x00000002 ||| 0x00000001 |||
      0x00000002 ||| 0x00000004 ||| 0x00000008 ||| 0x00000020 ||| 0x00000200)
  | .vol => 0x00020000 ||| 0x80000000
  | .dir => 0x00000001 ||| 0x00000002
  | .file => 0x00000001 ||| 0x00000002 ||| 0x00000004 ||| 0x00000008 ||| 0x00000020 ||| 0x00000200

def attributeSet (returned : W32) : Buf :=
  put32 (returned &&& groupMask .common) ++ put32 (returned &&& groupMask .vol) ++
    put32 (returned &&& groupMask .dir) ++ put32 (returned &&& groupMask .file) ++ put32 0

structure Filled where
  stores : List (ℕ × Buf)
  result : Except W32 ℕ

/-- A `bufsize` of 0 switches the checks off. -/
def macifyAttrlistFill (al : AttrList) (t : AttrTarget) (st : Except W32 Stat) (buffer : Bool)
    (bufsize : W64) : Filled :=
  if t.invalid then ⟨[], .error ENOENT⟩
  else
    match st with
    | .error errno => ⟨[], .error errno⟩
    | .ok st =>
      match (attributes t.path st).foldlM
        (pack al.wants (fun returned f => returned ||| f.tag.bit) buffer bufsize) ⟨4, 0, []⟩ with
      | .error stores => ⟨stores, .error ERANGE⟩
      | .ok s =>
        let last :=
          (0, put32 (BitVec.ofNat 32 s.off)) ::
            if al.commonattr &&& 0x80000000 = 0 then [] else [(4, attributeSet s.seen)]
        ⟨if buffer then s.stores ++ last else s.stores, .ok s.off⟩

section Fill

variable {al : AttrList} {t : AttrTarget} {st : Stat} {bufsize : W64}

def neededSize (al : AttrList) (path : Option Buf) (st : Stat) : ℕ :=
  4 + totalSize al.wants (attributes path st)

def allReturned (al : AttrList) (path : Option Buf) (st : Stat) : W32 :=
  marks al.wants (fun returned f => returned ||| f.tag.bit) 0 (attributes path st)

def lastStores (al : AttrList) (path : Option Buf) (st : Stat) : List (ℕ × Buf) :=
  (0, put32 (BitVec.ofNat 32 (neededSize al path st))) ::
    if al.commonattr &&& 0x80000000 = 0 then [] else [(4, attributeSet (allReturned al path st))]

lemma fill_query (valid : t.invalid = false) :
    macifyAttrlistFill al t (.ok st) false 0 = ⟨[], .ok (neededSize al t.path st)⟩ := by
  rw [macifyAttrlistFill, valid, if_neg Bool.false_ne_true]
  dsimp only
  rw [pack_query]
  rfl

lemma fill_room (valid : t.invalid = false) (room : neededSize al t.path st ≤ bufsize.toNat) :
    macifyAttrlistFill al t (.ok st) true bufsize =
      ⟨placed (layout al.wants 4 (attributes t.path st)) ++ lastStores al t.path st,
        .ok (neededSize al t.path st)⟩ := by
  have packed := @pack_room _ _ al.wants (fun returned f => returned ||| f.tag.bit) bufsize
    (attributes t.path st) ⟨4, 0, []⟩ room
  rw [macifyAttrlistFill, valid, if_neg Bool.false_ne_true]
  dsimp only
  rw [packed]
  rfl

lemma fill_full (valid : t.invalid = false) (least : 4 ≤ bufsize.toNat)
    (full : bufsize.toNat < neededSize al t.path st) :
    ∃ stores, macifyAttrlistFill al t (.ok st) true bufsize = ⟨stores, .error ERANGE⟩ ∧
      ∀ s ∈ stores, s.1 + s.2.length ≤ bufsize.toNat := by
  have nonzero : bufsize ≠ 0 := by
    rintro rfl
    exact absurd least (by decide)
  obtain ⟨stores, ends, inside⟩ := @pack_full _ _ al.wants (fun returned f => returned ||| f.tag.bit)
    bufsize (attributes t.path st) ⟨4, 0, []⟩ nonzero least full nofun
  refine ⟨stores, ?_, inside⟩
  rw [macifyAttrlistFill, valid, if_neg Bool.false_ne_true]
  dsimp only
  rw [ends]

lemma neededSize_lt (path : Option Buf) : neededSize al path st < 1024 := by
  have part : totalSize al.wants (attributes path st) ≤ ((attributes path st).map PackField.size).sum :=
    (List.filter_sublist.map _).sum_le_sum fun _ _ => Nat.zero_le _
  have sizes : (attributes path st).map PackField.size =
      [20, (nameAttr path).size, 8, 8, 4, 4, 16, 16, 16, 16, 32, 4, 4, 4, 32, 4, 4, 4, 8, 8, 4, 8, 8] := rfl
  have name : (nameAttr path).size ≤ 264 := by
    change 8 + align4 (min 255 _ + 1) ≤ 264
    unfold align4
    omega
  rw [sizes] at part
  simp only [List.sum_cons, List.sum_nil] at part
  unfold neededSize
  omega

lemma set_inside (asked : al.commonattr &&& 0x80000000 ≠ 0) (path : Option Buf) : 24 ≤ neededSize al path st := by
  have wanted : al.wants returnedAttr = true := bne_iff_ne.mpr asked
  have first : attributes path st = returnedAttr :: (attributes path st).tail := rfl
  rw [neededSize, first, totalSize_cons_of_pos wanted]
  have : returnedAttr.size = 20 := rfl
  omega

lemma length_attributeSet {returned : W32} : (attributeSet returned).length = 20 := by
  simp [attributeSet]

lemma lastStores_inside (path : Option Buf) {s : ℕ × Buf} (mem : s ∈ lastStores al path st) :
    s.1 + s.2.length ≤ neededSize al path st := by
  rcases List.mem_cons.mp mem with rfl | set
  · rw [length_put32]
    exact Nat.le_add_right _ _
  · split at set
    · exact absurd set List.not_mem_nil
    case isFalse asked =>
      obtain rfl := List.mem_singleton.mp set
      rw [length_attributeSet]
      exact set_inside asked path

lemma fill_inside (valid : t.invalid = false) (least : 4 ≤ bufsize.toNat) :
    ∀ s ∈ (macifyAttrlistFill al t (.ok st) true bufsize).stores, s.1 + s.2.length ≤ bufsize.toNat := by
  rcases Nat.lt_or_ge bufsize.toNat (neededSize al t.path st) with full | room
  · obtain ⟨stores, ends, inside⟩ := fill_full valid least full
    rw [ends]
    exact inside
  · rw [fill_room valid room]
    intro s mem
    rcases List.mem_append.mp mem with field | last
    · exact (placed_end field).trans room
    · exact (lastStores_inside _ last).trans room

lemma packedSize_eq {bufsize : ℕ} {sizes : List ℕ} {off : ℕ} (nonzero : bufsize ≠ 0) (inside : off ≤ bufsize) :
    sizes.foldlM (fun off n => if bufsize ≠ 0 ∧ bufsize - off < n then none else some (off + n)) off =
      if off + sizes.sum ≤ bufsize then some (off + sizes.sum) else none := by
  induction sizes generalizing off with
  | nil => exact (if_pos inside).symm
  | cons n sizes ih =>
    rw [List.foldlM_cons, List.sum_cons, ← Nat.add_assoc]
    rcases Nat.lt_or_ge (bufsize - off) n with less | room
    · rw [if_pos ⟨nonzero, less⟩, if_neg (by omega)]
      rfl
    · rw [if_neg fun full => absurd full.2 (Nat.not_lt.mpr room)]
      exact ih (by omega)

lemma sizes_of_group {g : AttrGroup} {fs : List (PackField Attr)} (all : ∀ f ∈ fs, f.tag.group = g) :
    ((fs.map fun f => (f.tag.bit, f.size)).filterMap fun x =>
        if al.word g &&& x.1 = 0 then none else some x.2) = (fs.filter al.wants).map PackField.size := by
  induction fs with
  | nil => rfl
  | cons f fs ih =>
    have rest := ih fun f mem => all f (List.mem_cons_of_mem _ mem)
    have group := all f List.mem_cons_self
    rw [List.map_cons, List.filterMap_cons]
    by_cases wanted : al.word g &&& f.tag.bit = 0
    · have other : ¬al.wants f = true := by
        rw [AttrList.wants, group, bne_iff_ne]
        exact not_not_intro wanted
      rw [if_pos wanted, List.filter_cons_of_neg other]
      exact rest
    · have asked : al.wants f = true := by
        rw [AttrList.wants, group]
        exact bne_iff_ne.mpr wanted
      rw [if_neg wanted, List.filter_cons_of_pos asked, List.map_cons, ← rest]

lemma sizes_eq (path : Option Buf) :
    al.sizes path = ((attributes path st).filter al.wants).map PackField.size := by
  have common := @sizes_of_group al .common (commonAttrs path st) (by
    intro f mem
    simp only [commonAttrs, List.mem_cons, List.not_mem_nil, or_false] at mem
    rcases mem with rfl | rfl | rfl | rfl | rfl | rfl | rfl | rfl | rfl | rfl | rfl | rfl | rfl <;> rfl)
  have vol := @sizes_of_group al .vol volAttrs (by
    intro f mem
    rcases List.mem_pair.mp mem with rfl | rfl <;> rfl)
  have dir := @sizes_of_group al .dir (dirAttrs st) (by
    intro f mem
    rcases List.mem_pair.mp mem with rfl | rfl <;> rfl)
  have file := @sizes_of_group al .file (fileAttrs st) (by
    intro f mem
    simp only [fileAttrs, List.mem_cons, List.not_mem_nil, or_false] at mem
    rcases mem with rfl | rfl | rfl | rfl | rfl | rfl <;> rfl)
  rw [attributes, List.filter_append, List.filter_append, List.filter_append, List.map_append,
    List.map_append, List.map_append, ← common, ← vol, ← dir, ← file]
  rfl

/-- The model without the contents has the same result. -/
lemma fill_result (valid : t.invalid = false) (least : 4 ≤ bufsize.toNat) :
    (macifyAttrlistFill al t (.ok st) true bufsize).result =
      (packedSize bufsize.toNat (al.sizes t.path)).elim (.error ERANGE) .ok := by
  rw [packedSize, packedSize_eq (by omega) least, sizes_eq]
  change _ = Option.elim (if neededSize al t.path st ≤ _ then some (neededSize al t.path st) else none) _ _
  rcases Nat.lt_or_ge bufsize.toNat (neededSize al t.path st) with full | room
  · obtain ⟨stores, ends, -⟩ := fill_full valid least full
    rw [ends, if_neg (Nat.not_le.mpr full)]
    rfl
  · rw [fill_room valid room, if_pos room]
    rfl

lemma word32_size (m : Code) :
    (m.storeAll (placed (layout al.wants 4 (attributes t.path st)) ++ lastStores al t.path st)).word32 0 =
      BitVec.ofNat 32 (neededSize al t.path st) := by
  apply Code.Holds.word32
  rw [Code.storeAll_append, lastStores, Code.storeAll_cons]
  refine Code.holds_store.storeAll_apart fun s mem => .inl ?_
  split at mem
  · exact absurd mem List.not_mem_nil
  · obtain rfl := List.mem_singleton.mp mem
    exact Nat.le_of_eq ((Nat.zero_add _).trans length_put32)

lemma fill_refused_or (stat : Except W32 Stat) :
    (∃ errno, ∀ buffer bufsize, macifyAttrlistFill al t stat buffer bufsize = ⟨[], .error errno⟩) ∨
      t.invalid = false ∧ ∃ st, stat = .ok st := by
  cases invalid : t.invalid with
  | true =>
    refine .inl ⟨ENOENT, fun buffer bufsize => ?_⟩
    rw [macifyAttrlistFill.eq_def, invalid, if_pos rfl]
  | false =>
    cases stat with
    | error errno =>
      refine .inl ⟨errno, fun buffer bufsize => ?_⟩
      rw [macifyAttrlistFill, invalid, if_neg Bool.false_ne_true]
    | ok st => exact .inr ⟨rfl, st, rfl⟩

/-- The writes are inside, there is an error exactly if the size that a call without a buffer gives is too large,
    and otherwise the sizes and the first word agree. -/
theorem attrlist_packing_exact (al : AttrList) (t : AttrTarget) (st : Except W32 Stat)
    (bufsize : W64) (least : 4 ≤ bufsize.toNat) :
    let query := macifyAttrlistFill al t st false 0
    let filled := macifyAttrlistFill al t st true bufsize
    (∀ s ∈ filled.stores, s.1 + s.2.length ≤ bufsize.toNat) ∧
      (∀ errno, query.result = .error errno → filled = ⟨[], .error errno⟩) ∧
      ∀ size, query.result = .ok size →
        (filled.result = .error ERANGE ↔ bufsize.toNat < size) ∧
          (size ≤ bufsize.toNat → filled.result = .ok size ∧ size < 2 ^ 32 ∧
            ∀ m : Code, ((m.storeAll filled.stores).word32 0).toNat = size) := by
  intro query filled
  rcases @fill_refused_or al t st with ⟨errno, refused⟩ | ⟨valid, status, rfl⟩
  · have query_eq : query = ⟨[], .error errno⟩ := refused false 0
    have filled_eq : filled = ⟨[], .error errno⟩ := refused true bufsize
    rw [query_eq, filled_eq]
    refine ⟨nofun, fun other same => ?_, fun size same => nomatch same⟩
    rw [Except.error.inj same]
  · have query_eq : query = ⟨[], .ok (neededSize al t.path status)⟩ := fill_query valid
    rw [query_eq]
    refine ⟨fill_inside valid least, fun errno same => (nomatch same), fun size same => ?_⟩
    obtain rfl := Except.ok.inj same
    have bound := @neededSize_lt al status t.path
    rcases Nat.lt_or_ge bufsize.toNat (neededSize al t.path status) with full | room
    · obtain ⟨stores, ends, -⟩ := fill_full valid least full
      exact ⟨iff_of_true (congrArg Filled.result ends) full, fun room => absurd room (Nat.not_le.mpr full)⟩
    · have ends : filled = _ := fill_room valid room
      rw [ends]
      refine ⟨iff_of_false nofun (Nat.not_lt.mpr room), fun _ => ⟨rfl, by omega, fun m => ?_⟩⟩
      rw [word32_size, BitVec.toNat_ofNat]
      omega

def emptyStat : Stat := ⟨0, 0, 1, 0x81A4, 0, 0, 4096, 0, ⟨0, 0⟩, ⟨0, 0⟩, ⟨0, 0⟩⟩

theorem attrlist_packing_hosts :
    let al : AttrList := ⟨5, 0x80000001, 0, 0, 0⟩
    let t : AttrTarget := ⟨some (ascii "/etc/hosts"), false⟩
    (macifyAttrlistFill al t (.ok emptyStat) true 64).result = .ok 40 ∧
      (macifyAttrlistFill al t (.ok emptyStat) true 39).result = .error ERANGE := by
  intro al t
  have size : (macifyAttrlistFill al t (.ok emptyStat) false 0).result = .ok 40 := by decide +kernel
  have large := (attrlist_packing_exact al t (.ok emptyStat) 64 (by decide)).2.2 40 size
  have small := (attrlist_packing_exact al t (.ok emptyStat) 39 (by decide)).2.2 40 size
  exact ⟨(large.2 (by decide)).1, small.1.mpr (by decide)⟩

end Fill

def AttrGroup.offset : AttrGroup → ℕ
  | .common => 4
  | .vol => 8
  | .dir => 12
  | .file => 16

/-- The set has the bit of an attribute exactly if it was packed, and a reader that goes by the set finds each one. -/
structure Truthful (al : AttrList) (fields : List (PackField Attr)) (m : Code) : Prop where
  bits : ∀ (g : AttrGroup) (k : ℕ), k < 32 → ¬(g = .common ∧ k = 31) →
    ((m.word32 g.offset).getLsbD k = true ↔
      ∃ f ∈ layout al.wants 4 fields, f.1.tag = ⟨g, (1 : W32) <<< k⟩ ∧ m.Holds f.2 f.1.data)
  places :
    layout (fun f => f.tag = returnedAttr.tag || m.word32 f.tag.group.offset &&& f.tag.bit != 0) 4 fields =
      layout al.wants 4 fields

section Set

variable {al : AttrList} {path : Option Buf} {st : Stat} {m : Code}

lemma word32_set (asked : al.commonattr &&& 0x80000000 ≠ 0) (stores : List (ℕ × Buf)) (g : AttrGroup) :
    (m.storeAll (stores ++ lastStores al path st)).word32 g.offset =
      allReturned al path st &&& groupMask g := by
  rw [Code.storeAll_append, lastStores, if_neg asked, Code.storeAll_cons, Code.storeAll_cons]
  apply Code.Holds.word32
  have set : (((m.storeAll stores).store 0 (put32 (BitVec.ofNat 32 (neededSize al path st)))).store 4
      (attributeSet (allReturned al path st))).Holds 4 (attributeSet (allReturned al path st)) := Code.holds_store
  obtain ⟨⟨⟨⟨common, vol⟩, dir⟩, file⟩, -⟩ : (((_ ∧ _) ∧ _) ∧ _) ∧ _ := by
    simpa only [attributeSet, Code.holds_append, List.length_append, length_put32] using set
  cases g with
  | common => exact common
  | vol => exact vol
  | dir => exact dir
  | file => exact file

def attrTags : List Attr :=
  [⟨.common, 0x80000000⟩, ⟨.common, 0x00000001⟩, ⟨.common, 0x00000002⟩, ⟨.common, 0x00000004⟩,
   ⟨.common, 0x00000008⟩, ⟨.common, 0x00000010⟩, ⟨.common, 0x00000200⟩, ⟨.common, 0x00000400⟩,
   ⟨.common, 0x00000800⟩, ⟨.common, 0x00001000⟩, ⟨.common, 0x00004000⟩, ⟨.common, 0x02000000⟩,
   ⟨.common, 0x04000000⟩, ⟨.vol, 0x80000000⟩, ⟨.vol, 0x00020000⟩, ⟨.dir, 0x00000001⟩, ⟨.dir, 0x00000002⟩,
   ⟨.file, 0x00000001⟩, ⟨.file, 0x00000002⟩, ⟨.file, 0x00000004⟩, ⟨.file, 0x00000008⟩,
   ⟨.file, 0x00000020⟩, ⟨.file, 0x00000200⟩]

lemma tags_eq : (attributes path st).map PackField.tag = attrTags := rfl

lemma attrTags_single : ∀ a ∈ attrTags, a.bit ∈ (List.range 32).map fun j => (1 : W32) <<< j := by
  decide +kernel

lemma exists_bit {f : PackField Attr} (mem : f ∈ attributes path st) :
    f.tag ∈ attrTags ∧ ∃ j < 32, f.tag = ⟨f.tag.group, (1 : W32) <<< j⟩ := by
  have tag : f.tag ∈ attrTags := @tags_eq path st ▸ List.mem_map_of_mem mem
  obtain ⟨j, lt, same⟩ := List.mem_map.mp (attrTags_single _ tag)
  exact ⟨tag, j, List.mem_range.mp lt, by rw [same]⟩

def AttrList.bits (al : AttrList) (k : ℕ) (g : AttrGroup) : Bool := (al.word g).getLsbD k

lemma wants_eq {f : PackField Attr} {g : AttrGroup} {k : ℕ} (lt : k < 32)
    (tag : f.tag = ⟨g, (1 : W32) <<< k⟩) : al.wants f = al.bits k g := by
  rw [AttrList.wants, tag]
  exact and_single_ne_zero lt

def returnedAt (bits : AttrGroup → Bool) (k : ℕ) : Bool := attrTags.any fun a => bits a.group && a.bit.getLsbD k

lemma getLsbD_allReturned {k : ℕ} : (allReturned al path st).getLsbD k = returnedAt (al.bits k) k := by
  rw [allReturned, marks, List.foldl_filter, getLsbD_union, returnedAt, ← @tags_eq path st, List.any_map]
  refine any_congr_mem fun f mem => ?_
  obtain ⟨-, j, lt, tag⟩ := exists_bit mem
  have bit : f.tag.bit.getLsbD k = decide (k = j) := by rw [tag]; exact getLsbD_single lt
  rw [Function.comp_apply, wants_eq lt tag, bit]
  by_cases same : k = j
  · rw [same]
  · rw [decide_eq_false same, Bool.and_false, Bool.and_false]

lemma holds_packed (asked : al.commonattr &&& 0x80000000 ≠ 0) {f : PackField Attr × ℕ}
    (mem : f ∈ layout al.wants 4 (attributes path st)) :
    (m.storeAll (placed (layout al.wants 4 (attributes path st)) ++ lastStores al path st)).Holds f.2 f.1.data := by
  rw [Code.storeAll_append]
  have wanted : al.wants returnedAttr = true := bne_iff_ne.mpr asked
  have first : layout al.wants 4 (attributes path st) =
      (returnedAttr, 4) :: layout al.wants 24 (attributes path st).tail := if_pos wanted
  have found := mem
  rw [first] at found
  rcases List.mem_cons.mp found with rfl | later
  · exact nofun
  · have behind := (mem_of_mem_layout later).2.2
    refine (holds_of_mem_layout mem).storeAll_apart fun s last => .inr ?_
    rw [lastStores, if_neg asked] at last
    rcases List.mem_pair.mp last with rfl | rfl
    · rw [length_put32]
      omega
    · rw [length_attributeSet]
      omega

lemma packed_iff (asked : al.commonattr &&& 0x80000000 ≠ 0) {g : AttrGroup} {k : ℕ} (lt : k < 32) :
    (∃ f ∈ layout al.wants 4 (attributes path st), f.1.tag = ⟨g, (1 : W32) <<< k⟩ ∧
        (m.storeAll (placed (layout al.wants 4 (attributes path st)) ++ lastStores al path st)).Holds f.2
          f.1.data) ↔
      (attrTags.contains ⟨g, (1 : W32) <<< k⟩ && al.bits k g) = true := by
  rw [Bool.and_eq_true, List.contains_iff_mem]
  constructor
  · rintro ⟨f, mem, tag, -⟩
    obtain ⟨field, wanted, -⟩ := mem_of_mem_layout mem
    exact ⟨tag ▸ (exists_bit field).1, (wants_eq lt tag).symm.trans wanted⟩
  · rintro ⟨known, requested⟩
    rw [← @tags_eq path st] at known
    obtain ⟨f, field, tag⟩ := List.mem_map.mp known
    obtain ⟨o, mem⟩ : ∃ o, (f, o) ∈ layout al.wants 4 (attributes path st) :=
      exists_mem_layout field ((wants_eq lt tag).trans requested)
    exact ⟨(f, o), mem, tag, holds_packed asked mem⟩

def attrGroups : List AttrGroup := [.common, .vol, .dir, .file]

lemma mem_attrGroups (g : AttrGroup) : g ∈ attrGroups := by
  cases g <;> decide

def RightAt (bits : AttrGroup → Bool) (k : ℕ) : Prop :=
  ∀ g ∈ attrGroups, ¬(g = .common ∧ k = 31) →
    (returnedAt bits k && (groupMask g).getLsbD k) =
      (attrTags.contains ⟨g, (1 : W32) <<< k⟩ && bits g)

instance (bits : AttrGroup → Bool) (k : ℕ) : Decidable (RightAt bits k) := inferInstanceAs (Decidable (∀ _ ∈ _, _))

lemma truthful_iff (asked : al.commonattr &&& 0x80000000 ≠ 0) :
    Truthful al (attributes path st)
        (m.storeAll (placed (layout al.wants 4 (attributes path st)) ++ lastStores al path st)) ↔
      ∀ k < 32, RightAt (al.bits k) k := by
  constructor
  · intro truthful k lt g _ other
    have bit := truthful.bits g k lt other
    rw [packed_iff asked lt, word32_set asked, BitVec.getLsbD_and, getLsbD_allReturned] at bit
    exact Bool.eq_iff_iff.mpr bit
  · intro right
    have bits : ∀ (g : AttrGroup) (k : ℕ), k < 32 → ¬(g = .common ∧ k = 31) →
        ((m.storeAll (placed (layout al.wants 4 (attributes path st)) ++ lastStores al path st)).word32
          g.offset).getLsbD k = (attrTags.contains ⟨g, (1 : W32) <<< k⟩ && al.bits k g) := by
      intro g k lt other
      rw [word32_set asked, BitVec.getLsbD_and, getLsbD_allReturned]
      exact right k lt g (mem_attrGroups g) other
    refine ⟨fun g k lt other => ?_, layout_congr fun f mem => ?_⟩
    · rw [packed_iff asked lt, bits g k lt other]
    · obtain ⟨known, j, lt, tag⟩ := exists_bit mem
      by_cases set : f.tag = returnedAttr.tag
      · have wanted : al.wants f = true := by
          rw [AttrList.wants, set]
          exact bne_iff_ne.mpr asked
        rw [wanted, decide_eq_true set, Bool.true_or]
      · have other : ¬(f.tag.group = .common ∧ j = 31) := by
          rintro ⟨common, rfl⟩
          rw [common] at tag
          exact set tag
        rw [decide_eq_false set, Bool.false_or, wants_eq lt tag]
        rw [tag] at known ⊢
        rw [and_single_ne_zero lt, bits _ j lt other, List.contains_iff_mem.mpr known, Bool.true_and]

def pick (common vol dir file : Bool) : AttrGroup → Bool
  | .common => common
  | .vol => vol
  | .dir => dir
  | .file => file

def tableMask : AttrGroup → W32
  | .common => 0x86005E1F
  | .vol => 0x80020000
  | .dir => 3
  | .file => 0x22F

lemma contains_table : ∀ g ∈ attrGroups, ∀ k < 32,
    attrTags.contains ⟨g, (1 : W32) <<< k⟩ = (tableMask g).getLsbD k := by
  decide +kernel

lemma returnedAt_table {bits : AttrGroup → Bool} {k : ℕ} (lt : k < 32) :
    returnedAt bits k = attrGroups.any fun g => bits g && (tableMask g).getLsbD k := by
  rw [Bool.eq_iff_iff, returnedAt, List.any_eq_true, List.any_eq_true]
  constructor
  · rintro ⟨a, mem, is⟩
    obtain ⟨asked, set⟩ := Bool.and_eq_true_iff.mp is
    obtain ⟨j, below, same⟩ := List.mem_map.mp (attrTags_single a mem)
    rw [← same, getLsbD_single (List.mem_range.mp below), decide_eq_true_eq] at set
    refine ⟨a.group, mem_attrGroups _, ?_⟩
    rw [asked, Bool.true_and, ← contains_table _ (mem_attrGroups _) k lt, List.contains_iff_mem, set, same]
    exact mem
  · rintro ⟨g, known, is⟩
    rw [← contains_table g known k lt, Bool.and_eq_true, List.contains_iff_mem] at is
    refine ⟨_, is.2, ?_⟩
    rw [is.1, Bool.true_and, getLsbD_single lt]
    exact decide_eq_true rfl

lemma rightAt_iff (common vol dir file : Bool) (k : ℕ) (lt : k < 32) (asked : k = 31 → common = true) :
    RightAt (pick common vol dir file) k ↔
      ((0x20F : W32).getLsbD k = true → common = false) ∧ (k = 31 → vol = true) ∧
        ((3 : W32).getLsbD k = true → dir = file) := by
  have table : RightAt (pick common vol dir file) k ↔
      ∀ g ∈ attrGroups, ¬(g = .common ∧ k = 31) →
        ((attrGroups.any fun g => pick common vol dir file g && (tableMask g).getLsbD k) &&
          (groupMask g).getLsbD k) = ((tableMask g).getLsbD k && pick common vol dir file g) := by
    refine forall_congr' fun g => forall_congr' fun known => ?_
    rw [returnedAt_table lt, contains_table g known k lt]
  rw [table]
  clear table
  revert k
  cases common <;> cases vol <;> cases dir <;> cases file <;> decide +kernel

lemma rightAt_all_iff (asked : al.commonattr &&& 0x80000000 ≠ 0) :
    (∀ k < 32, RightAt (al.bits k) k) ↔
      al.commonattr &&& 0x20F = 0 ∧ al.volattr &&& ATTR_VOL_INFO ≠ 0 ∧
        al.dirattr &&& 3 = al.fileattr &&& 3 := by
  have top (w : W32) : w &&& 0x80000000 ≠ 0 ↔ w.getLsbD 31 = true := by
    rw [← bne_iff_ne]
    exact Bool.eq_iff_iff.mp (and_single_ne_zero (n := 31) (by decide))
  have split (k : ℕ) : al.bits k =
      pick (al.commonattr.getLsbD k) (al.volattr.getLsbD k) (al.dirattr.getLsbD k) (al.fileattr.getLsbD k) := by
    funext g
    cases g <;> rfl
  have each (k : ℕ) (lt : k < 32) := rightAt_iff (al.commonattr.getLsbD k) (al.volattr.getLsbD k)
    (al.dirattr.getLsbD k) (al.fileattr.getLsbD k) k lt (fun last => last ▸ (top _).mp asked)
  rw [top, eq_zero_iff, bits_iff]
  simp only [split, BitVec.getLsbD_and]
  constructor
  · intro right
    refine ⟨fun k lt => ?_, ((each 31 (by decide)).mp (right 31 (by decide))).2.1 rfl, fun k lt => ?_⟩
    · cases mask : (0x20F : W32).getLsbD k with
      | false => rw [Bool.and_false]
      | true => rw [((each k lt).mp (right k lt)).1 mask, Bool.false_and]
    · cases mask : (3 : W32).getLsbD k with
      | false => rw [Bool.and_false, Bool.and_false]
      | true => rw [((each k lt).mp (right k lt)).2.2 mask]
  · rintro ⟨common, vol, same⟩ k lt
    refine (each k lt).mpr ⟨fun mask => ?_, fun last => last ▸ vol, fun mask => ?_⟩
    · have := common k lt
      rwa [mask, Bool.and_true] at this
    · have := same k lt
      rwa [mask, Bool.and_true, Bool.and_true] at this

/-- For every request for the set that succeeds. -/
theorem returned_set_truthful_iff {t : AttrTarget} {bufsize : W64} {size : ℕ}
    (asked : al.commonattr &&& 0x80000000 ≠ 0) (least : 4 ≤ bufsize.toNat)
    (packed : (macifyAttrlistFill al t (.ok st) true bufsize).result = .ok size) :
    Truthful al (attributes t.path st) (m.storeAll (macifyAttrlistFill al t (.ok st) true bufsize).stores) ↔
      al.commonattr &&& 0x20F = 0 ∧ al.volattr &&& ATTR_VOL_INFO ≠ 0 ∧
        al.dirattr &&& 3 = al.fileattr &&& 3 := by
  cases invalid : t.invalid with
  | true =>
    rw [macifyAttrlistFill, invalid, if_pos rfl] at packed
    exact nomatch packed
  | false =>
    rcases Nat.lt_or_ge bufsize.toNat (neededSize al t.path st) with full | room
    · obtain ⟨stores, ends, -⟩ := fill_full invalid least full
      rw [ends] at packed
      exact nomatch packed
    · rw [fill_room invalid room]
      exact (truthful_iff asked).trans (rightAt_all_iff asked)

theorem returned_set_truthful_objtag :
    let al : AttrList := ⟨5, 0x80000010, 0x80000000, 0, 0⟩
    let t : AttrTarget := ⟨some (ascii "/etc/hosts"), false⟩
    Truthful al (attributes t.path emptyStat)
      (Code.storeAll (fun _ => 0) (macifyAttrlistFill al t (.ok emptyStat) true 64).stores) := by
  intro al t
  refine (@returned_set_truthful_iff _ _ _ _ 64 32 ?_ ?_ ?_).mpr ?_
  · decide
  · decide
  · decide +kernel
  · decide

/-- For the type alone the set has a block size and information about the volume, and no common attribute. -/
theorem returned_set_untrue :
    let al : AttrList := ⟨5, 0x80000008, 0, 0, 0⟩
    let t : AttrTarget := ⟨some (ascii "/etc/hosts"), false⟩
    let filled := macifyAttrlistFill al t (.ok emptyStat) true 64
    let m := Code.storeAll (fun _ => 0) filled.stores
    filled.result = .ok 28 ∧ m.word32 4 = 0 ∧ m.word32 8 = 0x80000000 ∧ m.word32 16 = 8 ∧
      ¬Truthful al (attributes t.path emptyStat) m := by
  intro al t filled m
  have room : neededSize al t.path emptyStat ≤ (64 : W64).toNat := by decide +kernel
  have asked : al.commonattr &&& 0x80000000 ≠ 0 := by decide
  have packed : filled = _ := fill_room rfl room
  refine ⟨by decide +kernel, by decide +kernel, by decide +kernel, by decide +kernel, ?_⟩
  change ¬Truthful al (attributes t.path emptyStat) (Code.storeAll (fun _ => 0) filled.stores)
  rw [packed, truthful_iff asked, rightAt_all_iff asked]
  decide

end Set

end Macify.Shim.Files
