import Macify.Lib.Memory
import Macify.Image.Segments

/-!
# The memory of a segment

What `map_segment` (`src/segments.c`) and the second pass of `map_dylib_segments` (`src/macho_dylib.c`) write for one
`LC_SEGMENT_64` command: `filesize` bytes of the file and zeros up to `vmsize`. Neither compares the two sizes, and
only the first compares the range with the file, by a sum that wraps around. Main result: `mapping_reproduces_iff`.
-/

namespace Macify.Image
open Lib

structure FileView where
  file : Buf
  bytes : Mem
  short : file.length < 2 ^ 64
  inside : ∀ i < file.length, bytes (BitVec.ofNat 64 i) = byte file i

def copySegment (view : FileView) (target : W64) (seg : SegmentCommand) (m : Mem) : Mem :=
  let copied :=
    if 0 < seg.filesize then m.store target (view.bytes.load seg.fileoff seg.filesize.toNat) else m
  if seg.filesize < seg.vmsize then
    copied.zero (target + seg.filesize) (seg.vmsize - seg.filesize).toNat
  else copied

def mapSize (seg : SegmentCommand) : W64 := (seg.vmsize + 4095) &&& ~~~4095

/-- `mprotect` on the reserved range or, if that fails, `mmap` with `MAP_FIXED`. -/
structure Reservation where
  slide : W64
  mprotect : SegmentCommand → Bool
  mmapFixed : SegmentCommand → Bool

/-- The memory of a segment is made accessible. With `MAP_FIXED` it consists of new pages. -/
def Reservation.access (r : Reservation) (seg : SegmentCommand) (m : Mem) : Option Mem :=
  if r.mprotect seg then some m
  else if r.mmapFixed seg then some (m.zero (seg.vmaddr + r.slide) (mapSize seg).toNat)
  else none

def Reservation.env (r : Reservation) (view : FileView) : MapEnv where
  slide := r.slide
  fileSize := BitVec.ofNat 64 view.file.length
  accessible seg := r.mprotect seg || r.mmapFixed seg

/-- The check against the end of the file, the copy and the entries in the tables. -/
def fillSegment (r : Reservation) (view : FileView) (t : Tables) (seg : SegmentCommand) (m : Mem) :
    Option (Tables × Mem) :=
  if 0 < seg.filesize ∧ BitVec.ofNat 64 view.file.length < seg.fileoff + seg.filesize then none
  else
    (seg.sects.foldlM (addSection r.slide)
        { t with segments := t.segments ++ [mappedEntry r.slide seg] }).map
      fun t => (t, copySegment view (seg.vmaddr + r.slide) seg m)

def mapSegmentInto (r : Reservation) (view : FileView) (t : Tables) (seg : SegmentCommand) (m : Mem) :
    Option (Tables × Mem) :=
  if maxSegments ≤ t.segments.length then none
  else if seg.vmsize = 0 then some (t, m)
  else if seg.isPagezero then some ({ t with segments := t.segments ++ [pagezeroEntry seg] }, m)
  else (r.access seg m).bind (fillSegment r view t seg)

/-- `map_dylib_segments` makes no copy for an empty segment and for a guard at address 0. -/
def dylibSkips (seg : SegmentCommand) : Bool :=
  seg.vmsize = 0 || (seg.vmaddr = 0 && 0x80000000 ≤ seg.vmsize)

def mapDylibSegment (slide : W64) (view : FileView) (seg : SegmentCommand) (m : Mem) : Mem :=
  if dylibSkips seg then m else copySegment view (seg.vmaddr + slide) seg m

section Tables

variable {r : Reservation} {view : FileView} {t : Tables} {seg : SegmentCommand} {m : Mem}

lemma fillSegment_tables :
    (fillSegment r view t seg m).map Prod.fst =
      if 0 < seg.filesize ∧ (r.env view).fileSize < seg.fileoff + seg.filesize then none
      else seg.sects.foldlM (addSection (r.env view).slide)
        { t with segments := t.segments ++ [mappedEntry (r.env view).slide seg] } := by
  by_cases past : 0 < seg.filesize ∧ BitVec.ofNat 64 view.file.length < seg.fileoff + seg.filesize
  · rw [fillSegment, if_pos past]
    exact (if_pos past).symm
  · rw [fillSegment, if_neg past, Option.map_map]
    exact Option.map_id'.trans (if_neg past).symm

lemma access_isSome : (r.access seg m).isSome = (r.env view).accessible seg := by
  show _ = (r.mprotect seg || r.mmapFixed seg)
  unfold Reservation.access
  cases r.mprotect seg with
  | true => rfl
  | false => cases r.mmapFixed seg <;> rfl

/-- The table is that of the model without memory. -/
lemma mapSegmentInto_tables : (mapSegmentInto r view t seg m).map Prod.fst = mapSegment (r.env view) t seg := by
  by_cases full : maxSegments ≤ t.segments.length
  · rw [mapSegmentInto, if_pos full, mapSegment, if_pos full]
    rfl
  by_cases empty : seg.vmsize = 0
  · rw [mapSegmentInto, if_neg full, if_pos empty, mapSegment, if_neg full, if_pos empty]
    rfl
  by_cases zero : seg.isPagezero = true
  · rw [mapSegmentInto, if_neg full, if_neg empty, if_pos zero, mapSegment, if_neg full, if_neg empty, if_pos zero]
    rfl
  have some := @access_isSome r view seg m
  rw [mapSegmentInto, if_neg full, if_neg empty, if_neg zero, mapSegment, if_neg full, if_neg empty,
    if_neg zero, ← some]
  cases r.access seg m with
  | none => rfl
  | some m' => exact fillSegment_tables

end Tables

inductive Mapper where
  | main (r : Reservation) (t : Tables)
  | dylib (slide : W64)

namespace Mapper

def slide : Mapper → W64
  | main r _ => r.slide
  | dylib slide => slide

def target (p : Mapper) (seg : SegmentCommand) : W64 := seg.vmaddr + p.slide

def run (view : FileView) (seg : SegmentCommand) (m : Mem) : Mapper → Option Mem
  | main r t =>
    if seg.vmsize = 0 ∨ seg.isPagezero = true then none
    else (mapSegmentInto r view t seg m).map Prod.snd
  | dylib slide => if dylibSkips seg then none else some (mapDylibSegment slide view seg m)

def Accepts (p : Mapper) (view : FileView) (seg : SegmentCommand) : Prop :=
  ∀ m, (p.run view seg m).isSome = true

def remaps (seg : SegmentCommand) : Mapper → Bool
  | main r _ => !r.mprotect seg
  | dylib _ => false

def prepare (p : Mapper) (seg : SegmentCommand) (m : Mem) : Mem :=
  if p.remaps seg then m.zero (p.target seg) (mapSize seg).toNat else m

/-- `map_segment` has compared the 64-bit sum with the size of the file, `map_dylib_segments` nothing. -/
def InRange (view : FileView) (seg : SegmentCommand) : Mapper → Prop
  | main _ _ => seg.fileoff.toNat + seg.filesize.toNat < 2 ^ 64
  | dylib _ => seg.fileoff.toNat + seg.filesize.toNat ≤ view.file.length

section Run

variable {view : FileView} {seg : SegmentCommand} {m m' : Mem}

lemma run_main {r t} (run : (main r t).run view seg m = some m') :
    ∃ m₁, r.access seg m = some m₁ ∧ m' = copySegment view (seg.vmaddr + r.slide) seg m₁ ∧
      ¬(0 < seg.filesize ∧ BitVec.ofNat 64 view.file.length < seg.fileoff + seg.filesize) := by
  simp only [Mapper.run] at run
  split at run
  · cases run
  next other =>
  obtain ⟨nonempty, zero⟩ := not_or.mp other
  obtain ⟨⟨t', m₂⟩, into, rfl⟩ := Option.map_eq_some_iff.mp run
  unfold mapSegmentInto at into
  split at into
  · cases into
  obtain ⟨m₁, access, fill⟩ := Option.bind_eq_some_iff.mp into
  unfold fillSegment at fill
  split at fill
  · cases fill
  next inside =>
  obtain ⟨t₁, _, e⟩ := Option.map_eq_some_iff.mp fill
  cases e
  exact ⟨m₁, access, rfl, inside⟩

lemma access_eq {r t m₁} (access : Reservation.access r seg m = some m₁) : m₁ = (main r t).prepare seg m := by
  have remaps : (main r t).remaps seg = !r.mprotect seg := rfl
  rw [prepare, remaps]
  unfold Reservation.access at access
  split at access
  · next protect =>
    cases access
    rw [protect]
    rfl
  · next protect =>
    rw [Bool.eq_false_of_not_eq_true protect]
    split at access
    · cases access
      rfl
    · cases access

lemma run_eq {p : Mapper} (run : p.run view seg m = some m') :
    m' = copySegment view (p.target seg) seg (p.prepare seg m) := by
  cases p with
  | main r t =>
    obtain ⟨m₁, access, rfl, _⟩ := run_main run
    rw [access_eq (t := t) access]
    rfl
  | dylib slide =>
    simp only [Mapper.run] at run
    split at run
    · cases run
    next copied =>
    cases run
    rw [mapDylibSegment, if_neg copied]
    rfl

lemma Accepts.inRange_iff {p : Mapper} (accepts : p.Accepts view seg) (nonempty : seg.filesize ≠ 0) :
    p.InRange view seg ↔ seg.fileoff.toNat + seg.filesize.toNat ≤ view.file.length := by
  cases p with
  | dylib slide => exact Iff.rfl
  | main r t =>
    have short := view.short
    obtain ⟨m', run⟩ := Option.isSome_iff_exists.mp (accepts fun _ => 0)
    obtain ⟨_, _, _, inside⟩ := run_main run
    have le : seg.fileoff + seg.filesize ≤ BitVec.ofNat 64 view.file.length := by
      by_contra past
      exact inside ⟨by bv_omega, by bv_omega⟩
    unfold InRange
    constructor
    · intro exact_sum
      bv_omega
    · intro within
      omega

end Run

end Mapper

/-- The bytes of a segment in memory: bytes of the file, then zeros, and nothing beyond `vmsize`. -/
def segmentByte (view : FileView) (seg : SegmentCommand) (d : ℕ) (old : UInt8) : UInt8 :=
  if d < seg.vmsize.toNat then
    if d < seg.filesize.toNat then byte view.file (seg.fileoff.toNat + d) else 0
  else old

structure Reproduces (p : Mapper) (view : FileView) (seg : SegmentCommand) : Prop where
  inside : ∀ i < seg.filesize.toNat, seg.fileoff.toNat + i < view.file.length
  contents : ∀ m m', p.run view seg m = some m' →
    ∀ a, m' a = segmentByte view seg (a - p.target seg).toNat (m a)

section Contents

variable {view : FileView} {seg : SegmentCommand} {target a : W64} {m : Mem}

lemma zero_apply {n : ℕ} (fits : n ≤ 2 ^ 64) : m.zero target n a = if (a - target).toNat < n then 0 else m a := by
  rw [Mem.zero, Mem.store_apply (by simpa using fits), List.length_replicate]
  split
  · next lt => rw [byte_of_lt (by simpa using lt), List.getElem_replicate]
  · rfl

lemma copySegment_apply :
    copySegment view target seg m a =
      if (a - target).toNat < seg.filesize.toNat then
        view.bytes (seg.fileoff + BitVec.ofNat 64 (a - target).toNat)
      else if (a - target).toNat < seg.vmsize.toNat then 0
      else m a := by
  have size := seg.filesize.isLt
  have copied : (if 0 < seg.filesize then
      m.store target (view.bytes.load seg.fileoff seg.filesize.toNat) else m) a =
        if (a - target).toNat < seg.filesize.toNat then
          view.bytes (seg.fileoff + BitVec.ofNat 64 (a - target).toNat)
        else m a := by
    split
    · rw [Mem.store_apply (by rw [Mem.length_load]; omega), Mem.length_load]
      split
      · next lt => rw [Mem.byte_load lt]
      · rfl
    · next none =>
      have zero : seg.filesize.toNat = 0 := by bv_omega
      rw [if_neg (by omega)]
  unfold copySegment
  split
  · next less =>
    rw [zero_apply (by have := (seg.vmsize - seg.filesize).isLt; omega), copied]
    by_cases lt : (a - target).toNat < seg.filesize.toNat
    · rw [if_neg (by bv_omega), if_pos lt, if_pos lt]
    · rw [if_neg lt, if_neg lt]
      have behind : (a - (target + seg.filesize)).toNat < (seg.vmsize - seg.filesize).toNat ↔
          (a - target).toNat < seg.vmsize.toNat := by bv_omega
      by_cases inside : (a - target).toNat < seg.vmsize.toNat
      · rw [if_pos (behind.mpr inside), if_pos inside]
      · rw [if_neg (mt behind.mp inside), if_neg inside]
  · next less =>
    have le : seg.vmsize.toNat ≤ seg.filesize.toNat := by bv_omega
    rw [copied]
    by_cases lt : (a - target).toNat < seg.filesize.toNat
    · rw [if_pos lt, if_pos lt]
    · rw [if_neg lt, if_neg lt, if_neg (by omega)]

lemma prepare_apply {p : Mapper} :
    p.prepare seg m a =
      if p.remaps seg = true ∧ (a - p.target seg).toNat < (mapSize seg).toNat then 0 else m a := by
  unfold Mapper.prepare
  cases p.remaps seg with
  | true =>
    rw [if_pos rfl, zero_apply (mapSize seg).isLt.le]
    simp only [true_and]
  | false =>
    rw [if_neg Bool.false_ne_true, if_neg fun h => Bool.false_ne_true h.1]

lemma FileView.read {i : ℕ} (view : FileView) {off : W64} (inside : off.toNat + i < view.file.length) :
    view.bytes (off + BitVec.ofNat 64 i) = byte view.file (off.toNat + i) := by
  have short := view.short
  have e : off + BitVec.ofNat 64 i = BitVec.ofNat 64 (off.toNat + i) := by bv_omega
  rw [e, view.inside _ inside]

lemma sub_target {n : W64} : (target + n - target).toNat = n.toNat := by bv_omega

end Contents

section Reproduces

variable {p : Mapper} {view : FileView} {seg : SegmentCommand}

lemma Reproduces.kept (rep : Reproduces p view seg) (accepts : p.Accepts view seg) {m : Mem}
    {d : W64} (behind : seg.vmsize ≤ d) :
    copySegment view (p.target seg) seg (p.prepare seg m) (p.target seg + d) =
      m (p.target seg + d) := by
  obtain ⟨m', run⟩ := Option.isSome_iff_exists.mp (accepts m)
  have contents := rep.contents m m' run (p.target seg + d)
  rw [sub_target, segmentByte, if_neg (Nat.not_lt.mpr behind)] at contents
  rw [← Mapper.run_eq run, contents]

lemma Reproduces.filesize_le (rep : Reproduces p view seg) (accepts : p.Accepts view seg) :
    seg.filesize ≤ seg.vmsize := by
  by_contra more
  -- the byte right behind the segment is a byte of the file, whatever was there before
  have written : ∀ m : Mem, m (p.target seg + seg.vmsize) =
      view.bytes (seg.fileoff + BitVec.ofNat 64 seg.vmsize.toNat) := by
    intro m
    rw [← rep.kept (m := m) accepts (BitVec.le_refl seg.vmsize), copySegment_apply, sub_target,
      if_pos (by bv_omega)]
  have zero := written fun _ => 0
  have one := written fun _ => 1
  rw [← zero] at one
  cases one

lemma Reproduces.mapSize_le (rep : Reproduces p view seg) (accepts : p.Accepts view seg)
    (remaps : p.remaps seg = true) : mapSize seg ≤ seg.vmsize := by
  by_contra more
  have le := rep.filesize_le accepts
  have written : ∀ m : Mem, m (p.target seg + seg.vmsize) = 0 := by
    intro m
    rw [← rep.kept (m := m) accepts (BitVec.le_refl seg.vmsize), copySegment_apply, sub_target,
      if_neg (by bv_omega), if_neg (lt_irrefl _), prepare_apply, sub_target,
      if_pos ⟨remaps, by bv_omega⟩]
  have one := written fun _ => 1
  cases one

/-- An accepted command is reproduced exactly when the bytes of the file fit into the segment and lie in the
    file, and new pages do not go beyond it. -/
theorem mapping_reproduces_iff (accepts : p.Accepts view seg) :
    Reproduces p view seg ↔
      seg.filesize ≤ seg.vmsize ∧ (seg.filesize = 0 ∨ p.InRange view seg) ∧
        (p.remaps seg = true → mapSize seg ≤ seg.vmsize) := by
  constructor
  · intro rep
    refine ⟨rep.filesize_le accepts, ?_, rep.mapSize_le accepts⟩
    by_cases empty : seg.filesize = 0
    · exact .inl empty
    · have last := rep.inside (seg.filesize.toNat - 1) (by bv_omega)
      exact .inr ((accepts.inRange_iff empty).mpr (by bv_omega))
  · rintro ⟨le, range, pages⟩
    have inside : ∀ i < seg.filesize.toNat, seg.fileoff.toNat + i < view.file.length := by
      intro i lt
      have nonempty : seg.filesize ≠ 0 := by
        rintro empty
        rw [empty] at lt
        exact Nat.not_lt_zero i lt
      have within := (accepts.inRange_iff nonempty).mp (range.resolve_left nonempty)
      omega
    refine ⟨inside, fun m m' run a => ?_⟩
    rw [Mapper.run_eq run, copySegment_apply, prepare_apply, segmentByte]
    by_cases file : (a - p.target seg).toNat < seg.filesize.toNat
    · rw [if_pos file, if_pos file, if_pos (by bv_omega), view.read (inside _ file)]
    rw [if_neg file, if_neg file]
    by_cases segment : (a - p.target seg).toNat < seg.vmsize.toNat
    · rw [if_pos segment, if_pos segment]
    rw [if_neg segment, if_neg segment, if_neg]
    rintro ⟨remaps, page⟩
    have := pages remaps
    bv_omega

end Reproduces

def smallFile : FileView where
  file := List.replicate 16 0x90
  bytes a := byte (List.replicate 16 0x90) a.toNat
  short := by decide
  inside i lt := by rw [BitVec.toNat_ofNat, Nat.mod_eq_of_lt (lt.trans (by decide))]

def reserved : Mapper := .main ⟨0x10000, fun _ => true, fun _ => true⟩ ⟨[], []⟩

def taken : Mapper := .main ⟨0x10000, fun _ => false, fun _ => true⟩ ⟨[], []⟩

def dataSegment (vmsize fileoff filesize : W64) : SegmentCommand :=
  ⟨ascii "__DATA", 0x1000, vmsize, fileoff, filesize, 3, []⟩

theorem mapping_reproduces_iff_data :
    Reproduces reserved smallFile (dataSegment 0x1000 4 8) :=
  (mapping_reproduces_iff fun _ => rfl).mpr
    ⟨by decide, .inr (show 4 + 8 < 2 ^ 64 by decide), nofun⟩

/-- More bytes in the file than in the segment, ranges outside the file, and new pages behind the segment. -/
theorem mapping_not_reproduced :
    (reserved.Accepts smallFile (dataSegment 8 0 16) ∧
      ¬Reproduces reserved smallFile (dataSegment 8 0 16)) ∧
    (Mapper.Accepts (.dylib 0x10000) smallFile (dataSegment 8 0 16) ∧
      ¬Reproduces (.dylib 0x10000) smallFile (dataSegment 8 0 16)) ∧
    (reserved.Accepts smallFile (dataSegment 0x1000 (-8) 16) ∧
      ¬Reproduces reserved smallFile (dataSegment 0x1000 (-8) 16)) ∧
    (Mapper.Accepts (.dylib 0x10000) smallFile (dataSegment 0x1000 16 8) ∧
      ¬Reproduces (.dylib 0x10000) smallFile (dataSegment 0x1000 16 8)) ∧
    (taken.Accepts smallFile (dataSegment 8 0 8) ∧
      ¬Reproduces taken smallFile (dataSegment 8 0 8)) := by
  refine ⟨⟨fun _ => rfl, fun rep => ?_⟩, ⟨fun _ => rfl, fun rep => ?_⟩, ⟨fun _ => rfl, fun rep => ?_⟩,
    ⟨fun _ => rfl, fun rep => ?_⟩, ⟨fun _ => rfl, fun rep => ?_⟩⟩
  · exact absurd (rep.filesize_le fun _ => rfl) (by decide)
  · exact absurd (rep.filesize_le fun _ => rfl) (by decide)
  · exact absurd (rep.inside 0 (by decide)) (by decide)
  · exact absurd (rep.inside 0 (by decide)) (by decide)
  · exact absurd (rep.mapSize_le (fun _ => rfl) rfl) (by decide)

end Macify.Image
