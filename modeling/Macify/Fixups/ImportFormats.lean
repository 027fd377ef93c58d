import Macify.Fixups.ChainFormat

/-!
# One import in two formats

A pointer slot can be bound by a bind opcode stream or by an entry of a fixup chain. The main image handles the two
in separate code: the interpreter of the stream refuses the special ordinals, which the chain looks up in all
libraries, and cuts names after 255 bytes.
-/

namespace Macify.Fixups
open Lib Image

structure Binding where
  ordinal : ℤ
  name : Buf
  addend : W64
  type : ℕ
  segIndex : ℕ
  segOffset : W64
  counted : Bool
  deriving DecidableEq

structure Reader where
  current : Binding
  bindings : List Binding
  deriving DecidableEq

namespace Reader

def start : Reader := ⟨⟨0, [], 0, BIND_TYPE_POINTER, 0, 0, false⟩, []⟩

def advance (q : Reader) (n : W64) : Reader :=
  { q with current := { q.current with segOffset := q.current.segOffset + n } }

def bind (q : Reader) (counted : Bool) (n : W64) : Reader :=
  { q with bindings := q.bindings ++ [{ q.current with counted := counted }] }.advance (8 + n)

def bindTimes (skip : W64) : ℕ → Reader → Reader
  | 0, q => q
  | n + 1, q => bindTimes skip n (q.bind true skip)

end Reader

def readerStep (q : Reader) (b : UInt8) (rest : Buf) : Step Reader :=
  let imm := immOf b
  let set (rest : Buf) (c : Binding) : Step Reader := .more rest { q with current := c }
  match BindOpcode.ofByte b with
  | none => .stop false q
  | some .done =>
    if rest = [] then .stop true q
    else set rest { q.current with name := [], segOffset := 0, segIndex := 0 }
  | some .setDylibOrdinalImm => set rest { q.current with ordinal := imm }
  | some .setDylibOrdinalUleb =>
    let (v, rest) := readUleb128 rest
    set rest { q.current with ordinal := (v.setWidth 32).toInt }
  | some .setDylibSpecialImm =>
    set rest { q.current with ordinal := if imm = 0 then 0 else (BitVec.ofNat 8 (imm ||| 0xF0)).toInt }
  | some .setSymbolTrailingFlagsImm =>
    let name := cString rest
    if rest.length ≤ name.length then .stop false q
    else set (rest.drop (name.length + 1)) { q.current with name := name }
  | some .setTypeImm => set rest { q.current with type := imm }
  | some .setAddendSleb =>
    let (v, rest) := readSleb128 rest
    set rest { q.current with addend := v }
  | some .setSegmentRelativeOffsetUleb =>
    let (v, rest) := readUleb128 rest
    set rest { q.current with segIndex := imm, segOffset := v }
  | some .addAddrUleb =>
    let (v, rest) := readUleb128 rest
    .more rest (q.advance v)
  | some .doBind => .more rest (q.bind false 0)
  | some .doBindAddAddrUleb =>
    let (v, rest) := readUleb128 rest
    .more rest (q.bind false v)
  | some .doBindAddAddrImmScaled => .more rest (q.bind false (BitVec.ofNat 64 (imm * 8)))
  | some .doBindUlebTimesSkippingUleb =>
    let (count, rest) := readUleb128 rest
    let (skip, rest) := readUleb128 rest
    .more rest (q.bindTimes skip count.toNat)

def readBindings (stream : Buf) : Bool × Reader := interpret readerStep stream .start

def boundAddr (env : BindEnv) (n : ℤ) (name : Buf) : W64 :=
  let addr := env.resolve (n - 1) (stripUnderscore name)
  if addr = 0 then env.stub else addr

namespace Binding

def write (env : BindEnv) (b : Binding) : W64 × W64 :=
  ((slotAddr env.segs b.segIndex b.segOffset).getD b.segOffset,
    boundAddr env b.ordinal (b.name.take 255) + b.addend)

def writes (env : BindEnv) (b : Binding) : List (W64 × W64) :=
  if b.counted = true ∨ b.type = BIND_TYPE_POINTER then [b.write env] else []

structure Accepted (env : BindEnv) (b : Binding) : Prop where
  ordinal : 1 ≤ b.ordinal ∧ b.ordinal ≤ env.ndylibs
  segment : b.counted = false → b.segIndex < env.segs.length

end Binding

def Refused (env : BindEnv) (q : Reader) : Prop := ∃ b ∈ q.bindings, ¬ b.Accepted env

structure Tracks (env : BindEnv) (st : BindState) (q : Reader) : Prop where
  ordinal : st.ordinal = q.current.ordinal
  symbolName : st.symbolName = q.current.name.take 255
  type : st.type = q.current.type
  addend : st.addend = q.current.addend
  segOffset : st.segOffset = q.current.segOffset
  segIndex : st.segIndex = q.current.segIndex
  writes : st.writes = q.bindings.flatMap (Binding.writes env)
  accepted : ∀ b ∈ q.bindings, b.Accepted env

section Tracks

variable {env : BindEnv} {st : BindState} {q : Reader} {n : W64}

lemma refused_bind {counted} (bad : Refused env q) : Refused env (q.bind counted n) := by
  obtain ⟨b, mem, refused⟩ := bad
  exact ⟨b, List.mem_append_left _ mem, refused⟩

lemma refused_bindTimes {count} (bad : Refused env q) : Refused env (q.bindTimes n count) := by
  induction count generalizing q with
  | zero => exact bad
  | succ count ih => exact ih (refused_bind bad)

lemma refused_last {counted} (bad : ¬ Binding.Accepted env { q.current with counted := counted }) :
    Refused env (q.bind counted n) :=
  ⟨_, List.mem_append_right _ (List.mem_singleton_self _), bad⟩

lemma readerStep_refused (b : UInt8) (rest : Buf) (bad : Refused env q) :
    Refused env (readerStep q b rest).state := by
  unfold readerStep
  cases BindOpcode.ofByte b with
  | none => exact bad
  | some op =>
    cases op with
    | done | setSymbolTrailingFlagsImm =>
      dsimp only
      split
      · exact bad
      · exact bad
    | doBind | doBindAddAddrUleb | doBindAddAddrImmScaled => exact refused_bind bad
    | doBindUlebTimesSkippingUleb => exact refused_bindTimes bad
    | _ => exact bad

lemma Tracks.ordinalOk (t : Tracks env st q) :
    ordinalOk env st = true ↔ 1 ≤ q.current.ordinal ∧ q.current.ordinal ≤ env.ndylibs := by
  rw [Fixups.ordinalOk, t.ordinal, Bool.and_eq_true, decide_eq_true_iff, decide_eq_true_iff]

lemma Tracks.write (t : Tracks env st q) {counted} :
    (bindTarget env st, bindValue env st) =
      Binding.write env { q.current with counted := counted } := by
  rw [bindTarget, bindValue, lookup, t.segIndex, t.segOffset, t.ordinal, t.symbolName, t.addend]
  rfl

lemma Tracks.bind (t : Tracks env st q) {counted noted}
    (accepted : Binding.Accepted env { q.current with counted := counted }) :
    Tracks env { st with
        segOffset := st.segOffset + (8 + n)
        writes := st.writes ++ Binding.writes env { q.current with counted := counted }
        noted := noted } (q.bind counted n) where
  ordinal := t.ordinal
  symbolName := t.symbolName
  type := t.type
  addend := t.addend
  segOffset := congrArg (· + (8 + n)) t.segOffset
  segIndex := t.segIndex
  writes := by
    show st.writes ++ _ = (q.bindings ++ [_]).flatMap _
    rw [List.flatMap_append, ← t.writes, List.flatMap_singleton]
  accepted b mem := by
    cases List.mem_append.mp mem with
    | inl mem => exact t.accepted b mem
    | inr mem =>
      cases List.mem_singleton.mp mem
      exact accepted

lemma Tracks.bindOne (t : Tracks env st q) {rest} :
    Paired (Tracks env) (Refused env) (Fixups.bindOne env n rest st) (.more rest (q.bind false n)) := by
  unfold Fixups.bindOne
  by_cases ok : Fixups.ordinalOk env st = true
  · rw [ok, Bool.not_true, if_neg Bool.false_ne_true]
    obtain ⟨l, noted⟩ : ∃ l, noteUnresolved env st = { st with noted := l } := by
      unfold noteUnresolved
      split
      · exact ⟨_, rfl⟩
      · exact ⟨st.noted, rfl⟩
    simp only [noted]
    split
    · next outside =>
      refine .refused (refused_last fun accepted => ?_)
      have inside := accepted.segment rfl
      rw [t.segIndex] at outside
      exact absurd inside (Nat.not_lt.mpr outside)
    · next inside =>
      rw [t.segIndex] at inside
      have next := @Tracks.bind env st q n t false l ⟨t.ordinalOk.mp ok, fun _ => Nat.lt_of_not_le inside⟩
      apply Paired.more
      by_cases pointer : st.type = BIND_TYPE_POINTER
      · rw [if_pos pointer]
        rw [Binding.writes, if_pos (.inr (t.type.symm.trans pointer)), ← t.write] at next
        exact next
      · rw [if_neg pointer]
        rw [Binding.writes, if_neg, List.append_nil] at next
        · exact next
        · exact not_or.mpr ⟨Bool.false_ne_true, fun e => pointer (t.type.trans e)⟩
  · rw [Bool.not_eq_true] at ok
    rw [ok, Bool.not_false, if_pos rfl]
    refine .refused (refused_last fun accepted => ?_)
    rw [t.ordinalOk.mpr accepted.ordinal] at ok
    cases ok

lemma Tracks.bindTimes (t : Tracks env st q) {skip count} :
    ((Fixups.bindTimes env skip count st).1 = true ∧
        Tracks env (Fixups.bindTimes env skip count st).2 (q.bindTimes skip count)) ∨
      ((Fixups.bindTimes env skip count st).1 = false ∧ Refused env (q.bindTimes skip count)) := by
  induction count generalizing st q with
  | zero => exact .inl ⟨rfl, t⟩
  | succ count ih =>
    rw [Fixups.bindTimes]
    by_cases ok : Fixups.ordinalOk env st = true
    · rw [ok, Bool.not_true, if_neg Bool.false_ne_true]
      have next := @Tracks.bind env st q skip t true st.noted ⟨t.ordinalOk.mp ok, nofun⟩
      rw [Binding.writes, if_pos (.inl rfl), ← t.write] at next
      exact ih next
    · rw [Bool.not_eq_true] at ok
      rw [ok, Bool.not_false, if_pos rfl]
      refine .inr ⟨rfl, @refused_bindTimes env (q.bind true skip) skip count (refused_last fun accepted => ?_)⟩
      rw [t.ordinalOk.mpr accepted.ordinal] at ok
      cases ok

lemma Tracks.step (t : Tracks env st q) (b : UInt8) (rest : Buf) :
    Paired (Tracks env) (Refused env) (bindStep env st b rest) (readerStep q b rest) := by
  unfold bindStep readerStep
  cases BindOpcode.ofByte b with
  | none => exact .stop t
  | some op =>
    cases op with
    | done =>
      dsimp only
      split
      · exact .stop t
      · exact .more { t with symbolName := rfl, segOffset := rfl, segIndex := rfl }
    | setSymbolTrailingFlagsImm =>
      dsimp only
      split
      · exact .stop t
      · exact .more { t with symbolName := rfl }
    | setDylibOrdinalImm | setDylibOrdinalUleb | setDylibSpecialImm =>
      exact .more { t with ordinal := rfl }
    | setTypeImm => exact .more { t with type := rfl }
    | setAddendSleb => exact .more { t with addend := rfl }
    | setSegmentRelativeOffsetUleb => exact .more { t with segIndex := rfl, segOffset := rfl }
    | addAddrUleb => exact .more { t with segOffset := congrArg (· + _) t.segOffset }
    | doBind | doBindAddAddrUleb | doBindAddAddrImmScaled => exact t.bindOne
    | doBindUlebTimesSkippingUleb =>
      dsimp only
      have times := @Tracks.bindTimes env st q t (readUleb128 (readUleb128 rest).2).1
        (readUleb128 rest).1.toNat
      revert times
      generalize Fixups.bindTimes env _ _ st = r
      obtain ⟨ok, st'⟩ := r
      intro times
      cases times with
      | inl h =>
        obtain ⟨rfl, next⟩ := h
        exact .more next
      | inr h =>
        obtain ⟨rfl, bad⟩ := h
        exact .refused bad

lemma executeBinds_reader (stream : Buf) :
    ((executeBinds env stream).1 = (readBindings stream).1 ∧
        Tracks env (executeBinds env stream).2 (readBindings stream).2) ∨
      ((executeBinds env stream).1 = false ∧ Refused env (readBindings stream).2) :=
  interpret_lockstep (Tracks env) (Refused env) (fun _ _ b rest t => t.step b rest)
    (fun _ b rest bad => readerStep_refused b rest bad)
    ⟨rfl, rfl, rfl, rfl, rfl, rfl, rfl, fun _ mem => absurd mem List.not_mem_nil⟩

end Tracks

inductive LibraryOrdinal where
  | library (n : ℕ)
  | self
  | mainExecutable
  | flatLookup
  | weakLookup
  deriving DecidableEq

namespace LibraryOrdinal

def value : LibraryOrdinal → ℤ
  | library n => n
  | self => 0
  | mainExecutable => -1
  | flatLookup => -2
  | weakLookup => -3

def Allowed (env : BindEnv) : LibraryOrdinal → Prop
  | library n => 1 ≤ n ∧ n ≤ env.ndylibs ∧ n ≤ 240
  | _ => True

def wrapped (o : LibraryOrdinal) : ℕ := (BitVec.ofInt 8 o.value).toNat

end LibraryOrdinal

structure OneBindStream (env : BindEnv) (stream : Buf) (slot : W64) (ordinal : LibraryOrdinal)
    (name : Buf) (addend : BitVec 8) : Prop where
  reads : (readBindings stream).1 = true
  one : ∃ b, (readBindings stream).2.bindings = [b] ∧ b.ordinal = ordinal.value ∧ b.name = name ∧
    b.addend = addend.setWidth 64 ∧ b.type = BIND_TYPE_POINTER ∧
    slotAddr env.segs b.segIndex b.segOffset = some slot

/-- Chain starts at offset `s` of the blob with one chain, which starts at the slot on page `p`. -/
structure OneStart (blob : Buf) (s : ℕ) (seg : LoadedSegment) (p : ℕ) (slot : W64) : Prop where
  page : p < pageCount blob s
  start : pageStart blob s p ≠ DYLD_CHAINED_PTR_START_NONE
  others : ∀ j < pageCount blob s, j ≠ p → pageStart blob s j = DYLD_CHAINED_PTR_START_NONE
  place : pageBase blob s seg.vmaddr p + (pageStart blob s p).setWidth 64 = slot
  fits : slot + 8 ≤ pageEnd blob s seg.vmaddr seg.vmsize p

/-- The word is the only entry of a chain, and binds an import with this ordinal and name. -/
structure BindsImport (blob : Buf) (value : W64) (ordinal : LibraryOrdinal) (name : Buf)
    (addend : BitVec 8) : Prop where
  bind : value.msb = true
  last : chainNext value = 0
  inRange : bindOrdinal value < importsCount blob
  ordinal : libOrdinal (importAt blob (bindOrdinal value)) = ordinal.wrapped
  name : symbolAt blob (nameOffset (importAt blob (bindOrdinal value))) = name
  addend : bindAddend value = addend.setWidth 64

structure OneBindChain (env : BindEnv) (blob : Buf) (mem : Mem) (slot : W64)
    (ordinal : LibraryOrdinal) (name : Buf) (addend : BitVec 8) (k p : ℕ) (seg : LoadedSegment) :
    Prop where
  version : fixupsVersion blob = 0
  segment : env.segs[k]? = some seg
  counted : k < startsCount blob
  starts : segStarts blob k ≠ 0
  others : ∀ j < startsCount blob, j ≠ k → segStarts blob j = 0
  format : ptrFormat blob (startsOffset blob + segStarts blob k) = DYLD_CHAINED_PTR_64_OFFSET
  chain : OneStart blob (startsOffset blob + segStarts blob k) seg p slot
  entry : BindsImport blob (mem.read64 slot) ordinal name addend

section Formats

variable {env : BindEnv} {stream blob name : Buf} {mem mem' : Mem} {slot : W64} {s k p : ℕ}
  {ordinal : LibraryOrdinal} {addend : BitVec 8} {seg : LoadedSegment} {st : ChainState}
  {entry : W64 → Replacement}

lemma OneStart.walkPages (one : OneStart blob s seg p slot) (last : chainNext (st.mem.read64 slot) = 0) :
    walkPages entry blob s seg.vmaddr seg.vmsize st = st.fix (ptrFormat blob s) entry slot := by
  have others : ∀ j ∈ List.range (pageCount blob s), j ≠ p →
      ∀ st, walkPage entry blob s seg.vmaddr seg.vmsize st j = st := fun j mem ne st =>
    if_pos (one.others j (List.mem_range.mp mem) ne)
  rw [Fixups.walkPages, foldl_single (List.mem_range.mpr one.page) List.nodup_range others, walkPage,
    if_neg one.start]
  dsimp only
  rw [one.place, if_neg (BitVec.not_lt.mpr one.fits), walkChain, chainStep, nextEntry, if_pos last]

lemma chainSegments_append {l l'} (none : ∀ x ∈ l, segStarts blob x.2 = 0) :
    chainSegments env blob (l ++ l') st = chainSegments env blob l' st := by
  induction l with
  | nil => rfl
  | cons x l ih =>
    rw [List.cons_append, chainSegments, if_pos (none x List.mem_cons_self),
      ih fun y mem => none y (List.mem_cons_of_mem x mem)]

lemma chainSegments_single {before after} (others : ∀ j < (before ++ seg :: after).length,
      j ≠ before.length → segStarts blob j = 0) (starts : segStarts blob before.length ≠ 0)
    (format : ptrFormat blob (startsOffset blob + segStarts blob before.length) =
      DYLD_CHAINED_PTR_64_OFFSET) :
    chainSegments env blob (before ++ seg :: after).zipIdx st =
      (true, walkPages (chainEntry env blob) blob (startsOffset blob + segStarts blob before.length)
        seg.vmaddr seg.vmsize st) := by
  have length : (before ++ seg :: after).length = before.length + (after.length + 1) :=
    List.length_append
  have none : ∀ x ∈ before.zipIdx, segStarts blob x.2 = 0 := by
    intro x mem
    have lt := List.snd_lt_of_mem_zipIdx mem
    exact others _ (by omega) (by omega)
  have none' : ∀ x ∈ after.zipIdx (before.length + 1), segStarts blob x.2 = 0 := by
    intro x mem
    have le := List.le_snd_of_mem_zipIdx mem
    have lt := List.snd_lt_add_of_mem_zipIdx mem
    exact others _ (by omega) (by omega)
  have rest : ∀ st, chainSegments env blob (after.zipIdx (before.length + 1)) st = (true, st) := by
    intro st
    have all := @chainSegments_append env blob st _ [] none'
    rw [List.append_nil] at all
    rw [all, chainSegments]
  rw [List.zipIdx_append, chainSegments_append none, List.zipIdx_cons, Nat.zero_add, chainSegments, if_neg starts]
  dsimp only
  rw [if_neg (fun h => h.2 format), rest]

lemma OneBindChain.run (one : OneBindChain env blob mem slot ordinal name addend k p seg) :
    executeChainedFixups env blob mem =
      (true, (ChainState.start mem).fix DYLD_CHAINED_PTR_64_OFFSET (chainEntry env blob) slot) := by
  obtain ⟨lt, at_k⟩ := List.getElem?_eq_some_iff.mp one.segment
  obtain ⟨before, after, split, length⟩ : ∃ before after,
      env.segs.take (startsCount blob) = before ++ seg :: after ∧ before.length = k := by
    have shown : (env.segs.take (startsCount blob))[k]? = some seg := by
      rw [List.getElem?_take_of_lt one.counted, one.segment]
    obtain ⟨lt, at_k⟩ := List.getElem?_eq_some_iff.mp shown
    refine ⟨_, (env.segs.take (startsCount blob)).drop (k + 1), ?_, List.length_take_of_le lt.le⟩
    rw [← at_k, ← List.drop_eq_getElem_cons, List.take_append_drop]
  subst length
  have bound : (before ++ seg :: after).length ≤ startsCount blob := by
    rw [← split]
    exact List.length_take_le _ _
  have last : chainNext ((ChainState.start mem).mem.read64 slot) = 0 := one.entry.last
  have walked := @OneStart.walkPages blob slot _ p seg (.start mem) (chainEntry env blob) one.chain last
  rw [executeChainedFixups, if_neg (not_not.mpr one.version), split,
    chainSegments_single (fun j lt => one.others j (lt.trans_le bound)) one.starts one.format, walked,
    one.format]

def storeAll (mem : Mem) (writes : List (W64 × W64)) : Mem :=
  writes.foldl (fun mem w => mem.write64 w.1 w.2) mem

lemma wrapped_library {n : ℕ} (le : n ≤ 240) : (LibraryOrdinal.library n).wrapped = n := by
  have lt : n < 2 ^ 8 := by omega
  show (BitVec.ofInt 8 n).toNat = n
  rw [BitVec.ofInt_natCast, BitVec.toNat_ofNat, Nat.mod_eq_of_lt lt]

lemma BindsImport.library {value} {n : ℕ} (entry : BindsImport blob value (.library n) name addend)
    (pos : 1 ≤ n) (le : n ≤ 240) :
    (chainEntry env blob value).word = some (boundAddr env n name + addend.setWidth 64) := by
  have notFlat : isFlat n = false := by
    rw [isFlat, Bool.or_eq_false_iff, beq_eq_false_iff_ne, decide_eq_false_iff_not]
    omega
  have resolved : resolveImport env blob (bindOrdinal value) =
      env.resolve (n - 1) (stripUnderscore name) := by
    rw [resolveImport, entry.ordinal, wrapped_library le, notFlat, if_neg Bool.false_ne_true, entry.name]
  rw [chainEntry, if_pos entry.bind, if_neg (Nat.not_le.mpr entry.inRange), resolved, entry.addend, boundAddr]
  dsimp only
  split
  · rfl
  · rfl

lemma OneBindStream.accepted (one : OneBindStream env stream slot ordinal name addend)
    (loaded : 1 ≤ ordinal.value ∧ ordinal.value ≤ env.ndylibs) :
    (executeBinds env stream).1 = true ∧ (executeBinds env stream).2.writes =
      [(slot, boundAddr env ordinal.value (name.take 255) + addend.setWidth 64)] := by
  obtain ⟨b, bindings, ord, sym, add, pointer, place⟩ := one.one
  cases @executeBinds_reader env stream with
  | inl h =>
    obtain ⟨ok, tracks⟩ := h
    refine ⟨ok.trans one.reads, ?_⟩
    rw [tracks.writes, bindings, List.flatMap_singleton, Binding.writes, if_pos (.inr pointer),
      Binding.write, place, ord, sym, add]
    rfl
  | inr h =>
    obtain ⟨-, b', mem, refused⟩ := h
    rw [bindings] at mem
    cases List.mem_singleton.mp mem
    refine absurd ⟨ord ▸ loaded, fun _ => ?_⟩ refused
    obtain ⟨seg, at_seg, -⟩ := Option.map_eq_some_iff.mp place
    exact (List.getElem?_eq_some_iff.mp at_seg).1

lemma OneBindStream.refused (one : OneBindStream env stream slot ordinal name addend)
    (special : ¬ (1 ≤ ordinal.value ∧ ordinal.value ≤ env.ndylibs)) :
    (executeBinds env stream).1 = false := by
  obtain ⟨b, bindings, ord, -⟩ := one.one
  cases @executeBinds_reader env stream with
  | inl h =>
    have accepted := h.2.accepted b (bindings ▸ List.mem_singleton_self b)
    exact absurd (ord ▸ accepted.ordinal) special
  | inr h => exact h.1

lemma OneBindChain.bound {n : ℕ} (one : OneBindChain env blob mem slot (.library n) name addend k p seg) (pos : 1 ≤ n)
    (le : n ≤ 240) :
    (executeChainedFixups env blob mem).1 = true ∧
      (executeChainedFixups env blob mem).2.mem.read64 slot =
        boundAddr env n name + addend.setWidth 64 := by
  rw [one.run, ChainState.fix, ChainState.start]
  dsimp only
  rw [one.entry.library pos le, read64_replace]
  exact ⟨rfl, rfl⟩

/-- The formats bind alike exactly for a library named by its index, with a name that is not cut or has the same
    address when cut. -/
theorem import_formats_agree_iff (allowed : ordinal.Allowed env)
    (asStream : OneBindStream env stream slot ordinal name addend)
    (asChain : OneBindChain env blob mem slot ordinal name addend k p seg) :
    ((executeBinds env stream).1 = true ∧ (executeChainedFixups env blob mem).1 = true ∧
      (storeAll mem' (executeBinds env stream).2.writes).read64 slot =
        (executeChainedFixups env blob mem).2.mem.read64 slot) ↔
      ∃ n, ordinal = .library n ∧
        (name.length ≤ 255 ∨ boundAddr env n (name.take 255) = boundAddr env n name) := by
  cases ordinal with
  | library n =>
    obtain ⟨pos, loaded, le⟩ := allowed
    have inRange : (1 : ℤ) ≤ n ∧ (n : ℤ) ≤ env.ndylibs := by omega
    obtain ⟨ok, writes⟩ := asStream.accepted inRange
    obtain ⟨done, word⟩ := asChain.bound pos le
    have other : (storeAll mem' (executeBinds env stream).2.writes).read64 slot =
        boundAddr env n (name.take 255) + addend.setWidth 64 := by
      rw [writes, storeAll, List.foldl_cons, List.foldl_nil, Mem.read64_write64_self]
      rfl
    rw [and_iff_right ok, and_iff_right done, word, other, BitVec.add_left_inj]
    constructor
    · exact fun same => ⟨n, rfl, .inr same⟩
    · rintro ⟨_, ⟨⟩, short | same⟩
      · rw [List.take_of_length_le short]
      · exact same
  | self | mainExecutable | flatLookup | weakLookup =>
    refine iff_of_false (fun h => ?_) nofun
    rw [asStream.refused fun loaded => absurd loaded.1 (by decide)] at h
    cases h.1

end Formats

def oneStream (ordinalOp : UInt8) (name : Buf) : Buf :=
  [ordinalOp, 0x40] ++ name ++ [0x00, 0x51, 0x60, 0x07, 0x70, 0x00, 0x90, 0x00]

def boundEntry : Mem := oneEntry 0x8000000007000000

lemma oneStream_f : OneBindStream oneSegment (oneStream 0x11 (ascii "_f")) 0x10000 (.library 1) (ascii "_f") 7 :=
  ⟨by decide +kernel, _, rfl, rfl, rfl, by decide +kernel, rfl, rfl⟩

structure OnePageBlob (blob : Buf) : Prop where
  version : fixupsVersion blob = 0
  starts : startsCount blob = 1 ∧ startsOffset blob = 28 ∧ segStarts blob 0 = 8
  format : ptrFormat blob 36 = DYLD_CHAINED_PTR_64_OFFSET
  pages : pageCount blob 36 = 1 ∧ pageSize blob 36 = 0x1000 ∧ pageStart blob 36 0 = 0

lemma OnePageBlob.chain {env : BindEnv} {blob name : Buf} {ordinal : LibraryOrdinal}
    (header : OnePageBlob blob) (segs : env.segs = oneSegment.segs)
    (entry : BindsImport blob (boundEntry.read64 0x10000) ordinal name 7) :
    OneBindChain env blob boundEntry 0x10000 ordinal name 7 0 0
      ⟨0x10000, 0x1000, 3, 3, ascii "__DATA", false⟩ := by
  obtain ⟨version, ⟨count, offset, first⟩, format, pages, size, start⟩ := header
  have chain : OneStart blob 36 ⟨0x10000, 0x1000, 3, 3, ascii "__DATA", false⟩ 0 0x10000 := by
    refine ⟨by omega, by rw [start]; decide, fun j lt ne => by omega, ?_, ?_⟩
    · rw [pageBase, size, start]
      decide
    · rw [pageEnd, pageBase, size]
      decide
  refine ⟨version, by rw [segs]; rfl, by omega, by omega, fun j lt ne => by omega, ?_, ?_, entry⟩
  · rw [offset, first]
    exact format
  · rw [offset, first]
    exact chain

theorem import_formats_agree_iff_f :
    LibraryOrdinal.Allowed oneSegment (.library 1) ∧
      (executeBinds oneSegment (oneStream 0x11 (ascii "_f"))).1 = true ∧
      (executeChainedFixups oneSegment (oneChain 6) boundEntry).1 = true ∧
      (storeAll boundEntry (executeBinds oneSegment (oneStream 0x11 (ascii "_f"))).2.writes).read64
          0x10000 =
        (executeChainedFixups oneSegment (oneChain 6) boundEntry).2.mem.read64 0x10000 := by
  have allowed : LibraryOrdinal.Allowed oneSegment (.library 1) := by
    unfold LibraryOrdinal.Allowed
    decide
  have header : OnePageBlob (oneChain 6) := by constructor <;> decide +kernel
  have entry : BindsImport (oneChain 6) (boundEntry.read64 0x10000) (.library 1) (ascii "_f") 7 := by
    constructor <;> decide +kernel
  exact ⟨allowed, (import_formats_agree_iff allowed oneStream_f (header.chain rfl entry)).mpr
    ⟨1, rfl, .inl (by decide)⟩⟩

def longName : Buf := List.replicate 256 0x61

def knowsLong : BindEnv :=
  { oneSegment with resolve := fun _ name => if name = longName then 0x5000 else 0 }

/-- A flat lookup is refused in a stream and served in a chain; a long name is cut in a stream. -/
theorem import_formats_differ :
    (OneBindStream oneSegment (oneStream 0x3E (ascii "_f")) 0x10000 .flatLookup (ascii "_f") 7 ∧
      (∃ seg, OneBindChain oneSegment (chainBlob 6 0x2FE (ascii "_f")) boundEntry 0x10000 .flatLookup
        (ascii "_f") 7 0 0 seg) ∧
      (executeBinds oneSegment (oneStream 0x3E (ascii "_f"))).1 = false ∧
      (executeChainedFixups oneSegment (chainBlob 6 0x2FE (ascii "_f")) boundEntry).1 = true) ∧
    OneBindStream knowsLong (oneStream 0x11 longName) 0x10000 (.library 1) longName 7 ∧
      (∃ seg, OneBindChain knowsLong (chainBlob 6 0x201 longName) boundEntry 0x10000 (.library 1)
        longName 7 0 0 seg) ∧
      (executeBinds knowsLong (oneStream 0x11 longName)).2.writes = [(0x10000, 0x2007)] ∧
      (executeChainedFixups knowsLong (chainBlob 6 0x201 longName) boundEntry).2.mem.read64 0x10000 =
        0x5007 := by
  have flat : OnePageBlob (chainBlob 6 0x2FE (ascii "_f")) := by constructor <;> decide +kernel
  have long : OnePageBlob (chainBlob 6 0x201 longName) := by constructor <;> decide +kernel
  refine ⟨⟨⟨by decide +kernel, _, rfl, rfl, rfl, by decide +kernel, rfl, rfl⟩,
      ⟨_, flat.chain rfl (by constructor <;> decide +kernel)⟩, by decide +kernel, by decide +kernel⟩,
    ⟨by decide +kernel, ?_⟩, ⟨_, long.chain rfl (by constructor <;> decide +kernel)⟩, by decide +kernel,
    by decide +kernel⟩
  exact ⟨⟨1, longName, 7, 1, 0, 0, false⟩, by decide +kernel⟩

end Macify.Fixups
