import Macify.Fixups.BindRequests

/-!
# Agreement of the two bind interpreters

`execute_binds` and `process_dylib_binds` on one stream, each against the requests of the stream: the first stores a
word for every pointer requested (`executeBinds_writes`), the second for those before the first `DONE` that can be
resolved, or are plain `DO_BIND` requests (`processDylibBinds_writes`). Main result: `bind_interpreters_agree_iff`.
-/

namespace Macify.Fixups
open Lib Image

def Request.mainWrite (env : BindEnv) (x : Request) : W64 × W64 :=
  ((slotAddr env.segs x.segIndex x.segOffset).getD x.segOffset,
    (if env.resolve 0 x.symbol = 0 then env.stub else env.resolve 0 x.symbol) + x.addend)

/-- What the main interpreter stores for a request. The counted opcode does not look at the type. -/
def Request.mainWrites (env : BindEnv) (x : Request) : List (W64 × W64) :=
  if x.form = .doBindUlebTimesSkippingUleb ∨ x.type = BIND_TYPE_POINTER then [x.mainWrite env] else []

structure MainFollows (env : BindEnv) (st : BindState) (q : RequestState) : Prop where
  symbolName : q.symbolName = st.symbolName
  type : q.type = st.type
  addend : q.addend = st.addend
  segOffset : q.segOffset = st.segOffset
  segIndex : q.segIndex = st.segIndex
  writes : st.writes = q.requests.flatMap (Request.mainWrites env)
  inRange : ∀ x ∈ q.requests, x.form ≠ .doBindUlebTimesSkippingUleb → x.segIndex < env.segs.length

section Main

variable {env : BindEnv} {st : BindState} {q : RequestState} {form : BindOpcode} {n : W64}

lemma MainFollows.mainWrite (any : ∀ i j name, env.resolve i name = env.resolve j name) (t : MainFollows env st q) :
    (q.slot form).mainWrite env = (bindTarget env st, bindValue env st) := by
  have found : env.resolve 0 (stripUnderscore q.symbolName) = lookup env st := by
    rw [lookup, t.symbolName]
    exact any _ _ _
  unfold Request.mainWrite bindTarget bindValue
  simp only [RequestState.slot, found, t.segIndex, t.segOffset, t.addend]

lemma MainFollows.bind (t : MainFollows env st q) (form : BindOpcode) (n : W64) (l : List Buf)
    (inRange : form ≠ .doBindUlebTimesSkippingUleb → st.segIndex < env.segs.length) :
    MainFollows env
      (BindState.advance
        { st with noted := l, writes := st.writes ++ (q.slot form).mainWrites env } (8 + n))
      (q.bind form n) := by
  refine ⟨t.symbolName, t.type, t.addend, ?_, t.segIndex, ?_, fun x mem => ?_⟩
  · exact congrArg (· + (8 + n)) t.segOffset
  · show st.writes ++ _ = (q.requests ++ [q.slot form]).flatMap _
    rw [List.flatMap_append, ← t.writes, List.flatMap_singleton]
  · cases List.mem_append.mp mem with
    | inl mem => exact t.inRange x mem
    | inr mem =>
      cases List.mem_singleton.mp mem
      intro ne
      show q.segIndex < env.segs.length
      rw [t.segIndex]
      exact inRange ne

lemma noteUnresolved_eq : ∃ l, noteUnresolved env st = { st with noted := l } := by
  unfold noteUnresolved
  split
  · exact ⟨_, rfl⟩
  · exact ⟨st.noted, rfl⟩

variable (any : ∀ i j name, env.resolve i name = env.resolve j name)
include any

lemma MainFollows.bindOne (t : MainFollows env st q) {rest} (single : form ≠ .doBindUlebTimesSkippingUleb) :
    Matches (fun _ => True) (MainFollows env) (fun _ _ => False)
      (fun st r => r.1 = true ∧ MainFollows env st r.2)
      (Fixups.bindOne env n rest st) (.more rest (q.bind form n)) := by
  unfold Fixups.bindOne
  split
  · exact .failed
  obtain ⟨l, noted⟩ := @noteUnresolved_eq env st
  simp only [noted]
  split
  · exact .failed
  · next inRange =>
    apply Matches.both
    have next := t.bind form n l fun _ => Nat.lt_of_not_le inRange
    by_cases pointer : st.type = BIND_TYPE_POINTER
    · rw [if_pos pointer]
      rw [Request.mainWrites, if_pos (.inr (t.type.trans pointer)), t.mainWrite any] at next
      exact next
    · rw [if_neg pointer]
      rw [Request.mainWrites, if_neg, List.append_nil] at next
      · exact next
      · exact not_or.mpr ⟨single, fun e => pointer (t.type.symm.trans e)⟩

lemma MainFollows.bindTimes (t : MainFollows env st q) {skip count st'}
    (run : Fixups.bindTimes env skip count st = (true, st')) :
    MainFollows env st' (q.bindTimes skip count) := by
  induction count generalizing st q with
  | zero =>
    cases run
    exact t
  | succ count ih =>
    rw [Fixups.bindTimes] at run
    split at run
    · cases run
    · have next := t.bind .doBindUlebTimesSkippingUleb skip st.noted fun ne => absurd rfl ne
      rw [Request.mainWrites, if_pos (.inl rfl), t.mainWrite any] at next
      exact ih next run

lemma MainFollows.step (t : MainFollows env st q) (b : UInt8) (rest : Buf) :
    Matches (fun _ => True) (MainFollows env) (fun _ _ => False)
      (fun st r => r.1 = true ∧ MainFollows env st r.2)
      (bindStep env st b rest) (requestStep q b rest) := by
  unfold bindStep requestStep
  cases BindOpcode.ofByte b with
  | none => exact .failed
  | some op =>
    cases op with
    | done =>
      dsimp only
      split
      · exact .done ⟨rfl, t⟩
      · exact .both ⟨rfl, t.type, t.addend, rfl, rfl, t.writes, t.inRange⟩
    | setSymbolTrailingFlagsImm =>
      dsimp only
      split
      · exact .failed
      · exact .both ⟨rfl, t.type, t.addend, t.segOffset, t.segIndex, t.writes, t.inRange⟩
    | setDylibOrdinalImm | setDylibOrdinalUleb | setDylibSpecialImm =>
      exact .both ⟨t.symbolName, t.type, t.addend, t.segOffset, t.segIndex, t.writes, t.inRange⟩
    | setTypeImm =>
      exact .both ⟨t.symbolName, rfl, t.addend, t.segOffset, t.segIndex, t.writes, t.inRange⟩
    | setAddendSleb =>
      exact .both ⟨t.symbolName, t.type, rfl, t.segOffset, t.segIndex, t.writes, t.inRange⟩
    | setSegmentRelativeOffsetUleb =>
      exact .both ⟨t.symbolName, t.type, t.addend, rfl, rfl, t.writes, t.inRange⟩
    | addAddrUleb =>
      exact .both ⟨t.symbolName, t.type, t.addend, congrArg (· + _) t.segOffset, t.segIndex, t.writes,
        t.inRange⟩
    | doBind | doBindAddAddrUleb | doBindAddAddrImmScaled => exact t.bindOne any nofun
    | doBindUlebTimesSkippingUleb =>
      dsimp only
      split
      · next run => exact .both (t.bindTimes any run)
      · exact .failed

lemma executeBinds_writes {stream} (run : executeBinds env stream = (true, st)) :
    (readRequests stream).1 = true ∧ MainFollows env st (readRequests stream).2 := by
  refine interpret_simulation (fun _ => True) (MainFollows env) (fun _ _ => False)
    (fun st r => r.1 = true ∧ MainFollows env st r.2) (fun st q b rest t => t.step any b rest)
    (fun _ _ _ _ => trivial) (fun _ _ _ _ => id) (fun _ _ t => ⟨rfl, t⟩) (fun _ _ _ => nofun) ?_ run
    trivial
  exact ⟨rfl, rfl, rfl, rfl, rfl, rfl, fun _ mem => absurd mem List.not_mem_nil⟩

end Main

/-- Nothing after a `DONE` or outside the segments; for a symbol that is not found the bare stub of a `DO_BIND`. -/
def Request.dylibWrites (env : DylibBindEnv) (x : Request) : List (W64 × W64) :=
  if x.afterDone then []
  else
    match dylibSlotAddr env.segs env.slide x.segIndex x.segOffset with
    | none => []
    | some target =>
      if env.resolve (-1) x.symbol = 0 then
        if x.form = .doBind then [(target, env.stub)] else []
      else [(target, env.resolve (-1) x.symbol + x.addend)]

/-- The dylib interpreter keeps in step: no name is cut, and the segments were set and, for one slot, exist. -/
structure Readable (env : DylibBindEnv) (q : RequestState) : Prop where
  uncut : q.nameCut = false
  segments : ∀ x ∈ q.requests, x.segmentSet = true ∧
    (x.form ≠ .doBindUlebTimesSkippingUleb → x.segIndex < env.segs.length)

structure DylibFollows (env : DylibBindEnv) (q : RequestState) (d : DylibBindState) : Prop where
  running : q.afterDone = false
  symName : d.symName = q.symbolName
  addend : d.addend = q.addend
  segOffset : d.segOffset = q.segOffset
  segIndex : d.segIndex = if q.segmentSet then some q.segIndex else none
  writes : d.writes = q.requests.flatMap (Request.dylibWrites env)

structure DylibStopped (env : DylibBindEnv) (q : RequestState) (d : DylibBindState) : Prop where
  stopped : q.afterDone = true
  writes : d.writes = q.requests.flatMap (Request.dylibWrites env)

section Dylib

variable {env : DylibBindEnv} {q q' : RequestState} {d : DylibBindState} {form : BindOpcode}
  {n a : W64}

lemma Readable.of_follows (readable : Readable env q') (follows : Follows q q') : Readable env q := by
  obtain ⟨new, e, _⟩ := follows.requests
  refine ⟨?_, fun x mem => readable.segments x (e ▸ List.mem_append_left new mem)⟩
  exact Bool.eq_false_of_not_eq_true fun cut =>
    Bool.false_ne_true (readable.uncut.symm.trans (follows.nameCut cut))

lemma Readable.last (readable : Readable env (q.bind form n)) :
    q.segmentSet = true ∧ (form ≠ .doBindUlebTimesSkippingUleb → q.segIndex < env.segs.length) :=
  readable.segments (q.slot form) (List.mem_append_right _ List.mem_cons_self)

lemma DylibFollows.target (t : DylibFollows env q d) (set : q.segmentSet = true) :
    dylibTarget env d = dylibSlotAddr env.segs env.slide q.segIndex q.segOffset := by
  rw [dylibTarget, t.segIndex, if_pos set, t.segOffset]
  rfl

lemma exists_target {k : ℕ} (off : W64) (lt : k < env.segs.length) :
    ∃ a, dylibSlotAddr env.segs env.slide k off = some a := by
  rw [dylibSlotAddr, List.getElem?_eq_getElem lt]
  exact ⟨_, rfl⟩

lemma DylibFollows.bind (t : DylibFollows env q d) (form : BindOpcode) (n : W64) :
    DylibFollows env (q.bind form n)
      (DylibBindState.advance { d with writes := d.writes ++ (q.slot form).dylibWrites env } (8 + n)) := by
  refine ⟨t.running, t.symName, t.addend, congrArg (· + (8 + n)) t.segOffset, t.segIndex, ?_⟩
  show d.writes ++ _ = (q.requests ++ [q.slot form]).flatMap _
  rw [List.flatMap_append, ← t.writes, List.flatMap_singleton]

lemma DylibFollows.dylibWrites (t : DylibFollows env q d)
    (addr : dylibSlotAddr env.segs env.slide q.segIndex q.segOffset = some a) :
    (q.slot form).dylibWrites env =
      if dylibLookup env d = 0 then if form = .doBind then [(a, env.stub)] else []
      else [(a, dylibLookup env d + d.addend)] := by
  have found : env.resolve (-1) (stripUnderscore q.symbolName) = dylibLookup env d := by
    rw [dylibLookup, t.symName]
  unfold Request.dylibWrites
  simp only [RequestState.slot, t.running, addr, found, t.addend, Bool.false_eq_true, if_false]

lemma DylibFollows.storeOrStub (t : DylibFollows env q d)
    (addr : dylibSlotAddr env.segs env.slide q.segIndex q.segOffset = some a) :
    Fixups.storeOrStub env a d =
      { d with writes := d.writes ++ (q.slot .doBind).dylibWrites env } := by
  rw [t.dylibWrites addr, if_pos rfl]
  unfold Fixups.storeOrStub
  dsimp only
  split <;> rfl

lemma DylibFollows.storeFound (t : DylibFollows env q d) (other : form ≠ .doBind)
    (addr : dylibSlotAddr env.segs env.slide q.segIndex q.segOffset = some a) :
    Fixups.storeFound env a d =
      { d with writes := d.writes ++ (q.slot form).dylibWrites env } := by
  rw [t.dylibWrites addr, if_neg other]
  unfold Fixups.storeFound
  dsimp only
  split
  · rw [List.append_nil]
  · rfl

lemma DylibFollows.bindTimes (t : DylibFollows env q d) {skip count}
    (readable : Readable env (q.bindTimes skip count)) :
    DylibFollows env (q.bindTimes skip count) (dylibBindTimes env skip count d) := by
  induction count generalizing q d with
  | zero => exact t
  | succ count ih =>
    have set := (readable.of_follows (follows_bindTimes _ skip count)).last.1
    have next := t.bind .doBindUlebTimesSkippingUleb skip
    rw [dylibBindTimes, t.target set]
    cases addr : dylibSlotAddr env.segs env.slide q.segIndex q.segOffset with
    | none =>
      -- the counted opcode moves on over slots outside the segments
      have silent : (q.slot .doBindUlebTimesSkippingUleb).dylibWrites env = [] := by
        unfold Request.dylibWrites
        simp only [RequestState.slot, addr, ite_self]
      rw [silent, List.append_nil, BitVec.add_comm] at next
      exact ih next readable
    | some a =>
      have other : BindOpcode.doBindUlebTimesSkippingUleb ≠ .doBind := nofun
      rw [← t.storeFound other addr, BitVec.add_comm] at next
      exact ih next readable

lemma DylibFollows.addr (t : DylibFollows env q d) (readable : Readable env (q.bind form n))
    (single : form ≠ .doBindUlebTimesSkippingUleb) :
    ∃ a, dylibTarget env d = some a ∧
      dylibSlotAddr env.segs env.slide q.segIndex q.segOffset = some a := by
  obtain ⟨set, inRange⟩ := readable.last
  obtain ⟨a, addr⟩ := exists_target q.segOffset (inRange single)
  exact ⟨a, (t.target set).trans addr, addr⟩

lemma DylibFollows.step (t : DylibFollows env q d) (b : UInt8) (rest : Buf) :
    Matches (Readable env) (DylibFollows env) (DylibStopped env)
      (fun q r => r.2.writes = q.requests.flatMap (Request.dylibWrites env))
      (requestStep q b rest) (dylibBindStep env d b rest) := by
  unfold requestStep dylibBindStep
  cases BindOpcode.ofByte b with
  | none => exact .failed
  | some op =>
    cases op with
    | done =>
      dsimp only
      split
      · exact .done t.writes
      · exact .alone ⟨rfl, t.writes⟩
    | setSymbolTrailingFlagsImm =>
      dsimp only
      split
      · exact .failed
      -- with a long name the dylib interpreter goes on inside the name
      by_cases long : 255 < (cString rest).length
      · exact .lost fun readable => by simpa [t.running, long] using readable.uncut
      · rw [List.take_of_length_le (Nat.le_of_not_lt long)]
        exact .both ⟨t.running, rfl, t.addend, t.segOffset, t.segIndex, t.writes⟩
    | setDylibOrdinalImm | setDylibOrdinalUleb | setDylibSpecialImm => exact .both t
    | setTypeImm =>
      exact .both ⟨t.running, t.symName, t.addend, t.segOffset, t.segIndex, t.writes⟩
    | setAddendSleb => exact .both ⟨t.running, t.symName, rfl, t.segOffset, t.segIndex, t.writes⟩
    | setSegmentRelativeOffsetUleb =>
      exact .both ⟨t.running, t.symName, t.addend, rfl, rfl, t.writes⟩
    | addAddrUleb =>
      exact .both ⟨t.running, t.symName, t.addend, congrArg (· + _) t.segOffset, t.segIndex, t.writes⟩
    | doBind =>
      by_cases readable : Readable env (q.bind .doBind 0)
      · obtain ⟨a, target, addr⟩ := t.addr readable nofun
        simp only [target, t.storeOrStub addr]
        exact .both (t.bind .doBind 0)
      · exact .lost readable
    | doBindAddAddrUleb =>
      by_cases readable : Readable env (q.bind .doBindAddAddrUleb (readUleb128 rest).1)
      · obtain ⟨a, target, addr⟩ := t.addr readable nofun
        have other : BindOpcode.doBindAddAddrUleb ≠ .doBind := nofun
        simp only [target, t.storeFound other addr]
        exact .both (t.bind .doBindAddAddrUleb _)
      · exact .lost readable
    | doBindAddAddrImmScaled =>
      by_cases readable :
          Readable env (q.bind .doBindAddAddrImmScaled (BitVec.ofNat 64 (immOf b * 8)))
      · obtain ⟨a, target, addr⟩ := t.addr readable nofun
        have other : BindOpcode.doBindAddAddrImmScaled ≠ .doBind := nofun
        have next := t.bind .doBindAddAddrImmScaled (BitVec.ofNat 64 (immOf b * 8))
        rw [BitVec.add_comm] at next
        simp only [target, t.storeFound other addr]
        exact .both next
      · exact .lost readable
    | doBindUlebTimesSkippingUleb =>
      dsimp only
      by_cases readable : Readable env
          (q.bindTimes (readUleb128 (readUleb128 rest).2).1 (readUleb128 rest).1.toNat)
      · exact .both (t.bindTimes readable)
      · exact .lost readable

lemma DylibStopped.follows (t : DylibStopped env q d) (follows : Follows q q') : DylibStopped env q' d := by
  obtain ⟨new, e, after⟩ := follows.requests
  refine ⟨follows.afterDone t.stopped, ?_⟩
  have silent : new.flatMap (Request.dylibWrites env) = [] := by
    rw [List.flatMap_eq_nil_iff]
    intro x mem
    rw [Request.dylibWrites, if_pos (after t.stopped x mem)]
  rw [e, List.flatMap_append, silent, List.append_nil]
  exact t.writes

lemma processDylibBinds_writes {stream} (ends : (readRequests stream).1 = true)
    (readable : Readable env (readRequests stream).2) :
    (processDylibBinds env stream).writes = (requests stream).flatMap (Request.dylibWrites env) := by
  have run : interpret requestStep stream .start = (true, (readRequests stream).2) :=
    Prod.ext ends rfl
  refine interpret_simulation (Readable env) (DylibFollows env) (DylibStopped env)
    (fun q r => r.2.writes = q.requests.flatMap (Request.dylibWrites env))
    (fun q d b rest t => t.step b rest) ?_ ?_ (fun _ _ t => t.writes) (fun _ _ _ t => t.writes)
    (t := DylibBindState.start) ?_ run readable
  · exact fun q b rest readable => readable.of_follows (requestStep_follows q b rest)
  · exact fun q d b rest t => t.follows (requestStep_follows q b rest)
  · exact ⟨rfl, rfl, rfl, rfl, rfl, rfl⟩

end Dylib

/-- The segments are the same, slid for the main image, and the library makes no difference to the resolver. -/
structure SameImage (env : BindEnv) (denv : DylibBindEnv) : Prop where
  length : env.segs.length = denv.segs.length
  vmaddr : ∀ (k : ℕ) (e : LoadedSegment) (d : DylibSegment), env.segs[k]? = some e →
    denv.segs[k]? = some d → e.vmaddr = d.vmaddr + denv.slide
  resolve : ∀ i j name, env.resolve i name = denv.resolve j name
  stub : env.stub = denv.stub

section Agreement

variable {env : BindEnv} {denv : DylibBindEnv} {x : Request}

lemma SameImage.any (same : SameImage env denv) (i j : ℤ) (name : Buf) :
    env.resolve i name = env.resolve j name :=
  (same.resolve i 0 name).trans (same.resolve j 0 name).symm

lemma SameImage.slotAddr_eq (same : SameImage env denv) {k off} :
    slotAddr env.segs k off = dylibSlotAddr denv.segs denv.slide k off := by
  unfold slotAddr dylibSlotAddr
  by_cases lt : k < env.segs.length
  · have lt' : k < denv.segs.length := same.length ▸ lt
    rw [List.getElem?_eq_getElem lt, List.getElem?_eq_getElem lt', Option.map_some, Option.map_some,
      same.vmaddr k _ _ (List.getElem?_eq_getElem lt) (List.getElem?_eq_getElem lt'),
      BitVec.add_assoc, BitVec.add_comm denv.slide, ← BitVec.add_assoc]
  · have ge := Nat.le_of_not_lt lt
    rw [List.getElem?_eq_none ge, List.getElem?_eq_none (same.length ▸ ge)]
    rfl

lemma flatMap_eq_map_iff {α β : Type*} {f : α → List β} {g : α → β} {l : List α}
    (short : ∀ a, (f a).length ≤ 1) : l.flatMap f = l.map g ↔ ∀ a ∈ l, f a = [g a] := by
  have bound : ∀ l : List α, (l.flatMap f).length ≤ l.length := by
    intro l
    induction l with
    | nil => exact le_rfl
    | cons a l ih =>
      rw [List.flatMap_cons, List.length_append, List.length_cons]
      exact Nat.add_comm _ 1 ▸ Nat.add_le_add (short a) ih
  induction l with
  | nil => simp
  | cons a l ih =>
    rw [List.flatMap_cons, List.map_cons, List.forall_mem_cons]
    match e : f a with
    | [] =>
      refine iff_of_false (fun h => ?_) (fun h => nomatch h.1)
      have le := bound l
      rw [List.nil_append] at h
      rw [h, List.length_cons, List.length_map] at le
      exact absurd le (by omega)
    | [b] =>
      rw [List.singleton_append, List.cons.injEq, List.cons.injEq]
      exact ⟨fun h => ⟨⟨h.1, rfl⟩, ih.mp h.2⟩, fun h => ⟨h.1.1, ih.mpr h.2⟩⟩
    | b :: c :: rest =>
      have le := short a
      rw [e] at le
      exact absurd le (by simp)

lemma dylibWrites_length : (x.dylibWrites denv).length ≤ 1 := by
  unfold Request.dylibWrites
  split
  · exact Nat.zero_le 1
  split
  · exact Nat.zero_le 1
  split
  · split
    · exact le_rfl
    · exact Nat.zero_le 1
  · exact le_rfl

lemma dylibWrites_eq_iff (same : SameImage env denv) :
    x.dylibWrites denv = [x.mainWrite env] ↔
      x.afterDone = false ∧ x.segIndex < env.segs.length ∧
        (env.resolve 0 x.symbol = 0 → x.form = .doBind ∧ x.addend = 0) := by
  unfold Request.dylibWrites Request.mainWrite
  rw [same.slotAddr_eq, same.resolve 0 (-1), same.stub, same.length]
  cases x.afterDone with
  | true => simp
  | false =>
    by_cases inRange : x.segIndex < denv.segs.length
    · obtain ⟨a, addr⟩ := exists_target x.segOffset inRange
      rw [addr]
      by_cases lost : denv.resolve (-1) x.symbol = 0
      · by_cases plain : x.form = .doBind
        · simp [lost, plain, inRange]
        · simp [lost, plain]
      · simp only [Bool.false_eq_true, if_false, Option.getD_some, if_neg lost]
        exact iff_of_true trivial ⟨trivial, inRange, fun h => absurd h lost⟩
    · rw [dylibSlotAddr, List.getElem?_eq_none (Nat.le_of_not_lt inRange)]
      simp [inRange]

/-- On streams that `execute_binds` accepts, with pointer requests in segments that were set and names that fit,
    the interpreters store the same exactly when every request comes before the first `DONE`, lies in a segment,
    and is found or a `DO_BIND` with addend zero. -/
theorem bind_interpreters_agree_iff (same : SameImage env denv) {stream : Buf}
    (returns : (executeBinds env stream).1 = true)
    (pointers : ∀ x ∈ requests stream, x.type = BIND_TYPE_POINTER ∧ x.segmentSet = true)
    (fit : NamesFit stream) :
    (processDylibBinds denv stream).writes = (executeBinds env stream).2.writes ↔
      ∀ x ∈ requests stream, x.afterDone = false ∧ x.segIndex < env.segs.length ∧
        (env.resolve 0 x.symbol = 0 → x.form = .doBind ∧ x.addend = 0) := by
  have run : executeBinds env stream = (true, (executeBinds env stream).2) := Prod.ext returns rfl
  obtain ⟨ends, main⟩ := executeBinds_writes same.any run
  have readable : Readable denv (readRequests stream).2 :=
    ⟨fit, fun x mem => ⟨(pointers x mem).2, fun single => same.length ▸ main.inRange x mem single⟩⟩
  have all : (requests stream).flatMap (Request.mainWrites env) =
      (requests stream).map (Request.mainWrite env) := by
    rw [List.map_eq_flatMap]
    refine List.flatMap_congr fun x mem => ?_
    rw [Request.mainWrites, if_pos (.inr (pointers x mem).1)]
  rw [processDylibBinds_writes ends readable, main.writes]
  show _ = (requests stream).flatMap _ ↔ _
  rw [all, flatMap_eq_map_iff fun _ => dylibWrites_length]
  exact forall₂_congr fun x _ => dylibWrites_eq_iff same

end Agreement

def knowsF (_ : ℤ) (name : Buf) : W64 := if name = ascii "f" then 0x1000 else 0

def tinyEnv : BindEnv :=
  ⟨[⟨0x10000, 0x1000, 3, 3, ascii "__DATA", false⟩], 1, knowsF, 0x2000⟩

def tinyDylibEnv : DylibBindEnv := ⟨[⟨0, 0x1000, 0, 0⟩], 0x10000, knowsF, 0x2000⟩

lemma tiny_same : SameImage tinyEnv tinyDylibEnv := by
  refine ⟨rfl, fun k e d at_e at_d => ?_, fun _ _ _ => rfl, rfl⟩
  cases k with
  | zero =>
    cases at_e
    cases at_d
    rfl
  | succ k => cases at_e

def bindStream (name : Buf) (off op : UInt8) : Buf :=
  [0x11, 0x70, off, 0x40] ++ name ++ [0x00, op, 0x00]

theorem bind_interpreters_agree_iff_f :
    (executeBinds tinyEnv (bindStream (ascii "_f") 0 0x90)).2.writes = [(0x10000, 0x1000)] ∧
      ((processDylibBinds tinyDylibEnv (bindStream (ascii "_f") 0 0x90)).writes =
          (executeBinds tinyEnv (bindStream (ascii "_f") 0 0x90)).2.writes ↔
        ∀ x ∈ requests (bindStream (ascii "_f") 0 0x90), x.afterDone = false ∧
          x.segIndex < tinyEnv.segs.length ∧
          (tinyEnv.resolve 0 x.symbol = 0 → x.form = .doBind ∧ x.addend = 0)) :=
  ⟨by decide +kernel,
    bind_interpreters_agree_iff tiny_same (by decide +kernel) (by decide +kernel)
      (by unfold NamesFit; decide +kernel)⟩

def lazyStream : Buf := bindStream (ascii "_f") 0 0x90 ++ bindStream (ascii "_f") 8 0x90

def addendStream : Buf := [0x60, 0x08] ++ bindStream (ascii "_g") 0 0x90

def scaledStream : Buf := bindStream (ascii "_g") 0 0xB0

def longStream : Buf := bindStream (List.replicate 256 0x61) 0 0x90

/-- Streams on which `execute_binds` returns zero and the writes differ. -/
theorem bind_interpreters_differ :
    ((executeBinds tinyEnv lazyStream).1 = true ∧
      (executeBinds tinyEnv lazyStream).2.writes = [(0x10000, 0x1000), (0x10008, 0x1000)] ∧
      (processDylibBinds tinyDylibEnv lazyStream).writes = [(0x10000, 0x1000)]) ∧
    ((executeBinds tinyEnv addendStream).1 = true ∧
      (executeBinds tinyEnv addendStream).2.writes = [(0x10000, 0x2008)] ∧
      (processDylibBinds tinyDylibEnv addendStream).writes = [(0x10000, 0x2000)]) ∧
    ((executeBinds tinyEnv scaledStream).1 = true ∧
      (executeBinds tinyEnv scaledStream).2.writes = [(0x10000, 0x2000)] ∧
      (processDylibBinds tinyDylibEnv scaledStream).writes = []) ∧
    (executeBinds tinyEnv longStream).1 = true ∧
      (executeBinds tinyEnv longStream).2.writes = [(0x10000, 0x2000)] ∧
      (processDylibBinds tinyDylibEnv longStream).writes = [] := by
  decide +kernel

end Macify.Fixups
