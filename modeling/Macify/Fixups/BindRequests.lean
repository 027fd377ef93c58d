import Macify.Fixups.Binds

/-!
# Bind requests

What a bind opcode stream asks for, apart from any image. `requests stream` lists the slots that the
stream asks to be bound, in order, each with the symbol, the addend, the type and the place at that time.
Two facts about the past are kept with a request: whether a segment had been set, and whether a `DONE`
had been passed.
-/

namespace Macify.Fixups
open Lib Image

structure Request where
  form : BindOpcode
  symbol : Buf
  addend : W64
  type : ℕ
  segIndex : ℕ
  segOffset : W64
  segmentSet : Bool
  afterDone : Bool
  deriving DecidableEq

/-- `nameCut` tells whether a name of more than 255 bytes was read before the first `DONE`. -/
structure RequestState where
  symbolName : Buf
  type : ℕ
  addend : W64
  segOffset : W64
  segIndex : ℕ
  segmentSet : Bool
  afterDone : Bool
  nameCut : Bool
  requests : List Request
  deriving DecidableEq

namespace RequestState

def start : RequestState := ⟨[], BIND_TYPE_POINTER, 0, 0, 0, false, false, false, []⟩

def slot (q : RequestState) (form : BindOpcode) : Request :=
  ⟨form, stripUnderscore q.symbolName, q.addend, q.type, q.segIndex, q.segOffset, q.segmentSet,
    q.afterDone⟩

def advance (q : RequestState) (n : W64) : RequestState :=
  { q with segOffset := q.segOffset + n }

def bind (q : RequestState) (form : BindOpcode) (n : W64) : RequestState :=
  { q with requests := q.requests ++ [q.slot form] }.advance (8 + n)

def bindTimes (skip : W64) : ℕ → RequestState → RequestState
  | 0, q => q
  | n + 1, q => bindTimes skip n (q.bind .doBindUlebTimesSkippingUleb skip)

end RequestState

def requestStep (q : RequestState) (b : UInt8) (rest : Buf) : Step RequestState :=
  let imm := immOf b
  match BindOpcode.ofByte b with
  | none => .stop false q
  | some .done =>
    if rest = [] then .stop true q
    else .more rest { q with symbolName := [], segOffset := 0, segIndex := 0, afterDone := true }
  | some .setDylibOrdinalImm => .more rest q
  | some .setDylibOrdinalUleb => .more (readUleb128 rest).2 q
  | some .setDylibSpecialImm => .more rest q
  | some .setSymbolTrailingFlagsImm =>
    let name := cString rest
    if rest.length ≤ name.length then .stop false q
    else
      .more (rest.drop (name.length + 1)) { q with
        symbolName := name.take 255
        nameCut := q.nameCut || (!q.afterDone && decide (255 < name.length)) }
  | some .setTypeImm => .more rest { q with type := imm }
  | some .setAddendSleb =>
    let (v, rest) := readSleb128 rest
    .more rest { q with addend := v }
  | some .setSegmentRelativeOffsetUleb =>
    let (v, rest) := readUleb128 rest
    .more rest { q with segIndex := imm, segOffset := v, segmentSet := true }
  | some .addAddrUleb =>
    let (v, rest) := readUleb128 rest
    .more rest (q.advance v)
  | some .doBind => .more rest (q.bind .doBind 0)
  | some .doBindAddAddrUleb =>
    let (v, rest) := readUleb128 rest
    .more rest (q.bind .doBindAddAddrUleb v)
  | some .doBindAddAddrImmScaled =>
    .more rest (q.bind .doBindAddAddrImmScaled (BitVec.ofNat 64 (imm * 8)))
  | some .doBindUlebTimesSkippingUleb =>
    let (count, rest) := readUleb128 rest
    let (skip, rest) := readUleb128 rest
    .more rest (q.bindTimes skip count.toNat)

def readRequests (stream : Buf) : Bool × RequestState := interpret requestStep stream .start

def requests (stream : Buf) : List Request := (readRequests stream).2.requests

def NamesFit (stream : Buf) : Prop := (readRequests stream).2.nameCut = false

/-- Requests are added, after a `DONE` only such as are marked so, and a cut name stays noted. -/
structure Follows (q q' : RequestState) : Prop where
  requests : ∃ new, q'.requests = q.requests ++ new ∧ (q.afterDone = true → ∀ x ∈ new, x.afterDone = true)
  afterDone : q.afterDone = true → q'.afterDone = true
  nameCut : q.nameCut = true → q'.nameCut = true

section Follows

variable {q q₁ q' : RequestState}

lemma Follows.of_same (requests : q'.requests = q.requests) (afterDone : q.afterDone = true → q'.afterDone = true)
    (nameCut : q.nameCut = true → q'.nameCut = true) : Follows q q' :=
  ⟨⟨[], by rw [requests, List.append_nil], fun _ _ mem => absurd mem List.not_mem_nil⟩, afterDone,
    nameCut⟩

lemma Follows.refl (q : RequestState) : Follows q q := .of_same rfl id id

lemma Follows.trans (fst : Follows q q₁) (snd : Follows q₁ q') : Follows q q' := by
  obtain ⟨new₁, e₁, after₁⟩ := fst.requests
  obtain ⟨new₂, e₂, after₂⟩ := snd.requests
  refine ⟨⟨new₁ ++ new₂, by rw [e₂, e₁, List.append_assoc], fun after x mem => ?_⟩,
    fun h => snd.afterDone (fst.afterDone h), fun h => snd.nameCut (fst.nameCut h)⟩
  cases List.mem_append.mp mem with
  | inl mem => exact after₁ after x mem
  | inr mem => exact after₂ (fst.afterDone after) x mem

lemma follows_bind (q : RequestState) (form n) : Follows q (q.bind form n) :=
  ⟨⟨[q.slot form], rfl, fun after _ mem => List.mem_singleton.mp mem ▸ after⟩, id, id⟩

lemma follows_bindTimes (q : RequestState) (skip n) : Follows q (q.bindTimes skip n) := by
  induction n generalizing q with
  | zero => exact .refl q
  | succ n ih => exact (follows_bind q _ skip).trans (ih _)

lemma requestStep_follows (q : RequestState) (b : UInt8) (rest : Buf) :
    Follows q (requestStep q b rest).state := by
  unfold requestStep
  cases BindOpcode.ofByte b with
  | none => exact .refl q
  | some op =>
    cases op with
    | done =>
      dsimp only
      split
      · exact .refl q
      · exact .of_same rfl (fun _ => rfl) id
    | setSymbolTrailingFlagsImm =>
      dsimp only
      split
      · exact .refl q
      · exact .of_same rfl id fun cut => by simp [Step.state, cut]
    | setDylibOrdinalImm | setDylibOrdinalUleb | setDylibSpecialImm => exact .refl q
    | setTypeImm | setAddendSleb | setSegmentRelativeOffsetUleb | addAddrUleb => exact .of_same rfl id id
    | doBind | doBindAddAddrUleb | doBindAddAddrImmScaled => exact follows_bind ..
    | doBindUlebTimesSkippingUleb => exact follows_bindTimes ..

end Follows

end Macify.Fixups
