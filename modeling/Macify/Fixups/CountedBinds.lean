import Macify.Fixups.Binds
import Macify.Fixups.Numbers

/-!
# The counted bind opcode

`DO_BIND_ULEB_TIMES_SKIPPING_ULEB(count, skip)` is meant to be short for `count` times `DO_BIND_ADD_ADDR_ULEB(skip)`.
In `execute_binds` the two have loops of their own. The counted one looks neither at the type nor at the segment
index, and does not note a symbol that it binds to the stub. Main result: `counted_bind_iff`.
-/

namespace Macify.Fixups
open Lib Image

def maxNotedStubs : ℕ := 32

def noteStub (noted : List Buf) (sym : Buf) : List Buf :=
  if noted.contains sym then noted
  else if noted.length < maxNotedStubs then noted ++ [sym]
  else noted

def BindState.notedStubs (st : BindState) : List Buf := st.noted.foldl noteStub []

section Noted

variable {noted : List Buf} {sym : Buf}

lemma noteStub_eq_self_iff : noteStub noted sym = noted ↔ sym ∈ noted ∨ maxNotedStubs ≤ noted.length := by
  unfold noteStub
  by_cases known : noted.contains sym = true
  · rw [if_pos known]
    exact iff_of_true rfl (.inl (List.contains_iff_mem.mp known))
  rw [if_neg known]
  by_cases room : noted.length < maxNotedStubs
  · rw [if_pos room]
    refine iff_of_false (fun e => ?_) fun h => ?_
    · exact List.cons_ne_nil sym [] (List.append_right_eq_self.mp e)
    · exact h.elim (fun mem => known (List.contains_iff_mem.mpr mem)) (Nat.not_le.mpr room)
  · rw [if_neg room]
    exact iff_of_true rfl (.inr (Nat.not_lt.mp room))

lemma noteStub_idem : noteStub (noteStub noted sym) sym = noteStub noted sym := by
  apply noteStub_eq_self_iff.mpr
  by_cases known : noteStub noted sym = noted
  · rw [known]
    exact noteStub_eq_self_iff.mp known
  · left
    unfold noteStub at known ⊢
    split_ifs at known ⊢
    · exact absurd rfl known
    · simp
    · exact absurd rfl known

lemma foldl_noteStub {n : ℕ} : (List.replicate (n + 1) sym).foldl noteStub noted = noteStub noted sym := by
  induction n with
  | zero => rfl
  | succ n ih => rw [List.replicate_succ', List.foldl_append, ih]; exact noteStub_idem

end Noted

def bindRepeat (env : BindEnv) (skip : W64) : ℕ → BindState → Bool × BindState
  | 0, st => (true, st)
  | n + 1, st =>
    match bindOne env skip [] st with
    | .more _ st' => bindRepeat env skip n st'
    | .stop _ st' => (false, st')

section Streams

variable {env : BindEnv} {st : BindState} {count skip : W64} {n : ℕ}

/-- The interpreter at the counted opcode. -/
theorem interpret_counted :
    interpret (bindStep env) (0xC0 :: (encodeUleb128 count.toNat ++ encodeUleb128 skip.toNat)) st =
      bindTimes env skip count.toNat st := by
  have operand : readUleb128 (encodeUleb128 skip.toNat) = (skip, []) := by
    simpa using @readUleb128_encode [] skip
  rw [interpret, List.length_cons, runSteps, bindStep,
    show BindOpcode.ofByte 0xC0 = some .doBindUlebTimesSkippingUleb from rfl]
  simp only [readUleb128_encode, operand]
  rcases bindTimes env skip count.toNat st with ⟨_ | _, st'⟩
  · rfl
  · exact runSteps_nil

lemma bindOne_more {rest rest' : Buf} {st'} (taken : bindOne env skip rest st = .more rest' st') (r : Buf) :
    bindOne env skip r st = .more r st' := by
  unfold bindOne at taken ⊢
  split at taken
  · cases taken
  next ok =>
  rw [if_neg ok]
  dsimp only at taken ⊢
  split at taken
  · cases taken
  next segment =>
  cases taken
  rw [if_neg segment]

lemma bindOne_stop {rest : Buf} {ok st'} (taken : bindOne env skip rest st = .stop ok st') (r : Buf) :
    bindOne env skip r st = .stop false st' := by
  unfold bindOne at taken ⊢
  split at taken
  · next invalid =>
    cases taken
    rw [if_pos invalid]
  next valid =>
  rw [if_neg valid]
  dsimp only at taken ⊢
  split at taken
  · next segment =>
    cases taken
    rw [if_pos segment]
  · cases taken

/-- The interpreter at a sequence of the other opcode. -/
theorem interpret_repeated :
    interpret (bindStep env) (List.replicate n (0xA0 :: encodeUleb128 skip.toNat)).flatten st =
      bindRepeat env skip n st := by
  induction n generalizing st with
  | zero => rfl
  | succ n ih =>
    rw [List.replicate_succ, List.flatten_cons, List.cons_append, interpret, List.length_cons, runSteps, bindStep,
      show BindOpcode.ofByte 0xA0 = some .doBindAddAddrUleb from rfl]
    simp only [readUleb128_encode]
    rw [bindRepeat]
    cases taken : bindOne env skip [] st with
    | more rest' st' =>
      rw [bindOne_more taken]
      exact (runSteps_eq (bindStep_shrinks env) (by simp) le_rfl).trans ih
    | stop ok st' =>
      rw [bindOne_stop taken]

end Streams

structure SameEffect (r r' : Bool × BindState) : Prop where
  ok : r.1 = r'.1
  writes : r.2.writes = r'.2.writes
  segOffset : r.2.segOffset = r'.2.segOffset
  notedStubs : r.2.notedStubs = r'.2.notedStubs

section Effects

variable {env : BindEnv} {skip : W64} {st : BindState} {n : ℕ}

def BindState.withNoted (st : BindState) (noted : List Buf) : BindState := { st with noted := noted }

lemma withNoted_withNoted {a b : List Buf} : (st.withNoted a).withNoted b = st.withNoted b := rfl

lemma bindTimes_succ (ok : ordinalOk env st = true) : bindTimes env skip (n + 1) st =
    bindTimes env skip n ((storeSlot env st).advance (8 + skip)) := by
  rw [bindTimes, ok]
  rfl

lemma bindTimes_withNoted {noted : List Buf} : bindTimes env skip n (st.withNoted noted) =
    ((bindTimes env skip n st).1, (bindTimes env skip n st).2.withNoted noted) := by
  induction n generalizing st with
  | zero => rfl
  | succ n ih =>
    rw [bindTimes, bindTimes]
    by_cases invalid : (!ordinalOk env st) = true
    · rw [if_pos invalid]
      exact if_pos invalid
    · rw [if_neg invalid]
      exact (if_neg invalid).trans (@ih ((storeSlot env st).advance (8 + skip)))

lemma bindTimes_noted : (bindTimes env skip n st).2.noted = st.noted := by
  have same := @bindTimes_withNoted env skip st n st.noted
  exact congrArg (fun r => r.2.noted) same

lemma bindTimes_ok (ok : ordinalOk env st = true) : (bindTimes env skip n st).1 = true := by
  induction n generalizing st with
  | zero => rfl
  | succ n ih =>
    rw [bindTimes_succ ok]
    exact ih ok

lemma bindTimes_writes (ok : ordinalOk env st = true) :
    (bindTimes env skip n st).2.writes.length = st.writes.length + n := by
  induction n generalizing st with
  | zero => rfl
  | succ n ih =>
    have step : (storeSlot env st).writes.length = st.writes.length + 1 := by simp [storeSlot]
    have rest := @ih ((storeSlot env st).advance (8 + skip)) ok
    rw [bindTimes_succ ok, rest]
    show (storeSlot env st).writes.length + n = _
    omega

lemma bindOne_eq {rest : Buf} (ok : ordinalOk env st = true) : bindOne env skip rest st =
    if env.segs.length ≤ st.segIndex then .stop false (noteUnresolved env st)
    else .more rest ((if st.type = BIND_TYPE_POINTER then storeSlot env (noteUnresolved env st)
      else noteUnresolved env st).advance (8 + skip)) := by
  have index : (noteUnresolved env st).segIndex = st.segIndex := by
    unfold noteUnresolved
    split <;> rfl
  have type : (noteUnresolved env st).type = st.type := by
    unfold noteUnresolved
    split <;> rfl
  rw [bindOne, ok, ← index, ← type]
  rfl

lemma noteUnresolved_withNoted : noteUnresolved env st =
    st.withNoted (st.noted ++ if lookup env st = 0 then [stripUnderscore st.symbolName] else []) := by
  unfold noteUnresolved
  split
  · rfl
  · rw [List.append_nil]
    rfl

lemma bindRepeat_writes (other : st.type ≠ BIND_TYPE_POINTER) :
    (bindRepeat env skip n st).2.writes = st.writes := by
  induction n generalizing st with
  | zero => rfl
  | succ n ih =>
    rw [bindRepeat]
    cases ok : ordinalOk env st with
    | false =>
      rw [bindOne, ok]
      rfl
    | true =>
      rw [bindOne_eq ok, if_neg other, noteUnresolved_withNoted]
      split
      · next taken =>
        split at taken
        · cases taken
        · cases taken
          exact ih other
      · next taken =>
        split at taken
        · cases taken
          rfl
        · cases taken

lemma bindRepeat_eq (ok : ordinalOk env st = true) (segment : st.segIndex < env.segs.length)
    (pointer : st.type = BIND_TYPE_POINTER) :
    bindRepeat env skip n st = (true, (bindTimes env skip n st).2.withNoted
      (st.noted ++ if lookup env st = 0 then List.replicate n (stripUnderscore st.symbolName) else [])) := by
  induction n generalizing st with
  | zero =>
    show (true, st) = (true, st.withNoted _)
    congr 1
    split <;> simp [BindState.withNoted]
  | succ n ih =>
    rw [bindRepeat, bindOne_eq ok, if_neg (Nat.not_le.mpr segment), if_pos pointer, noteUnresolved_withNoted]
    -- the state after the slot is that of the counted loop with one more name
    refine (@ih (((storeSlot env st).advance (8 + skip)).withNoted _) ok segment pointer).trans ?_
    rw [bindTimes_withNoted, bindTimes_succ ok, withNoted_withNoted]
    congr 2
    show st.noted ++ (if lookup env st = 0 then [stripUnderscore st.symbolName] else []) ++
      (if lookup env st = 0 then List.replicate n (stripUnderscore st.symbolName) else []) = _
    split
    · rw [List.append_assoc, List.singleton_append, ← List.replicate_succ]
    · rw [List.append_nil]

lemma sameEffect_iff (ok : ordinalOk env st = true) (segment : st.segIndex < env.segs.length)
    (pointer : st.type = BIND_TYPE_POINTER) :
    SameEffect (bindTimes env skip (n + 1) st) (bindRepeat env skip (n + 1) st) ↔
      lookup env st ≠ 0 ∨ noteStub st.notedStubs (stripUnderscore st.symbolName) = st.notedStubs := by
  have kept : (bindTimes env skip (n + 1) st).2.notedStubs = st.notedStubs :=
    congrArg (List.foldl noteStub []) bindTimes_noted
  have noted : (bindRepeat env skip (n + 1) st).2.notedStubs =
      if lookup env st = 0 then noteStub st.notedStubs (stripUnderscore st.symbolName)
      else st.notedStubs := by
    rw [bindRepeat_eq ok segment pointer]
    show (st.noted ++ _).foldl noteStub [] = _
    rw [List.foldl_append]
    split
    · exact foldl_noteStub
    · rfl
  have others : SameEffect (bindTimes env skip (n + 1) st) (bindRepeat env skip (n + 1) st) ↔
      (bindTimes env skip (n + 1) st).2.notedStubs = (bindRepeat env skip (n + 1) st).2.notedStubs := by
    refine ⟨SameEffect.notedStubs, fun same => ⟨?_, ?_, ?_, same⟩⟩
    · rw [bindTimes_ok ok, bindRepeat_eq ok segment pointer]
    · rw [bindRepeat_eq ok segment pointer]
      rfl
    · rw [bindRepeat_eq ok segment pointer]
      rfl
  rw [others, kept, noted]
  split
  · next missing =>
    rw [or_iff_right (not_not_intro missing)]
    exact eq_comm
  · next found => exact iff_of_true rfl (.inl found)

end Effects

/-- The counted opcode has the effect of the repeated one exactly when it does nothing, both fail for the
    ordinal, or the slots are pointers in a valid segment and no new symbol would be noted. -/
theorem counted_bind_iff (env : BindEnv) (st : BindState) (count skip : W64) :
    SameEffect (bindTimes env skip count.toNat st) (bindRepeat env skip count.toNat st) ↔
      count = 0 ∨ ordinalOk env st = false ∨
        (st.segIndex < env.segs.length ∧ st.type = BIND_TYPE_POINTER ∧
          (lookup env st ≠ 0 ∨ stripUnderscore st.symbolName ∈ st.notedStubs ∨
            maxNotedStubs ≤ st.notedStubs.length)) := by
  cases turns : count.toNat with
  | zero => exact iff_of_true ⟨rfl, rfl, rfl, rfl⟩ (.inl (BitVec.eq_of_toNat_eq turns))
  | succ n =>
    have some : count ≠ 0 := fun zero => by rw [zero] at turns; cases turns
    rw [or_iff_right some]
    cases ok : ordinalOk env st with
    | false =>
      refine iff_of_true ?_ (.inl rfl)
      have fails : bindRepeat env skip (n + 1) st = (false, st) := by rw [bindRepeat, bindOne, ok]; rfl
      rw [bindTimes, ok, fails]
      exact ⟨rfl, rfl, rfl, rfl⟩
    | true =>
      rw [or_iff_right Bool.true_eq_false.mp]
      by_cases segment : st.segIndex < env.segs.length
      · by_cases pointer : st.type = BIND_TYPE_POINTER
        · rw [sameEffect_iff ok segment pointer, noteStub_eq_self_iff, and_iff_right segment, and_iff_right pointer]
        · refine iff_of_false (fun same => ?_) fun h => pointer h.2.1
          have more := @bindTimes_writes env skip st (n + 1) ok
          rw [same.writes, bindRepeat_writes pointer] at more
          omega
      · refine iff_of_false (fun same => ?_) fun h => segment h.1
        have fails : (bindRepeat env skip (n + 1) st).1 = false := by
          rw [bindRepeat, bindOne_eq ok, if_pos (Nat.not_lt.mp segment)]
        rw [← same.ok, bindTimes_ok ok] at fails
        cases fails

def countedEnv : BindEnv :=
  ⟨[⟨0x1000, 0x1000, 3, 3, ascii "__DATA", false⟩], 1, fun _ name => if name = ascii "f" then 0x5000 else 0,
    0x7000⟩

def countedState (name : Buf) (type segIndex : ℕ) : BindState := ⟨1, name, type, 0, 0, segIndex, [], []⟩

/-- A slot of another type, a segment that is not there, and a symbol that cannot be resolved, each bound once. -/
theorem counted_bind_differs :
    ¬SameEffect (bindTimes countedEnv 0 1 (countedState (ascii "_f") 2 0))
      (bindRepeat countedEnv 0 1 (countedState (ascii "_f") 2 0)) ∧
    ¬SameEffect (bindTimes countedEnv 0 1 (countedState (ascii "_f") 1 3))
      (bindRepeat countedEnv 0 1 (countedState (ascii "_f") 1 3)) ∧
    ¬SameEffect (bindTimes countedEnv 0 1 (countedState (ascii "_g") 1 0))
      (bindRepeat countedEnv 0 1 (countedState (ascii "_g") 1 0)) :=
  ⟨fun same => absurd same.writes (by decide), fun same => absurd same.ok (by decide),
    fun same => absurd same.notedStubs (by decide)⟩

end Macify.Fixups
