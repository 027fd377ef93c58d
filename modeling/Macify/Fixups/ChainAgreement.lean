import Macify.Fixups.ChainFormat

/-!
# The two interpreters of chained fixups

Both interpreters walk a chain in the same way, but cut the fields of an entry out of the word at different places:
a dylib takes 16 bits of import index and 16 of addend, the main image 24 and 8; a dylib takes 43 bits of target,
the main image 36. `EntriesAgree` says for which entries this makes no difference.
-/

namespace Macify.Fixups
open Lib Image

structure SameLookup (env : BindEnv) (dylib : DylibBindEnv) : Prop where
  flat : ∀ i j name, env.resolve i name = env.resolve j name
  resolve : ∀ i name, dylib.resolve i name = env.resolve i name
  stub : dylib.stub = env.stub

/-- The address of the name of import `i`, as the main image and as a dylib reads the name. -/
def importAddr (env : BindEnv) (blob : Buf) (i : ℕ) : W64 :=
  env.resolve (-1) (stripUnderscore (symbolAt blob (nameOffset (importAt blob i))))
def dylibImportAddr (env : BindEnv) (blob : Buf) (i : ℕ) : W64 :=
  env.resolve (-1) (stripUnderscore (dylibSymbolAt blob (nameOffset (importAt blob i))))

/-- The two addresses that are looked up for a bind entry happen to make up for the difference of the addends. -/
def Coincide (env : BindEnv) (blob : Buf) (value : W64) : Prop :=
  let theirs := dylibImportAddr env blob (dylibBindOrdinal value)
  if importsCount blob ≤ bindOrdinal value then
    if theirs = 0 then value = env.stub else theirs = value - dylibBindAddend value
  else
    let ours := importAddr env blob (bindOrdinal value)
    if theirs = 0 then
      if ours = 0 then value.extractLsb' 24 8 = 0 else ours = env.stub - bindAddend value
    else (if ours = 0 then env.stub else ours) - theirs = dylibBindAddend value - bindAddend value

/-- The dylib's import index is out of range, or the bits of its addend are zero and the names have one address. -/
def EntriesAgree (env : BindEnv) (blob : Buf) (value : W64) : Prop :=
  if value.msb then
    importsCount blob ≤ dylibBindOrdinal value ∨
      if value.extractLsb' 16 8 = 0 ∧ symbolsOffset blob ≠ 0 then value.extractLsb' 24 8 = 0
      else Coincide env blob value
  else value.extractLsb' 36 15 = 0

section Fields

variable {value : W64}

lemma toNat_dylibBindOrdinal : dylibBindOrdinal value = value.toNat % 2 ^ 16 := toNat_mask 16 (by decide)

lemma toNat_bindOrdinal : bindOrdinal value = value.toNat % 2 ^ 24 := toNat_mask 24 (by decide)

lemma toNat_bindAddend : (bindAddend value).toNat = value.toNat / 2 ^ 24 % 2 ^ 8 :=
  toNat_field 24 8 (by decide)

lemma toNat_dylibBindAddend : (dylibBindAddend value).toNat = value.toNat / 2 ^ 16 % 2 ^ 16 :=
  toNat_field 16 16 (by decide)

lemma extract_eq_zero {n w} : value.extractLsb' n w = 0 ↔ value.toNat / 2 ^ n % 2 ^ w = 0 := by
  rw [← BitVec.toNat_inj, BitVec.extractLsb'_toNat, Nat.shiftRight_eq_div_pow]
  rfl

lemma bindOrdinal_of_zero (zero : value.extractLsb' 16 8 = 0) : bindOrdinal value = dylibBindOrdinal value := by
  rw [extract_eq_zero] at zero
  rw [toNat_bindOrdinal, toNat_dylibBindOrdinal]
  omega

lemma bindAddend_eq_zero : bindAddend value = 0 ↔ value.extractLsb' 24 8 = 0 := by
  rw [extract_eq_zero, ← toNat_bindAddend, ← BitVec.toNat_inj]
  rfl

lemma addends_eq_iff (zero : value.extractLsb' 16 8 = 0) :
    bindAddend value = dylibBindAddend value ↔ value.extractLsb' 24 8 = 0 := by
  rw [extract_eq_zero] at zero ⊢
  rw [← BitVec.toNat_inj, toNat_bindAddend, toNat_dylibBindAddend]
  omega

lemma rebase_cut_eq_iff {v : ℕ} :
    v / 2 ^ 36 % 2 ^ 8 * 2 ^ 43 + v % 2 ^ 36 = v / 2 ^ 43 % 2 ^ 8 * 2 ^ 43 + v % 2 ^ 43 ↔
      v / 2 ^ 36 % 2 ^ 15 = 0 := by
  have bits : v / 2 ^ 36 % 2 ^ 15 = v / 2 ^ 36 % 2 ^ 7 + 2 ^ 7 * (v / 2 ^ 43 % 2 ^ 8) := by
    rw [pow_add 2 7 8, Nat.mod_mul, Nat.div_div_eq_div_mul, ← pow_add]
  have high : v / 2 ^ 36 % 2 ^ 8 = v / 2 ^ 36 % 2 ^ 15 % 2 ^ 8 :=
    (Nat.mod_mod_of_dvd _ (pow_dvd_pow 2 (by decide))).symm
  have low : v % 2 ^ 43 = v % 2 ^ 36 + 2 ^ 36 * (v / 2 ^ 36 % 2 ^ 7) := by
    rw [pow_add 2 36 7, Nat.mod_mul]
  have ha : v / 2 ^ 36 % 2 ^ 7 < 2 ^ 7 := Nat.mod_lt _ (by decide)
  have hb : v / 2 ^ 43 % 2 ^ 8 < 2 ^ 8 := Nat.mod_lt _ (by decide)
  rw [high, bits, low]
  generalize v / 2 ^ 36 % 2 ^ 7 = a at ha
  generalize v / 2 ^ 43 % 2 ^ 8 = b at hb
  -- the target's 36 bits cancel, and what is left is about the 15 bits alone
  have above : (a + 2 ^ 7 * b) % 2 ^ 8 * 2 ^ 7 = b * 2 ^ 7 + a ↔ a + 2 ^ 7 * b = 0 := by omega
  rw [← above]
  generalize (a + 2 ^ 7 * b) % 2 ^ 8 = y
  omega

lemma rebase_fields_eq_iff :
    rebaseHigh8 value <<< 43 ||| rebaseTarget value =
        dylibRebaseHigh8 value <<< 43 ||| dylibRebaseTarget value ↔
      value.extractLsb' 36 15 = 0 := by
  have high : (dylibRebaseHigh8 value).toNat = value.toNat / 2 ^ 43 % 2 ^ 8 :=
    toNat_field 43 8 (by decide)
  have target : (dylibRebaseTarget value).toNat = value.toNat % 2 ^ 43 := toNat_mask 43 (by decide)
  rw [extract_eq_zero, ← BitVec.toNat_inj, toNat_rebase, toNat_shl_or (by omega) (by omega), high,
    target, BitVec.extractLsb'_toNat, BitVec.extractLsb'_toNat, Nat.shiftRight_eq_div_pow,
    Nat.shiftRight_zero]
  exact rebase_cut_eq_iff

end Fields

section Entry

variable {env : BindEnv} {dylib : DylibBindEnv} {blob : Buf} {value : W64}

def Replacement.result (r : Replacement) (value : W64) : W64 := r.word.getD value

lemma read64_fix {format entry ptr} {st : ChainState} :
    (st.fix format entry ptr).mem.read64 ptr =
      (entry (st.mem.read64 ptr)).result (st.mem.read64 ptr) := by
  rw [ChainState.fix, Replacement.result]
  cases (entry (st.mem.read64 ptr)).word with
  | none => rfl
  | some w => exact Mem.read64_write64_self

lemma SameLookup.resolveImport_eq (same : SameLookup env dylib) {i} :
    resolveImport env blob i = importAddr env blob i := by
  unfold resolveImport importAddr
  dsimp only
  split
  · rfl
  · exact same.flat _ _ _

lemma SameLookup.dylibResolveImport_eq (same : SameLookup env dylib) {i} :
    dylibResolveImport dylib blob i = dylibImportAddr env blob i := same.resolve _ _

lemma chainEntry_bind (same : SameLookup env dylib) (bind : value.msb = true) :
    (chainEntry env blob value).result value =
      if importsCount blob ≤ bindOrdinal value then value
      else
        let addr := importAddr env blob (bindOrdinal value)
        (if addr = 0 then env.stub else addr) + bindAddend value := by
  rw [chainEntry, if_pos bind]
  dsimp only
  rw [same.resolveImport_eq]
  split
  · rfl
  split
  · rfl
  · rfl

lemma dylibChainEntry_bind (same : SameLookup env dylib) (bind : value.msb = true) {base} :
    (dylibChainEntry dylib blob base value).result value =
      if importsCount blob ≤ dylibBindOrdinal value then value
      else
        let addr := dylibImportAddr env blob (dylibBindOrdinal value)
        if addr = 0 then env.stub else addr + dylibBindAddend value := by
  rw [dylibChainEntry, if_pos bind]
  dsimp only
  rw [same.dylibResolveImport_eq, same.stub]
  by_cases inRange : dylibBindOrdinal value < importsCount blob
  · rw [if_pos inRange, if_neg (Nat.not_le.mpr inRange)]
    split
    · rfl
    · rfl
  · rw [if_neg inRange, if_pos (Nat.not_lt.mp inRange)]
    rfl

lemma bind_same_import_iff {addr a stub d : W64} :
    (if addr = 0 then stub else addr) + a = (if addr = 0 then stub else addr + d) ↔
      if addr = 0 then a = 0 else a = d := by
  split
  · exact BitVec.add_right_eq_self
  · exact BitVec.add_right_inj _

lemma coincide_iff (bind : value.msb = true) (inRange : ¬ importsCount blob ≤ dylibBindOrdinal value)
    (same : SameLookup env dylib) {base} :
    (chainEntry env blob value).result value = (dylibChainEntry dylib blob base value).result value ↔
      Coincide env blob value := by
  rw [chainEntry_bind same bind, dylibChainEntry_bind same bind, if_neg inRange, Coincide]
  dsimp only
  generalize dylibImportAddr env blob (dylibBindOrdinal value) = theirs
  generalize importAddr env blob (bindOrdinal value) = ours
  rw [← bindAddend_eq_zero]
  generalize bindAddend value = a
  generalize dylibBindAddend value = d
  by_cases beyond : importsCount blob ≤ bindOrdinal value
  · rw [if_pos beyond, if_pos beyond]
    split
    · rfl
    · grind
  · rw [if_neg beyond, if_neg beyond]
    by_cases unknown : theirs = 0
    · rw [if_pos unknown, if_pos unknown]
      split
      · grind
      · grind
    · rw [if_neg unknown, if_neg unknown]
      grind

lemma entry_agree_iff (same : SameLookup env dylib) :
    (chainEntry env blob value).result value =
        (dylibChainEntry dylib blob (loadBase env.segs) value).result value ↔
      EntriesAgree env blob value := by
  unfold EntriesAgree
  cases kind : value.msb with
  | false =>
    rw [chainEntry, dylibChainEntry, kind, if_neg Bool.false_ne_true, if_neg Bool.false_ne_true,
      if_neg Bool.false_ne_true, ← rebase_fields_eq_iff]
    exact BitVec.add_left_inj _
  | true =>
    rw [if_pos rfl]
    by_cases beyond : importsCount blob ≤ dylibBindOrdinal value
    · have ours : importsCount blob ≤ bindOrdinal value := by
        rw [toNat_bindOrdinal]
        rw [toNat_dylibBindOrdinal] at beyond
        omega
      rw [chainEntry_bind same kind, dylibChainEntry_bind same kind, if_pos beyond, if_pos ours]
      exact iff_of_true rfl (.inl beyond)
    · rw [or_iff_right beyond]
      split
      · next fields =>
        obtain ⟨zero, pool⟩ := fields
        have name : dylibImportAddr env blob = importAddr env blob := by
          funext i
          rw [dylibImportAddr, dylibSymbolAt, if_neg pool, importAddr]
        rw [chainEntry_bind same kind, dylibChainEntry_bind same kind, bindOrdinal_of_zero zero,
          if_neg beyond, if_neg beyond, name]
        dsimp only
        rw [bind_same_import_iff]
        split
        · exact bindAddend_eq_zero
        · exact addends_eq_iff zero
      · exact coincide_iff kind beyond same

/-- The same word is put in the place of an entry, and the next entry is the same, exactly when the fields that
    are cut out differently make no difference. -/
theorem chain_entries_agree_iff (same : SameLookup env dylib)
    (base : dylibLoadBase dylib = loadBase env.segs) {format last ptr} {st : ChainState} :
    ((chainStep format (chainEntry env blob) last ptr st).1.mem.read64 ptr =
        (chainStep format (dylibChainEntry dylib blob (dylibLoadBase dylib)) last ptr st).1.mem.read64 ptr ∧
      (chainStep format (chainEntry env blob) last ptr st).2 =
        (chainStep format (dylibChainEntry dylib blob (dylibLoadBase dylib)) last ptr st).2) ↔
      EntriesAgree env blob (st.mem.read64 ptr) := by
  rw [← entry_agree_iff same, base]
  simp only [chainStep, read64_fix, and_true]

end Entry

def oneDylib : DylibBindEnv := ⟨[⟨0, 0x1000, 0, 0⟩], 0x10000, oneSegment.resolve, 0x2000⟩

lemma one_same : SameLookup oneSegment oneDylib := ⟨fun _ _ _ => rfl, fun _ _ => rfl, rfl⟩

def mainStep (value : W64) : ChainState × Option W64 :=
  chainStep 6 (chainEntry oneSegment (oneChain 6)) 0x11000 0x10000 (.start (oneEntry value))

def dylibStep (value : W64) : ChainState × Option W64 :=
  chainStep 6 (dylibChainEntry oneDylib (oneChain 6) (dylibLoadBase oneDylib)) 0x11000 0x10000
    (.start (oneEntry value))

theorem chain_entries_agree_iff_plain :
    SameLookup oneSegment oneDylib ∧ dylibLoadBase oneDylib = loadBase oneSegment.segs ∧
      (mainStep 0x100).1.mem.read64 0x10000 = (dylibStep 0x100).1.mem.read64 0x10000 ∧
      (mainStep 0x100).2 = (dylibStep 0x100).2 :=
  ⟨one_same, rfl,
    (chain_entries_agree_iff one_same rfl).mpr (by unfold EntriesAgree Coincide; decide +kernel)⟩

/-- A rebase entry with bit 36 set, and a bind entry with addend 1. -/
theorem chain_entries_differ :
    (mainStep 0x1000000000).1.mem.read64 0x10000 = 0x80000010000 ∧
      (dylibStep 0x1000000000).1.mem.read64 0x10000 = 0x1000010000 ∧
      (mainStep 0x8000000001000000).1.mem.read64 0x10000 = 0x5001 ∧
      (dylibStep 0x8000000001000000).1.mem.read64 0x10000 = 0x5100 := by
  decide +kernel

end Macify.Fixups
