import Macify.Signals.Masks

/-!
# Agreement of the two signal mask calls

The handler and the shim translate a set in the same way and take different paths from there: the handler
gives the macOS number `how` to the kernel, clears two of the four protected signals, and reads the old
mask back through the table of `translate_kill_signal`. `sigprocmask_agree_iff` compares the two calls.
-/

namespace Macify.Signals
open Lib Syscall

section Raw

variable {env : MaskEnv} {r : Regs} {w : World} {cur : W64}

def rawSet (how : W64) (set : W32) : W64 :=
  if how = 1 ∨ how = 3 then
    linuxMaskOf set &&& ~~~((1 : W64) <<< 10) &&& ~~~((1 : W64) <<< 5)
  else linuxMaskOf set

/-- The result of the raw syscall, for the `how` and the set of the guest. -/
def rawMasked (how : W64) (set : W32) (cur : W64) : MaskResult :=
  match kernelSigmask (how.setWidth 32) (some (rawSet how set)) cur with
  | some blocked => ⟨some (macosMaskOf fun ls => cur.getLsbD (ls - 1)), blocked⟩
  | none => ⟨none, cur⟩

lemma dispatch_sigprocmask {env : Env} {kernel : Kernel} (nr : r.bsdNr = MACOS_SYS_sigprocmask) :
    dispatch env kernel r w =
      issue env kernel MACOS_SYS_sigprocmask ((Frame.init r w).sigprocmask env) := by
  have flag : bsdArgFlags r.bsdNr &&& ARG_SIGPROCMASK ≠ 0 := by rw [nr]; decide
  have flags : bsdArgFlags MACOS_SYS_sigprocmask = ARG_SIGPROCMASK ||| ARG_FORCE_SLOW := by decide
  rw [dispatch_flagged flag (by decide), nr, flags, translateArgs_sigprocmask]
  rfl

lemma rtSigprocmask_raw (set : r.rsi ≠ 0) (old : r.rdx ≠ 0) :
    rtSigprocmask cur ((Frame.init r w).sigprocmask env.sys).args
        ((Frame.init r w).sigprocmask env.sys).world.mem =
      match kernelSigmask (r.rdi.setWidth 32) (some (rawSet r.rdi (w.mem.read32 r.rsi))) cur with
      | some blocked =>
        (0, blocked, ((Frame.init r w).sigprocmask env.sys).world.mem.write64
          env.sys.linuxOsetSigprocmask cur)
      | none => (-EINVAL, cur, ((Frame.init r w).sigprocmask env.sys).world.mem) := by
  simp only [rtSigprocmask, Frame.sigprocmask, Frame.init, Regs.args, set, old, env.set_ne, env.oset_ne,
    if_false, if_true, Mem.read64_write64_self, rawSet]
  rfl

lemma rawSigprocmask_eq (nr : r.bsdNr = MACOS_SYS_sigprocmask) (set : r.rsi ≠ 0) (old : r.rdx ≠ 0) :
    rawSigprocmask env r w cur = rawMasked r.rdi (w.mem.read32 r.rsi) cur := by
  unfold rawSigprocmask rawMasked sigillHandler
  rw [dispatch_sigprocmask nr]
  unfold issue rawSyscall MaskEnv.kernel
  have number : bsdToLinux MACOS_SYS_sigprocmask = SYS_rt_sigprocmask := by decide
  simp only [number, if_true, rtSigprocmask_raw set old]
  cases kernelSigmask (r.rdi.setWidth 32) (some (rawSet r.rdi (w.mem.read32 r.rsi))) cur with
  | none =>
    have err : macosResult (-EINVAL) ≠ 0 := by decide
    simp only [resume, err, false_and, if_false]
  | some blocked =>
    have flag : bsdArgFlags MACOS_SYS_sigprocmask &&& ARG_SIGPROCMASK ≠ 0 := by decide
    have saved : ((Frame.init r w).sigprocmask env.sys).sigprocmaskOset = r.rdx := rfl
    have other : ((Frame.init r w).sigprocmask env.sys).sigaltstackOss = 0 := rfl
    have oldact : ((Frame.init r w).sigprocmask env.sys).sigactionOldact = 0 := rfl
    have ok : macosResult 0 = 0 ∧ isErr 0 = false := by decide
    simp only [resume, ok, old, ne_eq, not_false_eq_true, and_true, if_true, Frame.copyBack, flag, saved,
      other, oldact, not_true_eq_false, and_false, if_false, copyOset, World.setErrno, Bool.false_eq_true,
      Mem.read32_write32_self, Mem.read64_write64_self]

end Raw

section Sets

variable {set : W32} {cur : W64} {mem : ℕ → Bool} {k : ℕ}

lemma getLsbD_translated {t : ℕ → W32} (small : ∀ ms ∈ signals, (t ms).toNat ≤ 64) :
    (signals.foldl (fun mask ms =>
      if set.getLsbD (ms - 1) && decide (0 < (t ms).toNat) then mask ||| sigbit (t ms).toNat else mask)
      0).getLsbD k = signals.any fun ms => set.getLsbD (ms - 1) && decide ((t ms).toNat = k + 1) := by
  rw [getLsbD_union]
  apply any_congr_mem
  intro ms mem
  have le := small ms mem
  rw [Bool.and_assoc]
  congr 1
  rcases Nat.eq_zero_or_pos (t ms).toNat with zero | pos
  · rw [zero]
    rfl
  · rw [sigbit, getLsbD_single (by omega), ← Bool.decide_and]
    exact decide_eq_decide.mpr (by omega)

lemma getLsbD_linuxMaskOf :
    (linuxMaskOf set).getLsbD k =
      signals.any fun ms => set.getLsbD (ms - 1) &&
        decide ((translateKillSignal (BitVec.ofNat 32 ms)).toNat = k + 1) := by
  rw [← getLsbD_translated (by decide +kernel), linuxMaskOf]
  congr 1
  refine List.foldl_ext _ _ _ fun mask ms mem => ?_
  have entry : ∀ ms ∈ signals, ((0 : W32).slt (translateKillSignal (BitVec.ofNat 32 ms)) &&
      (translateKillSignal (BitVec.ofNat 32 ms)).slt 64) = true ∧
      0 < (translateKillSignal (BitVec.ofNat 32 ms)).toNat := by decide +kernel
  obtain ⟨valid, pos⟩ := entry ms mem
  rw [if_pos valid, decide_eq_true pos, Bool.and_true]
  rfl

lemma getLsbD_shimMask :
    (shimMask set).getLsbD k =
      signals.any fun ms => set.getLsbD (ms - 1) &&
        decide ((macosSigToLinux (BitVec.ofNat 32 ms)).toNat = k + 1) := by
  rw [← getLsbD_translated (by decide +kernel), shimMask]
  congr 1
  refine List.foldl_ext _ _ _ fun mask ms mem => ?_
  have entry : ∀ ms ∈ signals, ((0 : W32).slt (macosSigToLinux (BitVec.ofNat 32 ms)) = true ↔
      0 < (macosSigToLinux (BitVec.ofNat 32 ms)).toNat) := by decide +kernel
  simp only [entry ms mem, Bool.and_eq_true, decide_eq_true_eq]
  rfl

lemma getLsbD_macosMaskOf :
    (macosMaskOf mem).getLsbD k = signals.any fun ls => mem ls && (macosBitOf ls).getLsbD k := by
  rw [macosMaskOf, getLsbD_union]

lemma mem_signals {ls : ℕ} : ls ∈ signals ↔ 1 ≤ ls ∧ ls < 32 := List.mem_range'_1

lemma macosMaskOf_congr {mem' : ℕ → Bool} (same : ∀ ls ∈ signals, mem ls = mem' ls) :
    macosMaskOf mem = macosMaskOf mem' :=
  List.foldl_ext _ _ _ fun mask ls listed => by rw [same ls listed]

lemma translateKillSignal_eq : ∀ ms ∈ signals, ms ≠ 7 → ms ≠ 29 →
    translateKillSignal (BitVec.ofNat 32 ms) = macosSigToLinux (BitVec.ofNat 32 ms) := by
  decide +kernel

lemma linuxMaskOf_eq (emt : set.getLsbD 6 = false) (info : set.getLsbD 28 = false) :
    linuxMaskOf set = macosToLinuxSigset set := by
  refine bits_iff.mpr fun k _ => ?_
  rw [macosToLinuxSigset, getLsbD_linuxMaskOf, getLsbD_shimMask]
  refine any_congr_mem fun ms mem => ?_
  by_cases e : ms = 7
  · rw [e, emt, Bool.false_and, Bool.false_and]
  by_cases e' : ms = 29
  · rw [e', info, Bool.false_and, Bool.false_and]
  rw [translateKillSignal_eq ms mem e e']

def shimBitOf (ls : ℕ) : W32 :=
  let ms := linuxSigToMacos (BitVec.ofNat 32 ls)
  if (0 : W32).slt ms ∧ ms.sle 31 then (1 : W32) <<< (ms.toNat - 1) else 0

lemma getLsbD_linuxToMacosSigset :
    (linuxToMacosSigset cur).getLsbD k =
      signals.any fun ls => cur.getLsbD (ls - 1) && (shimBitOf ls).getLsbD k := by
  rw [← getLsbD_union, linuxToMacosSigset]
  congr 1
  refine List.foldl_ext _ _ _ fun mask ls _ => ?_
  unfold shimBitOf
  dsimp only
  by_cases valid : (0 : W32).slt (linuxSigToMacos (BitVec.ofNat 32 ls)) = true ∧
      (linuxSigToMacos (BitVec.ofNat 32 ls)).sle 31 = true
  · simp only [valid, and_true, if_true]
  · simp only [valid, and_false, if_false]
    split
    · exact BitVec.or_zero.symm
    · rfl

/-- The Linux signals that the handler and the shim report at a position of the macOS set. -/
def rawSources (k : ℕ) : List ℕ := signals.filter fun ls => (macosBitOf ls).getLsbD k

def shimSources (k : ℕ) : List ℕ := signals.filter fun ls => (shimBitOf ls).getLsbD k

lemma rawOldset_bit : (macosMaskOf mem).getLsbD k = (rawSources k).any mem := by
  rw [getLsbD_macosMaskOf, rawSources, List.any_filter]
  exact any_congr_mem fun ls _ => Bool.and_comm _ _

lemma shimOldset_bit : (linuxToMacosSigset cur).getLsbD k = (shimSources k).any fun ls => cur.getLsbD (ls - 1) := by
  rw [getLsbD_linuxToMacosSigset, shimSources, List.any_filter]
  exact any_congr_mem fun ls _ => Bool.and_comm _ _

lemma sources_eq : ∀ k < 32, k ≠ 6 → k ≠ 15 → k ≠ 29 → rawSources k = shimSources k := by
  decide +kernel

lemma sources_emt : rawSources 6 = [10] ∧ shimSources 6 = [] := by decide +kernel

lemma sources_urg : rawSources 15 = [23] ∧ shimSources 15 = [16, 23] := by decide +kernel

lemma sources_usr1 : rawSources 29 = [] ∧ shimSources 29 = [10, 30] := by decide +kernel

lemma oldsets_eq_iff :
    (macosMaskOf fun ls => cur.getLsbD (ls - 1)) = linuxToMacosSigset cur ↔
      cur.getLsbD 9 = false ∧ cur.getLsbD 29 = false ∧ (cur.getLsbD 15 = true → cur.getLsbD 22 = true) := by
  have bits : (macosMaskOf fun ls => cur.getLsbD (ls - 1)) = linuxToMacosSigset cur ↔
      ∀ k < 32, ((rawSources k).any fun ls => cur.getLsbD (ls - 1)) =
        (shimSources k).any fun ls => cur.getLsbD (ls - 1) := by
    constructor
    · intro same k _
      rw [← rawOldset_bit, same, shimOldset_bit]
    · intro same
      refine BitVec.eq_of_getLsbD_eq fun k lt => ?_
      rw [rawOldset_bit, same k lt, shimOldset_bit]
  rw [bits]
  constructor
  · intro same
    have emt := same 6 (by decide)
    have urg := same 15 (by decide)
    have usr1 := same 29 (by decide)
    rw [sources_emt.1, sources_emt.2] at emt
    rw [sources_urg.1, sources_urg.2] at urg
    rw [sources_usr1.1, sources_usr1.2] at usr1
    simp only [List.any_cons, List.any_nil, Bool.or_false, Nat.reduceSub] at emt urg usr1
    refine ⟨emt, (Bool.or_eq_false_iff.mp usr1.symm).2, fun stkflt => ?_⟩
    rwa [stkflt, Bool.true_or] at urg
  · rintro ⟨usr1, pwr, stkflt⟩ k lt
    by_cases emt : k = 6
    · rw [emt, sources_emt.1, sources_emt.2, List.any_cons, usr1]
      rfl
    by_cases urg : k = 15
    · rw [urg, sources_urg.1, sources_urg.2]
      simp only [List.any_cons, List.any_nil, Bool.or_false, Nat.reduceSub]
      cases h : cur.getLsbD 15 with
      | false => rw [Bool.false_or]
      | true => rw [stkflt h, Bool.true_or]
    by_cases usr : k = 29
    · rw [usr, sources_usr1.1, sources_usr1.2, List.any_cons, usr1, List.any_cons, pwr]
      rfl
    rw [sources_eq k lt emt urg usr]

end Sets

def asked (set : W32) : W64 := macosToLinuxSigset set &&& ~~~unblockable

def protectedMask : W64 := sigbit 4 ||| sigbit 6 ||| sigbit 7 ||| sigbit 11

def Deliverable (cur blocked : W64) : Prop :=
  ∀ sig ∈ protectedSignals, blocked.getLsbD (sig - 1) = true → cur.getLsbD (sig - 1) = true

/-- The same mask, the same set reported, and no protected signal blocked that was not before. -/
structure MasksAgree (v : MaskView) (cur : W64) (raw shim : MaskResult) : Prop where
  mask : v.mask cur raw.blocked = shim.blocked
  oldset : raw.oldset = shim.oldset
  raw : Deliverable cur (v.mask cur raw.blocked)
  shim : Deliverable cur shim.blocked

/-- The mask `cur` reads the same through both ways back. -/
structure SameOldset (cur : W64) : Prop where
  usr1 : cur.getLsbD 9 = false
  pwr : cur.getLsbD 29 = false
  stkflt : cur.getLsbD 15 = true → cur.getLsbD 22 = true

/-- When the mask is the same in the end. `how` is the macOS number. -/
def SameMask (v : MaskView) (how : W32) (set : W32) (cur : W64) : Prop :=
  match v with
  | .inHandler =>
    how = 1 ∧ asked set &&& ~~~protectedMask = 0 ∧ asked set &&& cur &&& (sigbit 4 ||| sigbit 7) = 0 ∨
      how = 2 ∧ asked set = 0 ∧ cur = 0
  | .afterReturn =>
    how = 1 ∧ asked set &&& ~~~protectedMask &&& ~~~cur = 0 ∨ how = 2 ∧ asked set &&& cur = 0

section Agreement

variable {env : MaskEnv} {r : Regs} {w : World} {cur : W64} {v : MaskView} {found : Bool}
  {how set : W32}

lemma delProtected (set : W64) : [11, 7, 6, 4].foldl sigdelset set = set &&& ~~~protectedMask := by
  simp only [List.foldl_cons, List.foldl_nil, sigdelset, protectedMask, BitVec.not_or]
  ac_rfl

lemma getLsbD_sigbit {sig k : ℕ} (pos : 0 < sig) (le : sig ≤ 64) :
    (sigbit sig).getLsbD k = decide (k + 1 = sig) := by
  rw [sigbit, getLsbD_single (by omega)]
  exact decide_eq_decide.mpr (by omega)

lemma libcSigset_eq : macosToLinuxSigset set &&& ~~~(sigbit 32 ||| sigbit 33) = macosToLinuxSigset set := by
  have small : ∀ ms ∈ signals, (macosSigToLinux (BitVec.ofNat 32 ms)).toNat < 32 := by decide +kernel
  refine bits_iff.mpr fun k lt => ?_
  rw [BitVec.getLsbD_and, getLsbD_compl lt, BitVec.getLsbD_or, getLsbD_sigbit (by decide) (by decide),
    getLsbD_sigbit (by decide) (by decide), ← Bool.decide_or]
  by_cases low : k < 31
  · rw [decide_eq_false (by omega), Bool.not_false, Bool.and_true]
  · have out : (macosToLinuxSigset set).getLsbD k = false := by
      rw [macosToLinuxSigset, getLsbD_shimMask, List.any_eq_false]
      intro ms mem found
      have := small ms mem
      have at_k := of_decide_eq_true (Bool.and_eq_true_iff.mp found).2
      omega
    rw [out, Bool.false_and]

lemma libcSigset_and_eq {t : W64} :
    macosToLinuxSigset set &&& t &&& ~~~(sigbit 32 ||| sigbit 33) = macosToLinuxSigset set &&& t := by
  rw [BitVec.and_assoc, BitVec.and_comm t, ← BitVec.and_assoc, libcSigset_eq]

section Algebra

variable {a c : W64}

lemma unblocked_eq_blocked_iff :
    c &&& ~~~(a &&& ~~~sigbit 11 &&& ~~~sigbit 6) = c ||| a &&& ~~~protectedMask ↔
      a &&& ~~~protectedMask = 0 ∧ a &&& c &&& (sigbit 4 ||| sigbit 7) = 0 := by
  rw [bits_iff, eq_zero_iff, eq_zero_iff, ← forall₂_and]
  refine forall₂_congr fun k lt => ?_
  simp only [protectedMask, BitVec.getLsbD_and, BitVec.getLsbD_or, getLsbD_compl lt]
  rw [getLsbD_sigbit (by decide) (by decide), getLsbD_sigbit (by decide) (by decide),
    getLsbD_sigbit (by decide) (by decide), getLsbD_sigbit (by decide) (by decide)]
  cases a.getLsbD k with
  | false => simp
  | true =>
    cases c.getLsbD k with
    | false => simp
    | true =>
      -- the positions of the four signals are different
      simp only [Bool.true_and, Bool.true_or, Bool.or_eq_true, Bool.not_eq_true',
        Bool.not_eq_false', Bool.and_eq_false_iff, Bool.or_eq_false_iff, decide_eq_true_eq,
        decide_eq_false_iff_not]
      omega

lemma set_eq_unblocked_iff : a = c &&& ~~~a ↔ a = 0 ∧ c = 0 := by
  rw [bits_iff, eq_zero_iff, eq_zero_iff, ← forall₂_and]
  refine forall₂_congr fun k lt => ?_
  rw [BitVec.getLsbD_and, getLsbD_compl lt]
  cases a.getLsbD k <;> cases c.getLsbD k <;> decide

lemma same_eq_blocked_iff : c = c ||| a ↔ a &&& ~~~c = 0 := by
  rw [bits_iff, eq_zero_iff]
  refine forall₂_congr fun k lt => ?_
  rw [BitVec.getLsbD_or, BitVec.getLsbD_and, getLsbD_compl lt]
  cases a.getLsbD k <;> cases c.getLsbD k <;> decide

lemma same_eq_unblocked_iff : c = c &&& ~~~a ↔ a &&& c = 0 := by
  rw [bits_iff, eq_zero_iff]
  refine forall₂_congr fun k lt => ?_
  rw [BitVec.getLsbD_and, BitVec.getLsbD_and, getLsbD_compl lt]
  cases a.getLsbD k <;> cases c.getLsbD k <;> decide

lemma deliverable_blocked : Deliverable c (c ||| a &&& ~~~protectedMask) := by
  intro sig mem on
  have kept : protectedMask.getLsbD (sig - 1) = true := by
    have all : ∀ sig ∈ protectedSignals, protectedMask.getLsbD (sig - 1) = true := by decide
    exact all sig mem
  rw [BitVec.getLsbD_or, BitVec.getLsbD_and, BitVec.getLsbD_not, kept] at on
  simpa using on

lemma deliverable_unblocked : Deliverable c (c &&& ~~~a) := by
  intro sig _ on
  rw [BitVec.getLsbD_and] at on
  exact (Bool.and_eq_true_iff.mp on).1

end Algebra

lemma sigprocmask_block : sigprocmask found 1 (some set) true cur =
    ⟨some (linuxToMacosSigset cur), cur ||| asked set &&& ~~~protectedMask⟩ := by
  unfold sigprocmask libcSigmask
  simp only [linuxHow, kernelSigmask, Option.map_some, delProtected, libcSigset_and_eq, true_or, if_true,
    ite_self, asked]
  rw [BitVec.and_assoc, BitVec.and_assoc, BitVec.and_comm (~~~protectedMask)]

lemma sigprocmask_unblock : sigprocmask found 2 (some set) true cur =
    ⟨some (linuxToMacosSigset cur), cur &&& ~~~asked set⟩ := by
  have how : linuxHow 2 = SIG_UNBLOCK := by decide
  have other : SIG_UNBLOCK ≠ SIG_BLOCK ∧ SIG_UNBLOCK ≠ SIG_SETMASK := by decide
  unfold sigprocmask libcSigmask
  simp only [how, kernelSigmask, Option.map_some, libcSigset_eq, other, or_self, if_true, if_false, ite_self, asked]

lemma sigprocmask_setmask : sigprocmask found 3 (some set) true cur =
    ⟨some (linuxToMacosSigset cur), asked set &&& ~~~protectedMask⟩ := by
  have how : linuxHow 3 = SIG_SETMASK := by decide
  have other : SIG_SETMASK ≠ SIG_BLOCK ∧ SIG_SETMASK ≠ SIG_UNBLOCK := by decide
  unfold sigprocmask libcSigmask
  simp only [how, kernelSigmask, Option.map_some, delProtected, libcSigset_and_eq, or_true, if_true, other,
    if_false, ite_self, asked]
  rw [BitVec.and_assoc, BitVec.and_assoc, BitVec.and_comm (~~~protectedMask)]

lemma rawMasked_block (emt : set.getLsbD 6 = false) (info : set.getLsbD 28 = false) :
    rawMasked 1 set cur = ⟨some (macosMaskOf fun ls => cur.getLsbD (ls - 1)),
      cur &&& ~~~(asked set &&& ~~~sigbit 11 &&& ~~~sigbit 6)⟩ := by
  have cleared : rawSet 1 set &&& ~~~unblockable = asked set &&& ~~~sigbit 11 &&& ~~~sigbit 6 := by
    rw [rawSet, if_pos (.inl rfl), linuxMaskOf_eq emt info, asked]
    show _ &&& ~~~sigbit 11 &&& ~~~sigbit 6 &&& _ = _
    ac_rfl
  rw [← cleared]
  rfl

lemma rawMasked_unblock (emt : set.getLsbD 6 = false) (info : set.getLsbD 28 = false) :
    rawMasked 2 set cur = ⟨some (macosMaskOf fun ls => cur.getLsbD (ls - 1)), asked set⟩ := by
  have whole : rawSet 2 set &&& ~~~unblockable = asked set := by
    rw [rawSet, if_neg (by decide), linuxMaskOf_eq emt info, asked]
  rw [← whole]
  rfl

lemma rawMasked_setmask : rawMasked 3 set cur = ⟨none, cur⟩ := rfl

lemma masksAgree_iff {raw shim : MaskResult} (deliverable : Deliverable cur shim.blocked) :
    MasksAgree v cur raw shim ↔ raw.oldset = shim.oldset ∧ v.mask cur raw.blocked = shim.blocked := by
  constructor
  · intro agree
    exact ⟨agree.oldset, agree.mask⟩
  · rintro ⟨oldset, mask⟩
    exact ⟨mask, oldset, mask ▸ deliverable, deliverable⟩

lemma sameOldset_iff : some (macosMaskOf fun ls => cur.getLsbD (ls - 1)) = some (linuxToMacosSigset cur) ↔
    SameOldset cur := by
  rw [Option.some_inj, oldsets_eq_iff]
  exact ⟨fun h => ⟨h.1, h.2.1, h.2.2⟩, fun h => ⟨h.1, h.2, h.3⟩⟩

/-- The handler does not translate `how`, so blocking becomes unblocking, unblocking becomes setting, and
    setting fails. -/
theorem sigprocmask_agree_iff (nr : r.bsdNr = MACOS_SYS_sigprocmask) (given : r.rsi ≠ 0) (old : r.rdx ≠ 0)
    (hows : how = 1 ∨ how = 2 ∨ how = 3) (rdi : r.rdi = how.setWidth 64)
    (emt : (w.mem.read32 r.rsi).getLsbD 6 = false) (info : (w.mem.read32 r.rsi).getLsbD 28 = false) :
    MasksAgree v cur (rawSigprocmask env r w cur)
        (sigprocmask found how (some (w.mem.read32 r.rsi)) true cur) ↔
      SameOldset cur ∧ SameMask v how (w.mem.read32 r.rsi) cur := by
  rw [rawSigprocmask_eq nr given old, rdi]
  generalize w.mem.read32 r.rsi = set at emt info ⊢
  rcases hows with rfl | rfl | rfl
  · have first : ∀ {p q : Prop}, p ↔ (1 : W32) = 1 ∧ p ∨ (1 : W32) = 2 ∧ q := by
      simp
    show MasksAgree v cur (rawMasked 1 set cur) _ ↔ _
    rw [rawMasked_block emt info, sigprocmask_block, masksAgree_iff deliverable_blocked]
    refine and_congr sameOldset_iff ?_
    cases v with
    | inHandler => exact unblocked_eq_blocked_iff.trans first
    | afterReturn => exact same_eq_blocked_iff.trans first
  · have second : ∀ {p q : Prop}, p ↔ (2 : W32) = 1 ∧ q ∨ (2 : W32) = 2 ∧ p := by
      simp
    show MasksAgree v cur (rawMasked 2 set cur) _ ↔ _
    rw [rawMasked_unblock emt info, sigprocmask_unblock, masksAgree_iff deliverable_unblocked]
    refine and_congr sameOldset_iff ?_
    cases v with
    | inHandler => exact set_eq_unblocked_iff.trans second
    | afterReturn => exact same_eq_unblocked_iff.trans second
  · -- the kernel rejects the number and nothing is reported
    show MasksAgree v cur (rawMasked 3 set cur) _ ↔ _
    rw [rawMasked_setmask, sigprocmask_setmask]
    refine iff_of_false (fun agree => nomatch agree.oldset) fun same => ?_
    cases v with
    | inHandler | afterReturn => exact absurd same.2 (by simp [SameMask])

end Agreement

def maskEnv : MaskEnv where
  sys := { smallEnv.sys with linuxSetSigprocmask := 0x300, linuxOsetSigprocmask := 0x308 }
  set_ne := by decide
  oset_ne := by decide
  rest := fun _ _ m => (0, m)

def maskRegs (how : W64) : Regs :=
  callRegs 48 how 0x1000 0x2000 0

def maskWorld (set : W32) : World := ⟨Mem.write32 (fun _ => 0) 0x1000 set, 0, []⟩

theorem sigprocmask_agree_iff_ill :
    MasksAgree .inHandler 0 (rawSigprocmask maskEnv (maskRegs 1) (maskWorld 0x8) 0)
      (sigprocmask true 1 (some ((maskWorld 0x8).mem.read32 0x1000)) true 0) :=
  (sigprocmask_agree_iff (by decide) (by decide) (by decide) (.inl rfl) rfl (by decide +kernel)
    (by decide +kernel)).mpr ⟨⟨rfl, rfl, nofun⟩, .inl ⟨rfl, by decide +kernel, by decide +kernel⟩⟩

/-- Blocking `SIGUSR1` when nothing is blocked, and setting the empty mask. -/
theorem sigprocmask_differ :
    (¬ MasksAgree .inHandler 0 (rawSigprocmask maskEnv (maskRegs 1) (maskWorld 0x20000000) 0)
        (sigprocmask true 1 (some 0x20000000) true 0) ∧
      ¬ MasksAgree .afterReturn 0 (rawSigprocmask maskEnv (maskRegs 1) (maskWorld 0x20000000) 0)
        (sigprocmask true 1 (some 0x20000000) true 0)) ∧
    (¬ MasksAgree .inHandler 0 (rawSigprocmask maskEnv (maskRegs 3) (maskWorld 0) 0)
        (sigprocmask true 3 (some 0) true 0) ∧
      ¬ MasksAgree .afterReturn 0 (rawSigprocmask maskEnv (maskRegs 3) (maskWorld 0) 0)
        (sigprocmask true 3 (some 0) true 0)) := by
  refine ⟨⟨fun agree => ?_, fun agree => ?_⟩, fun agree => ?_, fun agree => ?_⟩
  · exact absurd agree.mask (by decide +kernel)
  · exact absurd agree.mask (by decide +kernel)
  · exact absurd agree.oldset (by decide +kernel)
  · exact absurd agree.oldset (by decide +kernel)

end Macify.Signals
