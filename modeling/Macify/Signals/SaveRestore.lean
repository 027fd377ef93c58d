import Macify.Signals.Protection

/-!
# Saving and restoring an action

A library that replaces a handler for a while gives `sigaction` a second structure for the old action and
later hands that structure back. The shim translates the action on the way in, its flags and its mask
bit by bit, and copies the kernel's words on the way out.
-/

namespace Macify.Signals
open Lib Syscall

/-- A macOS signal with a Linux equivalent that the shim lets the guest handle. -/
structure FreeSignal (s : W32) : Prop where
  small : s.toNat < 32
  known : shimXlate.getD s.toNat 0 ≠ 0
  unprotected : s.toNat ∉ [4, 6, 10, 11, 14]

/-- The flags of an action are among the seven `SA_*` flags of `saFlagTable`. -/
def KnownFlags (act : MacosAction) : Prop := act.flags &&& ~~~0x7F = 0

def installed (env : SignalEnv) (resolved : Bool) (act : MacosAction) : LinuxAction :=
  let linuxAct := LinuxAction.withRestorer env
    ⟨act.handler, mapBits act.flags shimFlagTable 0, 0, shimMask act.mask⟩
  if resolved then { linuxAct with flags := linuxAct.flags ||| SA_RESTORER, restorer := env.libcRestorer }
  else linuxAct.misread

section Call

variable {env : SignalEnv} {s : W32} {act : MacosAction} {old : Bool} {st : SignalState}

structure FreeNumber (s sig : W32) : Prop where
  valid : (1 : W32).sle sig = true ∧ sig.sle 64 = true
  libc : ¬ (sig = 32 ∨ sig = 33)
  crash : ¬ (sig = SIGSEGV ∨ sig = SIGBUS)
  ill : sig ≠ SIGILL
  fixed : (sig = SIGKILL ∨ sig = SIGSTOP) ↔ (s = 9 ∨ s = 17)
  kept : ¬ (s = SIGSEGV ∨ s = SIGABRT ∨ s = SIGALRM)

lemma FreeSignal.number (free : FreeSignal s) : FreeNumber s (xlateSignum s) := by
  have entries : ∀ n : Fin 32, shimXlate.getD n 0 ≠ 0 → n.val ∉ [4, 6, 10, 11, 14] →
      let s := BitVec.ofNat 32 n
      let sig := xlateSignum s
      ((1 : W32).sle sig = true ∧ sig.sle 64 = true) ∧ ¬ (sig = 32 ∨ sig = 33) ∧
        ¬ (sig = SIGSEGV ∨ sig = SIGBUS) ∧ sig ≠ SIGILL ∧
        ((sig = SIGKILL ∨ sig = SIGSTOP) ↔ (s = 9 ∨ s = 17)) ∧
        ¬ (s = SIGSEGV ∨ s = SIGABRT ∨ s = SIGALRM) := by decide +kernel
  have entry := entries ⟨s.toNat, free.small⟩ free.known free.unprotected
  simp only [BitVec.ofNat_toNat, BitVec.setWidth_eq] at entry
  obtain ⟨valid, libc, crash, ill, fixed, kept⟩ := entry
  exact ⟨valid, libc, crash, ill, fixed, kept⟩

lemma install_free {sig : W32} (number : FreeNumber s sig) {st : SignalState} {linuxAct : LinuxAction} :
    install env sig (some linuxAct) st =
      if s = 9 ∨ s = 17 then (-1, st)
      else (0, st.setAction sig.toNat (if st.resolved then
        { linuxAct with flags := linuxAct.flags ||| SA_RESTORER, restorer := env.libcRestorer }
        else linuxAct.misread)) := by
  unfold install libcSigaction rtSigaction
  simp only [number.libc, number.valid, number.fixed, if_false, and_self, if_true, Option.map_some]
  cases st.resolved with
  | false | true => rfl

lemma sigaction_free (free : FreeSignal s) (notGo : env.sys.tlsGAddr = 0) :
    sigaction env s (some act) old st =
      let resolved := st.resolved || env.libcFound
      let st := { st with resolved := resolved }
      if s = 9 ∨ s = 17 then ⟨-1, none, st⟩
      else
        ⟨0, if old then some (oldactOf env resolved (st.actions (xlateSignum s).toNat)) else none,
          st.setAction (xlateSignum s).toNat (installed env resolved act)⟩ := by
  have number := free.number
  have action : shimAction env (xlateSignum s) act = some (LinuxAction.withRestorer env
      ⟨act.handler, mapBits act.flags shimFlagTable 0, 0, shimMask act.mask⟩) := by
    unfold shimAction
    simp only [number.crash, number.ill, notGo, ne_eq, not_true_eq_false, if_false]
  have save : ∀ st, shimSave env (xlateSignum s) act st = st := fun st =>
    if_neg fun h => h.1 notGo
  unfold sigaction
  rw [if_neg fun h => number.kept h.1]
  simp only [Option.bind_some, action, Option.elim_some, save, install_free number]
  split
  · have failed : (-1 : W32) ≠ 0 := by decide
    rw [if_neg fun h => failed h.2]
  · simp only [and_true]
    rfl

end Call

section RoundTrip

variable {env : SignalEnv} {s : W32} {a b : MacosAction} {st : SignalState}

/-- `sigaction(s, a, NULL); sigaction(s, b, &old); sigaction(s, &old, NULL)` has the effect of `sigaction(s, a,
    NULL)` alone, and `old` is `a`. -/
def Restores (env : SignalEnv) (s : W32) (a b : MacosAction) (st : SignalState) : Prop :=
  let first := sigaction env s (some a) false st
  let second := sigaction env s (some b) true first.state
  ∃ old, second.oldact = some old ∧ old = a ∧
    let final := (sigaction env s (some old) false second.state).state.actions (xlateSignum s).toNat
    let alone := first.state.actions (xlateSignum s).toNat
    final.handler = alone.handler ∧ final.flags = alone.flags ∧ final.mask = alone.mask

lemma oldactOf_installed_resolved (known : KnownFlags a) : oldactOf env true (installed env true a) ≠ a := by
  intro same
  have kept := congrArg (fun act => act.flags.getLsbD 26) same
  have set : (oldactOf env true (installed env true a)).flags.getLsbD 26 = true := by
    show (_ ||| SA_RESTORER).getLsbD 26 = true
    rw [BitVec.getLsbD_or, show SA_RESTORER.getLsbD 26 = true by decide, Bool.or_true]
  have clear := congrArg (fun flags => flags.getLsbD 26) known
  simp only [BitVec.getLsbD_and] at clear
  rw [← kept, set] at clear
  exact absurd clear (by decide)

lemma installed_unresolved : installed env false a = ⟨a.handler, (shimMask a.mask).setWidth 32, 0, 0⟩ := by
  rw [installed, if_neg Bool.false_ne_true, LinuxAction.withRestorer]
  split
  · rfl
  · rfl

lemma oldactOf_installed_unresolved :
    oldactOf env false (installed env false a) = a ↔
      (shimMask a.mask).setWidth 32 = a.mask ∧ env.stackFlags = a.flags := by
  rw [installed_unresolved]
  cases a
  simp [oldactOf]

/-- An action comes back only when `sigaction` is not found, and then by accident: the kernel takes the mask for
    the flags, and the old flags are what was on the stack. -/
theorem restores_iff (free : FreeSignal s) (notGo : env.sys.tlsGAddr = 0) (known : KnownFlags a) :
    Restores env s a b st ↔
      (st.resolved || env.libcFound) = false ∧ s ≠ 9 ∧ s ≠ 17 ∧
        (shimMask a.mask).setWidth 32 = a.mask ∧ env.stackFlags = a.flags := by
  unfold Restores
  simp only [sigaction_free free notGo]
  by_cases fixed : s = 9 ∨ s = 17
  · simp only [fixed, if_true]
    refine iff_of_false nofun fun h => ?_
    exact fixed.elim h.2.1 h.2.2.1
  · simp only [fixed, if_false, if_true, SignalState.setAction, Bool.or_assoc, Bool.or_self, Option.some_inj]
    cases found : st.resolved || env.libcFound with
    | true =>
      refine iff_of_false ?_ nofun
      rintro ⟨old, eq, same, -⟩
      exact oldactOf_installed_resolved known (eq.trans same)
    | false =>
      obtain ⟨kill, stop⟩ := not_or.mp fixed
      rw [← oldactOf_installed_unresolved]
      constructor
      · rintro ⟨old, eq, same, -⟩
        exact ⟨rfl, kill, stop, eq.trans same⟩
      · rintro ⟨-, -, -, same⟩
        exact ⟨a, same, rfl, rfl, rfl, rfl⟩

end RoundTrip

def libclessEnv : SignalEnv := { smallEnv with libcFound := false, stackFlags := 2 }

theorem restores_iff_libcless :
    Restores libclessEnv 15 ⟨0x7000, 0x2, 0x2⟩ ⟨0x7100, 0, 0⟩ smallStart :=
  (restores_iff ⟨by decide, by decide, by decide⟩ rfl (by unfold KnownFlags; decide)).mpr
    ⟨by decide, by decide, by decide, by decide +kernel, rfl⟩

/-- The mask `SIGUSR1` and the flag `SA_RESTART` come back as the Linux words, and what is then installed has
    neither. -/
theorem restores_fails :
    ¬ Restores smallEnv 15 ⟨0x7000, 0x20000000, 0x2⟩ ⟨0x7100, 0, 0⟩ smallStart ∧
      let first := sigaction smallEnv 15 (some ⟨0x7000, 0x20000000, 0x2⟩) false smallStart
      let second := sigaction smallEnv 15 (some ⟨0x7100, 0, 0⟩) true first.state
      let third := sigaction smallEnv 15 second.oldact false second.state
      second.oldact = some ⟨0x7000, 0x200, 0x14000000⟩ ∧
        first.state.actions 15 = ⟨0x7000, 0x14000000, 0x3000, 0x200⟩ ∧
        third.state.actions 15 = ⟨0x7000, 0x04000000, 0x3000, 0x40⟩ := by
  refine ⟨?_, by decide +kernel⟩
  rintro ⟨old, eq, rfl, -⟩
  exact absurd eq (by decide +kernel)

end Macify.Signals
