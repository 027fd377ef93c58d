import Macify.Syscall.SigillHandler

/-!
# The result convention of the handler

A macOS syscall reports failure with `RAX = -1` and the carry flag set, success with the carry flag clear.
`sigill_convention_iff` says on which inputs a returning run obeys this: two exits do not write the carry flag, and one
of them does not convert its error.
-/

namespace Macify.Syscall
open Lib Image

def argFlagValues : List (BitVec 16) :=
  [0, ARG_FORCE_SLOW, ARG_OPEN_FLAGS, ARG_MMAP_FLAGS, ARG_KILL_SIGNAL, ARG_FCNTL_CMD, ARG_MADVISE,
   ARG_SIGACTION ||| ARG_FORCE_SLOW, ARG_SIGPROCMASK ||| ARG_FORCE_SLOW,
   ARG_SIGALTSTACK ||| ARG_FORCE_SLOW]

lemma argFlags_rule {P : ℕ → BitVec 16 → Prop} (zero : ∀ nr, P nr 0)
    (all : ∀ p ∈ bsdArgFlagsEntries, P p.1 p.2) (nr : ℕ) : P nr (bsdArgFlags nr) := by
  unfold bsdArgFlags
  cases h : bsdArgFlagsEntries.lookup nr with
  | none => exact zero nr
  | some v => exact all (nr, v) (mem_of_lookup h)

lemma argFlags_mem (nr : ℕ) : bsdArgFlags nr ∈ argFlagValues :=
  argFlags_rule (P := fun _ v => v ∈ argFlagValues) (fun _ => List.mem_cons_self)
    (by decide +kernel) nr

inductive Translation : BitVec 16 → Prop where
  | none : Translation 0
  | forceSlow : Translation ARG_FORCE_SLOW
  | openFlags : Translation ARG_OPEN_FLAGS
  | mmapFlags : Translation ARG_MMAP_FLAGS
  | killSignal : Translation ARG_KILL_SIGNAL
  | fcntlCmd : Translation ARG_FCNTL_CMD
  | madvise : Translation ARG_MADVISE
  | sigaction : Translation (ARG_SIGACTION ||| ARG_FORCE_SLOW)
  | sigprocmask : Translation (ARG_SIGPROCMASK ||| ARG_FORCE_SLOW)
  | sigaltstack : Translation (ARG_SIGALTSTACK ||| ARG_FORCE_SLOW)

lemma argFlags_cases (nr : ℕ) : Translation (bsdArgFlags nr) := by
  have all : ∀ v ∈ argFlagValues, Translation v := by
    simp only [argFlagValues, List.forall_mem_cons]
    exact ⟨.none, .forceSlow, .openFlags, .mmapFlags, .killSignal, .fcntlCmd, .madvise, .sigaction,
      .sigprocmask, .sigaltstack, nofun⟩
  exact all _ (argFlags_mem nr)

section Branches

variable (env : Env) (kernel : Kernel) (f : Frame)

@[simp] lemma translateArgs_open : translateArgs env kernel ARG_OPEN_FLAGS f = .ok f.openFlags := rfl

@[simp] lemma translateArgs_fcntl : translateArgs env kernel ARG_FCNTL_CMD f = f.fcntlCmd env kernel := by
  have h : translateArgs env kernel ARG_FCNTL_CMD f = f.fcntlCmd env kernel >>= .ok := rfl
  rw [h]
  cases f.fcntlCmd env kernel <;> rfl

@[simp] lemma translateArgs_sigaction :
    translateArgs env kernel (ARG_SIGACTION ||| ARG_FORCE_SLOW) f = f.sigaction env := by
  have h : translateArgs env kernel (ARG_SIGACTION ||| ARG_FORCE_SLOW) f =
      f.sigaction env >>= .ok := rfl
  rw [h]
  cases f.sigaction env <;> rfl

@[simp] lemma translateArgs_sigprocmask :
    translateArgs env kernel (ARG_SIGPROCMASK ||| ARG_FORCE_SLOW) f =
      .ok (f.sigprocmask env) := rfl

@[simp] lemma translateArgs_sigaltstack :
    translateArgs env kernel (ARG_SIGALTSTACK ||| ARG_FORCE_SLOW) f =
      .ok (f.sigaltstack env) := rfl

end Branches

def UnsupportedFcntl (r : Regs) : Prop :=
  let cmd := r.rsi.setWidth 32
  bsdArgFlags r.bsdNr &&& ARG_FCNTL_CMD ≠ 0 ∧
    cmd ≠ MACOS_F_GETPATH ∧ cmd ≠ MACOS_F_FULLFSYNC ∧ cmd ∉ fcntlNoOps ∧
    (translateFcntlCmd cmd).slt 0 = true

/-- A `sigaction` on `SIGILL`, or on `SIGSEGV` or `SIGBUS` in a process that is not a Go process. -/
def ProtectedSigaction (env : Env) (r : Regs) : Prop :=
  bsdArgFlags r.bsdNr &&& ARG_SIGACTION ≠ 0 ∧
    (r.rdi = 4 ∨ (r.rdi = 11 ∨ r.rdi = 10) ∧ env.tlsGAddr = 0)

lemma flagged_entry {nr flag} (h : bsdArgFlags nr &&& flag ≠ 0) (nf : ARG_FORCE_SLOW &&& flag = 0) :
    nr < bsdSyscallMax ∧ bsdToLinux nr ≠ 0 ∧ nr ≠ 1 := by
  have rule := argFlags_rule (P := fun nr v =>
    v = 0 ∨ nr < bsdSyscallMax ∧ bsdToLinux nr ≠ 0 ∧ (nr = 1 → v = ARG_FORCE_SLOW))
    (fun _ => .inl rfl) (by decide +kernel) nr
  rcases rule with zero | ⟨lt, ne, one⟩
  · rw [zero] at h
    exact absurd BitVec.zero_and h
  · refine ⟨lt, ne, fun e => h ?_⟩
    rw [one e]
    exact nf

section Exits

variable {env : Env} {kernel : Kernel} {r : Regs} {w : World}

lemma dispatch_flagged {flag} (h : bsdArgFlags r.bsdNr &&& flag ≠ 0) (nf : ARG_FORCE_SLOW &&& flag = 0) :
    dispatch env kernel r w =
      conclude env kernel r.bsdNr
        (translateArgs env kernel (bsdArgFlags r.bsdNr) (.init r w)) := by
  obtain ⟨lt, ne, one⟩ := flagged_entry h nf
  unfold dispatch
  rw [if_neg (Nat.not_le.mpr lt), if_neg ne, if_neg one]

lemma argFlags_fcntl {nr} : bsdArgFlags nr &&& ARG_FCNTL_CMD ≠ 0 → bsdArgFlags nr = ARG_FCNTL_CMD :=
  argFlags_rule (P := fun _ v => v &&& ARG_FCNTL_CMD ≠ 0 → v = ARG_FCNTL_CMD)
    (fun _ h => absurd rfl h) (by decide +kernel) nr

lemma argFlags_sigaction {nr} : bsdArgFlags nr &&& ARG_SIGACTION ≠ 0 →
    bsdArgFlags nr = ARG_SIGACTION ||| ARG_FORCE_SLOW :=
  argFlags_rule (P := fun _ v => v &&& ARG_SIGACTION ≠ 0 → v = ARG_SIGACTION ||| ARG_FORCE_SLOW)
    (fun _ h => absurd rfl h) (by decide +kernel) nr

lemma dispatch_unsupported (h : UnsupportedFcntl r) : dispatch env kernel r w = (.unsupportedFcntl, w) := by
  obtain ⟨flag, getpath, fullfsync, noop, neg⟩ := h
  rw [dispatch_flagged flag (by decide), argFlags_fcntl flag, translateArgs_fcntl, Frame.fcntlCmd]
  simp only [Frame.init, Regs.args, getpath, fullfsync, noop, neg, if_true, if_false]
  rfl

lemma dispatch_protected (h : ProtectedSigaction env r) : dispatch env kernel r w = (.protectedSigaction, w) := by
  obtain ⟨flag, sig⟩ := h
  have kept : r.rdi = 4 ∨ r.rdi = 11 ∨ r.rdi = 10 := by tauto
  have notGo : ¬(r.rdi ≠ 4 ∧ env.tlsGAddr ≠ 0) := by tauto
  rw [dispatch_flagged flag (by decide), argFlags_sigaction flag, translateArgs_sigaction, Frame.sigaction]
  simp only [Frame.init, Regs.args, kept, notGo, if_true, if_false]
  rfl

lemma dispatch_exit (kernel : Kernel) (w : World) (nu : ¬UnsupportedFcntl r) (np : ¬ProtectedSigaction env r) :
    (∃ s w', dispatch env kernel r w = (.ended s, w')) ∨
    (∃ result w', dispatch env kernel r w = (.finish result, w')) ∨
    (∃ result w', dispatch env kernel r w = (.tail result, w')) := by
  have unimpl : ∀ e, e = unimplemented env w →
      (∃ s w', e = (.ended s, w')) ∨ (∃ result w', e = (.finish result, w')) ∨
        (∃ result w', e = (.tail result, w')) := by
    rintro _ rfl
    unfold unimplemented
    cases env.lenient with
    | true => exact .inr (.inl ⟨_, _, rfl⟩)
    | false => exact .inl ⟨_, _, rfl⟩
  unfold dispatch
  split
  · exact unimpl _ rfl
  split
  · exact unimpl _ rfl
  split
  · exact .inl ⟨_, _, rfl⟩
  have kind := argFlags_cases r.bsdNr
  generalize flags : bsdArgFlags r.bsdNr = v at kind ⊢
  cases kind with
  | fcntlCmd =>
    have flag : bsdArgFlags r.bsdNr &&& ARG_FCNTL_CMD ≠ 0 := by rw [flags]; decide
    rw [translateArgs_fcntl, Frame.fcntlCmd]
    dsimp only
    split
    · exact .inr (.inl ⟨_, _, rfl⟩)
    split
    · exact .inr (.inl ⟨_, _, rfl⟩)
    split
    · exact .inr (.inl ⟨_, _, rfl⟩)
    split
    · exact absurd ⟨flag, ‹_›, ‹_›, ‹_›, ‹_›⟩ nu
    · exact .inr (.inr ⟨_, _, rfl⟩)
  | sigaction =>
    have flag : bsdArgFlags r.bsdNr &&& ARG_SIGACTION ≠ 0 := by rw [flags]; decide
    rw [translateArgs_sigaction, Frame.sigaction]
    dsimp only
    split
    next kept =>
      -- a signal that macify keeps for itself is let through in a Go process only
      split
      · exact .inr (.inr ⟨_, _, rfl⟩)
      next notGo =>
        refine absurd ⟨flag, ?_⟩ np
        simp only [Frame.init, Regs.args] at kept notGo
        tauto
    next => exact .inr (.inr ⟨_, _, rfl⟩)
  | none | forceSlow | openFlags | mmapFlags | killSignal | madvise | sigprocmask | sigaltstack =>
    exact .inr (.inr ⟨_, _, rfl⟩)

lemma dispatch_tail {result w'} (run : dispatch env kernel r w = (.tail result, w')) :
    ∃ f, issue env kernel r.bsdNr f = (.tail result, w') := by
  have unimpl : unimplemented env w ≠ (.tail result, w') := by
    unfold unimplemented
    cases env.lenient <;> exact nofun
  unfold dispatch at run
  split at run
  · exact absurd run unimpl
  split at run
  · exact absurd run unimpl
  split at run
  · cases run
  have kind := argFlags_cases r.bsdNr
  generalize bsdArgFlags r.bsdNr = v at kind run
  cases kind with
  | fcntlCmd =>
    rw [translateArgs_fcntl, Frame.fcntlCmd] at run
    dsimp only at run
    split at run
    · cases run
    split at run
    · cases run
    split at run
    · cases run
    split at run
    · cases run
    · exact ⟨_, run⟩
  | sigaction =>
    rw [translateArgs_sigaction, Frame.sigaction] at run
    dsimp only at run
    split at run
    · split at run
      · exact ⟨_, run⟩
      · cases run
    · exact ⟨_, run⟩
  | none | forceSlow | openFlags | mmapFlags | killSignal | madvise | sigprocmask | sigaltstack =>
    exact ⟨_, run⟩

lemma sigill_errno {result w'} (err : isErr result = true)
    (run : dispatch env kernel r w = (.tail result, w') ∨ dispatch env kernel r w = (.finish result, w')) :
    ∃ r' w', sigillHandler env kernel r w = .returned r' w' ∧ w'.errno = (-result).setWidth 32 := by
  unfold sigillHandler
  rcases run with run | run
  · obtain ⟨f, issued⟩ := dispatch_tail run
    rw [run]
    refine ⟨_, _, rfl, ?_⟩
    unfold issue at issued
    cases issued
    rw [World.setErrno, if_pos err]
  · rw [run]
    refine ⟨_, _, rfl, ?_⟩
    rw [World.setErrno, if_pos err]

end Exits

def Exit.result : Exit → Option W64
  | .ended _ => none
  | .finish result => some result
  | .unsupportedFcntl => some (-EINVAL)
  | .protectedSigaction => some 0
  | .tail result => some result

/-- The registers `r'` report `result` to the guest that was interrupted with `r`. -/
structure Obeys (r r' : Regs) (result : W64) : Prop where
  rip : r'.rip = r.rip + 2
  others : r' = { r with rax := r'.rax, efl := r'.efl, rip := r'.rip }
  failed : isErr result = true → r'.rax = -1 ∧ r'.cf = true
  succeeded : isErr result = false → r'.cf = false ∧ r'.rax = result

lemma setCf_cf {r : Regs} {err} : (r.setCf err).cf = err := by
  cases err <;> simp [Regs.setCf, Regs.cf]

lemma obeys_report {r : Regs} {result} :
    Obeys r { r.setCf (isErr result) with rax := macosResult result, rip := r.rip + 2 } result where
  rip := rfl
  others := rfl
  failed err := by
    refine ⟨by simp [macosResult, err], ?_⟩
    show (r.setCf (isErr result)).cf = true
    rw [setCf_cf, err]
  succeeded ok := by
    refine ⟨?_, by simp [macosResult, ok]⟩
    show (r.setCf (isErr result)).cf = false
    rw [setCf_cf, ok]

/-- Exactly when it is not a `fcntl` with a command that Linux lacks, nor a protected `sigaction` with the carry flag
    set. -/
theorem sigill_convention_iff {env kernel r w r' w'} (run : sigillHandler env kernel r w = .returned r' w') :
    (∃ result, (dispatch env kernel r w).1.result = some result ∧ Obeys r r' result) ↔
      ¬UnsupportedFcntl r ∧ ¬(ProtectedSigaction env r ∧ r.cf = true) := by
  unfold sigillHandler at run
  by_cases un : UnsupportedFcntl r
  · rw [dispatch_unsupported un] at run ⊢
    cases run
    refine ⟨fun ⟨result, e, ob⟩ => ?_, fun ⟨nu, _⟩ => absurd un nu⟩
    cases e
    have bad : (-EINVAL : W64) = -1 := (ob.failed (by decide)).1
    exact absurd bad (by decide)
  by_cases pr : ProtectedSigaction env r
  · rw [dispatch_protected pr] at run ⊢
    cases run
    refine ⟨fun ⟨result, e, ob⟩ => ⟨un, fun ⟨_, cf⟩ => ?_⟩, fun ⟨_, ncf⟩ => ⟨0, rfl, ?_⟩⟩
    · cases e
      have clear := (ob.succeeded (by decide)).1
      rw [show r.cf = false from clear] at cf
      cases cf
    · refine ⟨rfl, rfl, fun h => absurd h (by decide), fun _ => ⟨?_, rfl⟩⟩
      exact Bool.eq_false_iff.mpr fun cf => ncf ⟨pr, cf⟩
  · refine ⟨fun _ => ⟨un, fun h => pr h.1⟩, fun _ => ?_⟩
    rcases dispatch_exit kernel w un pr with ⟨_, _, e⟩ | ⟨result, _, e⟩ | ⟨result, _, e⟩
    · rw [e] at run
      cases run
    · rw [e] at run ⊢
      cases run
      exact ⟨result, rfl, obeys_report⟩
    · rw [e] at run ⊢
      cases run
      exact ⟨result, rfl, obeys_report⟩

def plainEnv : Env where
  lenient := false
  tlsGAddr := 0
  goSignalWrapper := 0
  savedGoHandlers := 0
  kpath := 0x1000
  linuxSa := 0x1000
  linuxOldSa := 0x1000
  linuxSetSigprocmask := 0x1000
  linuxOsetSigprocmask := 0x1000
  linuxSsSigaltstack := 0x1000
  linuxOssSigaltstack := 0x1000
  fallbackSigstack := 0x1000

def answers (result : W64) : Kernel := fun _ _ m => (result, m)

def World.start : World := ⟨fun _ => 0, 0, []⟩

def callRegs (nr a1 a2 a3 efl : W64) : Regs :=
  ⟨0x2000000 + nr, 0, 0, a3, a2, a1, 0, 0, 0, 0, 0, 0, 0, 0, 0, 0, 0x1000, efl⟩

theorem sigill_convention_iff_write :
    ∃ r' w', sigillHandler plainEnv (answers 3) (callRegs 4 1 0 3 1) .start = .returned r' w' ∧
      ((∃ result, (dispatch plainEnv (answers 3) (callRegs 4 1 0 3 1) .start).1.result =
          some result ∧ Obeys (callRegs 4 1 0 3 1) r' result) ↔
        ¬UnsupportedFcntl (callRegs 4 1 0 3 1) ∧
          ¬(ProtectedSigaction plainEnv (callRegs 4 1 0 3 1) ∧ (callRegs 4 1 0 3 1).cf = true)) :=
  ⟨_, _, rfl, sigill_convention_iff rfl⟩

/-- `F_LOG2PHYS` returns `-EINVAL` with the carry flag clear, and `sigaction` on `SIGILL` returns `0` with it set. -/
theorem sigill_convention_broken :
    (∃ r' w', sigillHandler plainEnv (answers 0) (callRegs 92 1 49 0 0) .start = .returned r' w' ∧
      r'.rax = -EINVAL ∧ r'.cf = false ∧
      ¬∃ result, (dispatch plainEnv (answers 0) (callRegs 92 1 49 0 0) .start).1.result =
        some result ∧ Obeys (callRegs 92 1 49 0 0) r' result) ∧
    (∃ r' w', sigillHandler plainEnv (answers 0) (callRegs 46 4 0 0 1) .start = .returned r' w' ∧
      r'.rax = 0 ∧ r'.cf = true ∧
      ¬∃ result, (dispatch plainEnv (answers 0) (callRegs 46 4 0 0 1) .start).1.result =
        some result ∧ Obeys (callRegs 46 4 0 0 1) r' result) := by
  refine ⟨⟨_, _, rfl, rfl, rfl, ?_⟩, ⟨_, _, rfl, rfl, rfl, ?_⟩⟩
  · rintro ⟨result, e, ob⟩
    cases e
    exact absurd (ob.failed (by decide)).1 (by decide)
  · rintro ⟨result, e, ob⟩
    cases e
    exact absurd (ob.succeeded (by decide)).1 (by decide)

end Macify.Syscall
