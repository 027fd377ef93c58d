import Macify.Syscall.Routing
import Macify.Signals.MaskAgreement

/-!
# The raw `sigaction` syscall

What `sigill_handler` makes of a `sigaction` on a signal that it does not keep for itself. The signal
number is translated at the jump for `SIGSEGV` and `SIGBUS` of a Go process, and again together with the
action. The fourth argument, the size of a signal set, is the guest's register. The mask of the old action
is read one bit too high.
-/

namespace Macify.Signals
open Lib Syscall

def rawFrame (env : Env) (r : Regs) (w : World) : Frame :=
  match (Frame.init r w).sigaction env with
  | .ok f => f
  | .error _ => Frame.init r w

def rawReply (env : Env) (kernel : Kernel) (r : Regs) (w : World) : W64 × Mem :=
  kernel SYS_rt_sigaction (rawFrame env r w).args (rawFrame env r w).world.mem

def keptMask (env : Env) (m : Mem) : W64 := m.read64 (env.linuxOldSa + 24)

/-- The same once the handler is stored at `oldact`. It is another only if that overlaps `linux_old_sa`. -/
def seenMask (env : Env) (m : Mem) (oldact : W64) : W64 :=
  keptMask env (m.write64 oldact (m.read64 env.linuxOldSa))

/-- The number is translated once, the size of a set is `8`, and the old mask has the kernel's signals, apart from
    `SIGEMT` and `SIGINFO`. -/
structure TranslatesSigaction (env : Env) (kernel : Kernel) (r : Regs) (w : World) : Prop where
  issued : ∃ a, (dispatch env kernel r w).2.calls = w.calls ++ [(SYS_rt_sigaction, a)] ∧
    a.a1 = viaInt translateKillSignal r.rdi ∧ a.a4 = 8
  oldmask : r.rdx ≠ 0 → (rawReply env kernel r w).1 = 0 → ∀ m ∈ signals, m ≠ 7 → m ≠ 29 →
    ((dispatch env kernel r w).2.mem.read32 (r.rdx + 8)).getLsbD (m - 1) =
      (keptMask env (rawReply env kernel r w).2).getLsbD
        ((translateKillSignal (BitVec.ofNat 32 m)).toNat - 1)

/-- The number is not translated without an action, and twice for the macOS `SIGBUS` of a Go process with an action. -/
def NumberOnce (env : Env) (r : Regs) : Prop :=
  if r.rsi = 0 then viaInt translateKillSignal r.rdi = r.rdi ∨ env.tlsGAddr ≠ 0 ∧ r.rdi = 10
  else ¬ (env.tlsGAddr ≠ 0 ∧ r.rdi = 10)

/-- A signal and the one after it are both in the mask or both not. `SIGUSR1`, which is reported as `SIGEMT`, is not
    in it. -/
structure MaskReadable (seen kept : W64) : Prop where
  shifted : ∀ m ∈ signals, m ≠ 7 → m ≠ 29 → m ≠ 30 →
    seen.getLsbD (translateKillSignal (BitVec.ofNat 32 m)).toNat =
      kept.getLsbD ((translateKillSignal (BitVec.ofNat 32 m)).toNat - 1)
  usr1 : kept.getLsbD 9 = false

section Frames

variable {env : Env} {kernel : Kernel} {r : Regs} {w : World}

def numberAtLabel (env : Env) (r : Regs) : W64 :=
  if (r.rdi = 11 ∨ r.rdi = 10) ∧ env.tlsGAddr ≠ 0 then viaInt translateKillSignal r.rdi else r.rdi

lemma sigaction_unprotected (nr : r.bsdNr = MACOS_SYS_sigaction) (free : ¬ ProtectedSigaction env r) :
    (Frame.init r w).sigaction env =
      .ok ((Frame.init { r with rdi := numberAtLabel env r } w).translateSigaction env) := by
  have flag : bsdArgFlags r.bsdNr &&& ARG_SIGACTION ≠ 0 := by rw [nr]; decide
  have ill : r.rdi ≠ 4 := fun e => free ⟨flag, .inl e⟩
  by_cases crash : r.rdi = 11 ∨ r.rdi = 10
  · have go : env.tlsGAddr ≠ 0 := fun e => free ⟨flag, .inr ⟨crash, e⟩⟩
    have number : numberAtLabel env r = viaInt translateKillSignal r.rdi := if_pos ⟨crash, go⟩
    have kept : (Frame.init r w).args.a1 = 4 ∨ (Frame.init r w).args.a1 = 11 ∨
      (Frame.init r w).args.a1 = 10 := .inr crash
    rw [number, Frame.sigaction, if_pos kept, if_pos ⟨ill, go⟩]
    rfl
  · have number : numberAtLabel env r = r.rdi := if_neg fun h => crash h.1
    have other : ¬ ((Frame.init r w).args.a1 = 4 ∨ (Frame.init r w).args.a1 = 11 ∨
      (Frame.init r w).args.a1 = 10) := not_or.mpr ⟨ill, crash⟩
    rw [number, Frame.sigaction, if_neg other]

lemma rawFrame_eq (nr : r.bsdNr = MACOS_SYS_sigaction) (free : ¬ ProtectedSigaction env r) :
    rawFrame env r w = (Frame.init { r with rdi := numberAtLabel env r } w).translateSigaction env := by
  rw [rawFrame, sigaction_unprotected nr free]

lemma translateSigaction_frame {f : Frame} :
    (f.translateSigaction env).args.a1 =
        (if f.args.a2 = 0 then f.args.a1 else viaInt translateKillSignal f.args.a1) ∧
      (f.translateSigaction env).args.a4 = f.args.a4 ∧
      (f.translateSigaction env).sigactionOldact = f.args.a3 ∧
      (f.translateSigaction env).world.calls = f.world.calls := by
  unfold Frame.translateSigaction
  by_cases act : f.args.a2 = 0
  · simp only [act, if_true, and_self]
  · simp only [act, if_false]
    exact ⟨rfl, rfl, rfl, rfl⟩

lemma dispatch_unprotected (nr : r.bsdNr = MACOS_SYS_sigaction) (free : ¬ ProtectedSigaction env r) :
    dispatch env kernel r w = issue env kernel MACOS_SYS_sigaction (rawFrame env r w) := by
  have ok := @sigaction_unprotected env r w nr free
  rw [← rawFrame_eq nr free] at ok
  rcases @dispatch_sigaction env kernel r w nr with ⟨e, err, _⟩ | ⟨f, ok', eq, _⟩
  · rw [ok] at err
    cases err
  · rw [ok] at ok'
    cases ok'
    exact eq

lemma number_iff :
    (if r.rsi = 0 then numberAtLabel env r else viaInt translateKillSignal (numberAtLabel env r)) =
      viaInt translateKillSignal r.rdi ↔ NumberOnce env r := by
  unfold numberAtLabel NumberOnce
  by_cases go : (r.rdi = 11 ∨ r.rdi = 10) ∧ env.tlsGAddr ≠ 0
  · rw [if_pos go]
    rcases go.1 with segv | bus
    · have fixed : viaInt translateKillSignal 11 = 11 := by decide
      have other : ¬ (env.tlsGAddr ≠ 0 ∧ r.rdi = 10) := fun h => absurd (segv.symm.trans h.2) (by decide)
      rw [segv, fixed, fixed, ite_self]
      split
      · exact iff_of_true rfl (.inl rfl)
      · exact iff_of_true rfl (segv ▸ other)
    · have twice : viaInt translateKillSignal (viaInt translateKillSignal 10) ≠
        viaInt translateKillSignal 10 := by decide
      rw [bus]
      split
      · exact iff_of_true rfl (.inr ⟨go.2, rfl⟩)
      · exact iff_of_false twice fun h => h ⟨go.2, rfl⟩
  · have plain : ¬ (env.tlsGAddr ≠ 0 ∧ r.rdi = 10) := fun h => go ⟨.inr h.2, h.1⟩
    rw [if_neg go]
    split
    · rw [or_iff_left plain]
      exact eq_comm
    · exact iff_of_true rfl plain

lemma issued_iff (nr : r.bsdNr = MACOS_SYS_sigaction) (free : ¬ ProtectedSigaction env r) :
    (∃ a, (dispatch env kernel r w).2.calls = w.calls ++ [(SYS_rt_sigaction, a)] ∧
      a.a1 = viaInt translateKillSignal r.rdi ∧ a.a4 = 8) ↔ NumberOnce env r ∧ r.r10 = 8 := by
  obtain ⟨result, w', eq, calls⟩ := issue_calls env kernel MACOS_SYS_sigaction (rawFrame env r w)
  obtain ⟨a1, a4, -, same⟩ := @translateSigaction_frame env (.init { r with rdi := numberAtLabel env r } w)
  rw [← rawFrame_eq nr free] at a1 a4 same
  rw [dispatch_unprotected nr free, eq]
  have unique : (∃ a, w'.calls = w.calls ++ [(SYS_rt_sigaction, a)] ∧
      a.a1 = viaInt translateKillSignal r.rdi ∧ a.a4 = 8) ↔
      (rawFrame env r w).args.a1 = viaInt translateKillSignal r.rdi ∧ (rawFrame env r w).args.a4 = 8 := by
    rw [calls, same]
    constructor
    · rintro ⟨a, e, h⟩
      cases List.append_cancel_left e
      exact h
    · intro h
      exact ⟨_, rfl, h⟩
  rw [unique, a1, a4]
  exact and_congr_left fun _ => number_iff

lemma read32_copyOldact {m : Mem} {mo : W64} :
    (copyOldact env m mo).read32 (mo + 8) = macosMaskOf fun ls => (seenMask env m mo).getLsbD ls := by
  unfold copyOldact
  dsimp only
  rw [Mem.write32, Mem.read32_store_apart (by simp) (fun i lt => by rw [Mem.length_leBytes]; bv_omega),
    Mem.read32_write32_self]
  refine macosMaskOf_congr fun ls mem => ?_
  have lt : ls < 64 := (mem_signals.mp mem).2.trans (by decide)
  rw [seenMask, keptMask, Mem.getLsbD_read64 lt]

lemma mem_dispatch (nr : r.bsdNr = MACOS_SYS_sigaction) (free : ¬ ProtectedSigaction env r)
    (given : r.rdx ≠ 0) (success : (rawReply env kernel r w).1 = 0) :
    (dispatch env kernel r w).2.mem = copyOldact env (rawReply env kernel r w).2 r.rdx := by
  obtain ⟨-, -, oldact, -⟩ := @translateSigaction_frame env (.init { r with rdi := numberAtLabel env r } w)
  rw [← rawFrame_eq nr free] at oldact
  have number : bsdToLinux MACOS_SYS_sigaction = SYS_rt_sigaction := by decide
  have flags : bsdArgFlags MACOS_SYS_sigaction &&& ARG_SIGPROCMASK = 0 ∧
    bsdArgFlags MACOS_SYS_sigaction &&& ARG_SIGALTSTACK = 0 := by decide
  have ok : macosResult 0 = 0 ∧ isErr 0 = false := by decide
  have saved : (rawFrame env r w).sigactionOldact ≠ 0 := fun e => given (oldact.symm.trans e)
  rw [dispatch_unprotected nr free]
  unfold issue rawSyscall
  rw [rawReply] at success
  simp only [number, success, Frame.copyBack, saved, ok, flags, ne_eq, not_true_eq_false, not_false_eq_true,
    false_and, and_self, if_true, if_false, World.setErrno, Bool.false_eq_true]
  rw [oldact]
  rfl

end Frames

section Oldmask

variable {env : Env} {kernel : Kernel} {r : Regs} {w : World} {seen kept : W64}

lemma sources_single : ∀ m ∈ signals, m ≠ 7 → m ≠ 29 → m ≠ 30 →
    rawSources (m - 1) = [(translateKillSignal (BitVec.ofNat 32 m)).toNat] := by
  decide +kernel

lemma oldmask_iff :
    (∀ m ∈ signals, m ≠ 7 → m ≠ 29 → (macosMaskOf fun ls => seen.getLsbD ls).getLsbD (m - 1) =
      kept.getLsbD ((translateKillSignal (BitVec.ofNat 32 m)).toNat - 1)) ↔ MaskReadable seen kept := by
  have single : ∀ m ∈ signals, m ≠ 7 → m ≠ 29 → m ≠ 30 →
      (macosMaskOf fun ls => seen.getLsbD ls).getLsbD (m - 1) =
        seen.getLsbD (translateKillSignal (BitVec.ofNat 32 m)).toNat := by
    intro m mem emt info usr1
    rw [rawOldset_bit, sources_single m mem emt info usr1, List.any_cons, List.any_nil, Bool.or_false]
  have usr1 : (macosMaskOf fun ls => seen.getLsbD ls).getLsbD (30 - 1) = false := by
    rw [rawOldset_bit, sources_usr1.1, List.any_nil]
  constructor
  · intro same
    refine ⟨fun m mem emt info ne => ?_, ?_⟩
    · rw [← single m mem emt info ne, same m mem emt info]
    · exact (same 30 (by decide) (by decide) (by decide)).symm.trans usr1
  · intro readable m mem emt info
    by_cases ne : m = 30
    · rw [ne, usr1]
      exact readable.usr1.symm
    · rw [single m mem emt info ne, readable.shifted m mem emt info ne]

/-- A raw `sigaction` reaches the kernel as the number, size and masks say exactly when the number is translated once,
    `r10` happens to be 8, and the old mask survives its way back. -/
theorem raw_sigaction_translated_iff (nr : r.bsdNr = MACOS_SYS_sigaction) (free : ¬ ProtectedSigaction env r) :
    TranslatesSigaction env kernel r w ↔
      NumberOnce env r ∧ r.r10 = 8 ∧
        (r.rdx ≠ 0 → (rawReply env kernel r w).1 = 0 →
          MaskReadable (seenMask env (rawReply env kernel r w).2 r.rdx)
            (keptMask env (rawReply env kernel r w).2)) := by
  have oldmask : ∀ (given : r.rdx ≠ 0) (success : (rawReply env kernel r w).1 = 0),
      (∀ m ∈ signals, m ≠ 7 → m ≠ 29 →
        ((dispatch env kernel r w).2.mem.read32 (r.rdx + 8)).getLsbD (m - 1) =
          (keptMask env (rawReply env kernel r w).2).getLsbD
            ((translateKillSignal (BitVec.ofNat 32 m)).toNat - 1)) ↔
        MaskReadable (seenMask env (rawReply env kernel r w).2 r.rdx)
          (keptMask env (rawReply env kernel r w).2) := by
    intro given success
    rw [mem_dispatch nr free given success, read32_copyOldact]
    exact oldmask_iff
  rw [← and_assoc, ← issued_iff nr free]
  constructor
  · intro translates
    exact ⟨translates.issued, fun given success =>
      (oldmask given success).mp (translates.oldmask given success)⟩
  · rintro ⟨issued, readable⟩
    exact ⟨issued, fun given success => (oldmask given success).mpr (readable given success)⟩

end Oldmask

lemma TranslatesSigaction.args {env : Env} {kernel : Kernel} {r : Regs} {w : World}
    (translates : TranslatesSigaction env kernel r w) (a : Args)
    (known : (dispatch env kernel r w).2.calls = w.calls ++ [(SYS_rt_sigaction, a)]) :
    a.a1 = viaInt translateKillSignal r.rdi ∧ a.a4 = 8 := by
  obtain ⟨a', calls, right⟩ := translates.issued
  cases List.append_cancel_left (known.symm.trans calls)
  exact right

def actionEnv (tlsGAddr : W64) : Env := { plainEnv with tlsGAddr := tlsGAddr, linuxOldSa := 0x8100 }

def maskKernel (mask : W64) : Kernel := fun _ a m =>
  (0, if a.a3 = 0 then m else m.write64 (a.a3 + 24) mask)

def sigactionRegs (sig act oldact size : W64) : Regs := { callRegs 46 sig act oldact 0 with r10 := size }

theorem raw_sigaction_translated_iff_int :
    TranslatesSigaction (actionEnv 0) (maskKernel 0) (sigactionRegs 2 0x9000 0xA000 8) World.start :=
  (raw_sigaction_translated_iff (by decide) fun kept => absurd kept.2 (by decide)).mpr
    ⟨by unfold NumberOnce; decide, rfl, fun _ _ => ⟨by decide +kernel, by decide +kernel⟩⟩

/-- The size is what `r10` has; `SIGCHLD` is not translated, `SIGBUS` twice; the old mask `SIGINT` is not reported. -/
theorem raw_sigaction_untranslated :
    ¬ TranslatesSigaction (actionEnv 0) (maskKernel 0) (sigactionRegs 2 0x9000 0 0) World.start ∧
    ¬ TranslatesSigaction (actionEnv 0) (maskKernel 0) (sigactionRegs 20 0 0xA000 8) World.start ∧
    ¬ TranslatesSigaction (actionEnv 1) (maskKernel 0) (sigactionRegs 10 0x9000 0 8) World.start ∧
    ¬ TranslatesSigaction (actionEnv 0) (maskKernel 2) (sigactionRegs 2 0x9000 0xA000 8) World.start := by
  refine ⟨fun t => ?_, fun t => ?_, fun t => ?_, ?_⟩
  · exact absurd (t.args ⟨2, 0x1000, 0, 0, 0, 0⟩ (by decide +kernel)) (by decide)
  · exact absurd (t.args ⟨20, 0, 0x8100, 8, 0, 0⟩ (by decide +kernel)) (by decide)
  · exact absurd (t.args ⟨10, 0x1000, 0, 8, 0, 0⟩ (by decide +kernel)) (by decide)
  · rintro ⟨-, oldmask⟩
    exact absurd (oldmask (by decide) (by decide) 2 (by decide) (by decide) (by decide)) (by decide +kernel)

end Macify.Signals
