import Macify.Syscall.Convention

/-!
# Argument routing

`routedArgs` states it position by position: those that the flag of the entry names hold the value of the translator,
or the address of the translated structure, and all others are the guest's. Main result: `routing`.

Not covered are `read`, whose Linux number `0` is taken for an unused slot, `openat`, whose flags are translated in
the position that `open` has them, and `SIGBUS` in a Go process, which is translated twice.
-/

namespace Macify.Syscall
open Lib Image

def Names (flags flag : BitVec 16) : Prop := flags &&& flag ≠ 0

instance {flags flag} : Decidable (Names flags flag) := inferInstanceAs (Decidable (_ ≠ _))

/-- The arguments that syscall `n` should get. The flags of `openat` are its third argument, a null pointer is
    passed on, `rt_sigprocmask` has a fourth argument, and `sigaction` with an action translates the number too. -/
def routedArgs (env : Env) (n : ℕ) (flags : BitVec 16) (a : Args) : Args where
  a1 :=
    if Names flags ARG_SIGACTION ∧ a.a2 ≠ 0 then viaInt translateKillSignal a.a1
    else if Names flags ARG_SIGALTSTACK ∧ a.a1 ≠ 0 then env.linuxSsSigaltstack
    else a.a1
  a2 :=
    if Names flags ARG_OPEN_FLAGS ∧ n ≠ SYS_openat then viaInt translateOpenFlags a.a2
    else if Names flags ARG_KILL_SIGNAL then viaInt translateKillSignal a.a2
    else if Names flags ARG_FCNTL_CMD then viaInt translateFcntlCmd a.a2
    else if Names flags ARG_SIGACTION ∧ a.a2 ≠ 0 then env.linuxSa
    else if Names flags ARG_SIGPROCMASK ∧ a.a2 ≠ 0 then env.linuxSetSigprocmask
    else if Names flags ARG_SIGALTSTACK ∧ a.a2 ≠ 0 then env.linuxOssSigaltstack
    else a.a2
  a3 :=
    if Names flags ARG_OPEN_FLAGS ∧ n = SYS_openat then viaInt translateOpenFlags a.a3
    else if Names flags ARG_MADVISE then viaInt translateMadvise a.a3
    else if Names flags ARG_SIGACTION ∧ a.a3 ≠ 0 then env.linuxOldSa
    else if Names flags ARG_SIGPROCMASK ∧ a.a3 ≠ 0 then env.linuxOsetSigprocmask
    else a.a3
  a4 :=
    if Names flags ARG_MMAP_FLAGS then viaInt translateMmapFlags a.a4
    else if Names flags ARG_SIGPROCMASK then 8
    else a.a4
  a5 := a.a5
  a6 := a.a6

def SpecialFcntl (r : Regs) : Prop :=
  let cmd := r.rsi.setWidth 32
  Names (bsdArgFlags r.bsdNr) ARG_FCNTL_CMD ∧
    (cmd = MACOS_F_GETPATH ∨ cmd = MACOS_F_FULLFSYNC ∨ cmd ∈ fcntlNoOps)

section Routing

variable {env : Env} {kernel : Kernel} {r : Regs} {w : World}

lemma issue_calls (env : Env) (kernel : Kernel) (nr : ℕ) (f : Frame) :
    ∃ result w', issue env kernel nr f = (.tail result, w') ∧
      w'.calls = f.world.calls ++ [(bsdToLinux nr, f.args)] := by
  refine ⟨_, _, rfl, ?_⟩
  simp only [World.setErrno]
  split <;> rfl

lemma translateSigaction_args (env : Env) (f : Frame) (n : ℕ) :
    (f.translateSigaction env).args =
        routedArgs env n (ARG_SIGACTION ||| ARG_FORCE_SLOW) f.args ∧
      (f.translateSigaction env).world.calls = f.world.calls := by
  by_cases act : f.args.a2 = 0#64 <;> by_cases old : f.args.a3 = 0#64 <;>
    simp [Frame.translateSigaction, Frame.buildLinuxSa, routedArgs, Names, act, old]

lemma translateArgs_routed (kernel : Kernel) (w : World) {n} (notOpenat : n ≠ SYS_openat)
    (ns : ¬SpecialFcntl r) (nu : ¬UnsupportedFcntl r) (np : ¬ProtectedSigaction env r)
    (once : ¬(Names (bsdArgFlags r.bsdNr) ARG_SIGACTION ∧ r.rdi = 10 ∧ env.tlsGAddr ≠ 0)) :
    ∃ f, translateArgs env kernel (bsdArgFlags r.bsdNr) (.init r w) = .ok f ∧
      f.args = routedArgs env n (bsdArgFlags r.bsdNr) r.args ∧ f.world.calls = w.calls := by
  have kind := argFlags_cases r.bsdNr
  generalize flags : bsdArgFlags r.bsdNr = v at kind once ⊢
  cases kind with
  | fcntlCmd =>
    have flag : bsdArgFlags r.bsdNr &&& ARG_FCNTL_CMD ≠ 0 := by rw [flags]; decide
    have getpath : r.rsi.setWidth 32 ≠ MACOS_F_GETPATH := fun e => ns ⟨flag, .inl e⟩
    have fullfsync : r.rsi.setWidth 32 ≠ MACOS_F_FULLFSYNC := fun e => ns ⟨flag, .inr (.inl e)⟩
    have noop : r.rsi.setWidth 32 ∉ fcntlNoOps := fun e => ns ⟨flag, .inr (.inr e)⟩
    have known : ¬(translateFcntlCmd (r.rsi.setWidth 32)).slt 0 = true := fun neg =>
      nu ⟨flag, getpath, fullfsync, noop, neg⟩
    rw [translateArgs_fcntl, Frame.fcntlCmd]
    simp only [Frame.init, Regs.args, getpath, fullfsync, noop, known, if_false]
    exact ⟨_, rfl, rfl, rfl⟩
  | sigaction =>
    have flag : bsdArgFlags r.bsdNr &&& ARG_SIGACTION ≠ 0 := by rw [flags]; decide
    have routed := translateSigaction_args env (.init r w) n
    rw [translateArgs_sigaction, Frame.sigaction]
    dsimp only
    split
    next kept =>
      -- the only such signal that is left is `SIGSEGV` in a Go process, and it keeps its number
      simp only [Frame.init, Regs.args] at kept
      have go : env.tlsGAddr ≠ 0 := fun e => np ⟨flag, by tauto⟩
      have segv : r.rdi = 11 := by
        rcases kept with e | e | e
        · exact absurd ⟨flag, .inl e⟩ np
        · exact e
        · exact absurd ⟨by decide, e, go⟩ once
      have same : viaInt translateKillSignal (Frame.init r w).args.a1 = (Frame.init r w).args.a1 := by
        simp only [Frame.init, Regs.args, segv]
        decide
      rw [if_pos ⟨by simp [Frame.init, Regs.args, segv], go⟩, same]
      exact ⟨_, rfl, routed⟩
    next => exact ⟨_, rfl, routed⟩
  | openFlags =>
    rw [translateArgs_open]
    refine ⟨_, rfl, ?_, rfl⟩
    simp [Frame.openFlags, Frame.init, routedArgs, Names, notOpenat]
  | sigprocmask =>
    rw [translateArgs_sigprocmask]
    refine ⟨_, rfl, ?_, ?_⟩
    · by_cases set : r.args.a2 = 0#64 <;> by_cases oset : r.args.a3 = 0#64 <;>
        simp [Frame.sigprocmask, Frame.init, routedArgs, Names, set, oset]
    · by_cases set : r.args.a2 = 0#64 <;> simp [Frame.sigprocmask, Frame.init, set]
  | sigaltstack =>
    rw [translateArgs_sigaltstack]
    refine ⟨_, rfl, ?_, ?_⟩
    · by_cases ss : r.args.a1 = 0#64 <;> by_cases oss : r.args.a2 = 0#64 <;>
        simp [Frame.sigaltstack, Frame.init, routedArgs, Names, ss, oss]
    · by_cases ss : r.args.a1 = 0#64 <;> simp [Frame.sigaltstack, Frame.init, ss]
  | none | forceSlow | mmapFlags | killSignal | madvise => exact ⟨_, rfl, rfl, rfl⟩

/-- For an entry with a Linux number other than `SYS_read`, but `exit` and `openat`, and outside the special
    exits, exactly one syscall is issued, with the number of the entry and the routed arguments. -/
theorem routing {n} (ent : HasEntry r.bsdNr n) (notRead : n ≠ SYS_read) (notExit : r.bsdNr ≠ 1)
    (notOpenat : n ≠ SYS_openat) (ns : ¬SpecialFcntl r) (nu : ¬UnsupportedFcntl r)
    (np : ¬ProtectedSigaction env r)
    (once : ¬(Names (bsdArgFlags r.bsdNr) ARG_SIGACTION ∧ r.rdi = 10 ∧ env.tlsGAddr ≠ 0)) :
    ∃ r' w', sigillHandler env kernel r w = .returned r' w' ∧
      w'.calls = w.calls ++ [(n, routedArgs env n (bsdArgFlags r.bsdNr) r.args)] := by
  have num := ent.lookup
  obtain ⟨f, ok, args, calls⟩ := translateArgs_routed kernel w notOpenat ns nu np once
  obtain ⟨result, w', e, issued⟩ := issue_calls env kernel r.bsdNr f
  have run : dispatch env kernel r w = (.tail result, w') := by
    unfold dispatch
    rw [if_neg (Nat.not_le.mpr ent.lt), if_neg (by rw [num]; exact notRead), if_neg notExit, ok]
    exact e
  refine ⟨_, w', by rw [sigillHandler, run]; rfl, ?_⟩
  rw [issued, num, args, calls]

end Routing

theorem routing_kill :
    HasEntry (callRegs 37 5 30 0 0).bsdNr SYS_kill ∧
      ∃ r' w', sigillHandler plainEnv (answers 0) (callRegs 37 5 30 0 0) .start = .returned r' w' ∧
        w'.calls = World.start.calls ++ [(SYS_kill, routedArgs plainEnv SYS_kill
          (bsdArgFlags (callRegs 37 5 30 0 0).bsdNr) (callRegs 37 5 30 0 0).args)] :=
  ⟨by decide, routing (by decide) (by decide) (by decide) (by decide)
    (fun h => absurd h.1 (by decide)) (fun h => absurd h.1 (by decide))
    (fun h => absurd h.1 (by decide)) (fun h => absurd h.1 (by decide))⟩

/-- No syscall for a `fcntl` command, an `8` that no flag names, and another signal number. -/
theorem routing_other_arguments :
    (HasEntry 92 SYS_fcntl ∧ ¬SpecialFcntl (callRegs 92 1 49 0 0) ∧
      (dispatch plainEnv (answers 0) (callRegs 92 1 49 0 0) .start).2.calls = []) ∧
    (HasEntry 48 SYS_rt_sigprocmask ∧ (callRegs 48 1 0 0 0).args.a4 = 0 ∧
      (dispatch plainEnv (answers 0) (callRegs 48 1 0 0 0) .start).2.calls =
        [(SYS_rt_sigprocmask, ⟨1, 0, 0, 8, 0, 0⟩)]) ∧
    (HasEntry 46 SYS_rt_sigaction ∧ ¬ProtectedSigaction plainEnv (callRegs 46 30 0x2000 0 0) ∧
      (dispatch plainEnv (answers 0) (callRegs 46 30 0x2000 0 0) .start).2.calls =
        [(SYS_rt_sigaction, ⟨10, plainEnv.linuxSa, 0, 0, 0, 0⟩)]) := by
  refine ⟨⟨by decide, fun h => absurd h.2 (by decide), rfl⟩, ⟨by decide, rfl, rfl⟩,
    ⟨by decide, fun h => absurd h.2 (by decide), rfl⟩⟩

end Macify.Syscall
