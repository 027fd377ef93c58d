import Macify.Syscall.Boundaries
import Macify.Syscall.Convention

/-!
# Fast path and slow path

The same site, `mov eax, 0x20000000|nr; syscall`, patched with the fast path on and off, and executed. With it on,
`RAX` is the raw result of the kernel and the carry flag stays as it was. With it off, the `ud2` goes through the
handler. Main result: `fast_slow_iff`.
-/

namespace Macify.Syscall
open Lib Lib.X86 Image

def immWord (imm : Imm32) : W64 :=
  BitVec.ofNat 64
    (imm.b0.toNat + 256 * imm.b1.toNat + 65536 * imm.b2.toNat + 16777216 * imm.b3.toNat)

/-- A `syscall` leaves the return address in `RCX` and the flags in `R11`; a `ud2` runs the handler. -/
def exec (env : Env) (kernel : Kernel) : Instr → Regs → World → Option Outcome
  | .movEax imm, r, w => some (.returned { r with rax := immWord imm, rip := r.rip + 5 } w)
  | .movEcx imm, r, w => some (.returned { r with rcx := immWord imm, rip := r.rip + 5 } w)
  | .nop, r, w => some (.returned { r with rip := r.rip + 1 } w)
  | .syscall, r, w =>
    let (result, w) := rawSyscall kernel r.rax.toNat r.args w
    some (.returned { r with rax := result, rcx := r.rip + 2, r11 := r.efl, rip := r.rip + 2 } w)
  | .ud2, r, w => some (sigillHandler env kernel r w)
  | .jmp _, _, _ | .call _, _, _ | .ret, _, _ => none

def execAll (env : Env) (kernel : Kernel) : List Instr → Regs → World → Option Outcome
  | [], r, w => some (.returned r w)
  | x :: xs, r, w =>
    match exec env kernel x r w with
    | some (.returned r w) => execAll env kernel xs r w
    | out => out

def site (lo hi : UInt8) : List Instr := [.movEax ⟨lo, hi, 0x00, 0x20⟩, .syscall]

def patchedSite (noFast : Bool) (lo hi : UInt8) : Buf :=
  (patchSyscallsInRange noFast (textSegment 7) 0 7 ⟨encodeAll (site lo hi), 0, 0⟩).base

def runSite (env : Env) (kernel : Kernel) (noFast : Bool) (lo hi : UInt8) (r : Regs) (w : World) : Option Outcome :=
  (decode (patchedSite noFast lo hi)).bind fun xs => execAll env kernel xs r w

lemma patchSite_early {noFast i s} (lt : i < 5) : patchSite noFast i s = s := by
  have none : foundPattern s.base i = false := by
    rw [foundPattern, Option.isSome_eq_false_iff, Option.isNone_iff_eq_none, searchDown_eq_none]
    intro j _ le
    have na : isAdd s.base j = false := by
      rw [Bool.eq_false_iff]
      intro ad
      have five := (isAdd_iff.mp ad).1
      omega
    have nl : ¬j + 4 < i := by omega
    simp [isPattern_eq, na, nl]
  simp [patchSite, none]

lemma patchedSite_eq {noFast lo hi} :
    patchedSite noFast lo hi = (patchSite noFast 5 ⟨encodeAll (site lo hi), 0, 0⟩).base := by
  have stop : rangeEnd (textSegment 7) 0 7 - 1 - 0 = 6 := by decide
  rw [patchedSite, patchSyscallsInRange, stop]
  simp only [forUp, Nat.reduceAdd, patchSite_early (show 0 < 5 by decide),
    patchSite_early (show 1 < 5 by decide), patchSite_early (show 2 < 5 by decide),
    patchSite_early (show 3 < 5 by decide), patchSite_early (show 4 < 5 by decide)]

lemma patchedSite_encode {noFast lo hi} (lt : lo.toNat + 256 * hi.toNat < bsdSyscallMax) :
    patchedSite noFast lo hi =
      if fastNumber noFast (lo.toNat + 256 * hi.toNat) then
        encodeAll [.movEax (linuxImm (bsdToLinux (lo.toNat + 256 * hi.toNat))), .syscall]
      else encodeAll [.movEax ⟨lo, hi, 0x00, 0x20⟩, .ud2] := by
  have sys : isSyscall (encodeAll (site lo hi)) 5 = true := rfl
  have pat : foundPattern (encodeAll (site lo hi)) 5 = true := rfl
  have mov : findMov (encodeAll (site lo hi)) 5 = some 0 := rfl
  have nr : bsdNr (encodeAll (site lo hi)) 0 = lo.toNat + 256 * hi.toNat := rfl
  rw [patchedSite_eq, patchSite]
  simp only [sys, pat, mov, nr, Nat.not_le.mpr lt, Bool.not_true, Bool.false_eq_true, if_false]
  cases fastNumber noFast (lo.toNat + 256 * hi.toNat) <;> rfl

lemma immWord_linuxImm {nr n} (ent : HasEntry nr n) : (immWord (linuxImm n)).toNat = n := by
  have small : n < 65536 := by
    have all : ∀ p ∈ bsdToLinuxEntries, p.2 < 65536 := by decide +kernel
    exact all (nr, n) ent
  have lo : (UInt8.ofNat (n % 256)).toNat = n % 256 :=
    UInt8.toNat_ofNat_of_lt' (Nat.mod_lt _ (by decide))
  have hi : (UInt8.ofNat (n / 256 % 256)).toNat = n / 256 % 256 :=
    UInt8.toNat_ofNat_of_lt' (Nat.mod_lt _ (by decide))
  simp only [immWord, linuxImm, lo, hi, UInt8.reduceToNat, BitVec.toNat_ofNat]
  omega

lemma bsdNr_immWord {lo hi : UInt8} {r : Regs} (rax : r.rax = immWord ⟨lo, hi, 0x00, 0x20⟩) :
    r.bsdNr = lo.toNat + 256 * hi.toNat := by
  have hlo := lo.toNat_lt
  have hhi := hi.toNat_lt
  have mask : (0xFFFFFF : W64).toNat = 2 ^ 24 - 1 := rfl
  rw [Regs.bsdNr, rax, BitVec.toNat_and, mask, Nat.and_two_pow_sub_one_eq_mod]
  simp only [immWord, UInt8.reduceToNat, BitVec.toNat_ofNat]
  omega

lemma sigillHandler_plain (env : Env) (kernel : Kernel) {r : Regs} (w : World)
    (pos : 0 < bsdToLinux r.bsdNr) (plain : bsdArgFlags r.bsdNr = 0) :
    ∃ slow w', sigillHandler env kernel r w = .returned slow w' ∧
      Obeys r slow (kernel (bsdToLinux r.bsdNr) r.args w.mem).1 := by
  have notExit : r.bsdNr ≠ 1 := by
    intro e
    rw [e] at plain
    exact absurd plain (by decide)
  have run : dispatch env kernel r w = issue env kernel r.bsdNr (.init r w) := by
    unfold dispatch
    rw [if_neg (Nat.not_le.mpr (HasEntry.of_pos pos).lt), if_neg (Nat.ne_of_gt pos), if_neg notExit, plain]
    rfl
  rw [sigillHandler, run]
  exact ⟨_, _, rfl, obeys_report⟩

lemma execAll_movEax {env kernel imm xs r w} :
    execAll env kernel (.movEax imm :: xs) r w =
      execAll env kernel xs { r with rax := immWord imm, rip := r.rip + 5 } w := rfl

lemma execAll_ud2 {env kernel r w r' w'} (run : sigillHandler env kernel r w = .returned r' w') :
    execAll env kernel [.ud2] r w = some (.returned r' w') := by
  simp only [execAll, exec, run]

section Sites

variable (env : Env) (kernel : Kernel) (lo hi : UInt8) (r : Regs) (w : World)

lemma runSite_fast (pos : 0 < bsdToLinux (lo.toNat + 256 * hi.toNat))
    (plain : bsdArgFlags (lo.toNat + 256 * hi.toNat) = 0) :
    ∃ fast w', runSite env kernel false lo hi r w = some (.returned fast w') ∧
      fast.rip = r.rip + 7 ∧ fast.cf = r.cf ∧
      fast.rax = (kernel (bsdToLinux (lo.toNat + 256 * hi.toNat)) r.args w.mem).1 := by
  have ent := HasEntry.of_pos pos
  have fast : fastNumber false (lo.toNat + 256 * hi.toNat) = true := by
    simp [fastNumber, pos, plain]
  have code : decode (patchedSite false lo hi) =
      some [.movEax (linuxImm (bsdToLinux (lo.toNat + 256 * hi.toNat))), .syscall] := by
    rw [patchedSite_encode ent.lt, fast, decode_eq_some]
    rfl
  rw [runSite, code]
  refine ⟨_, _, rfl, ?_, rfl, ?_⟩
  · show r.rip + 5 + 2 = r.rip + 7
    rw [BitVec.add_assoc]
    rfl
  · show (kernel (immWord (linuxImm _)).toNat r.args w.mem).1 = _
    rw [immWord_linuxImm ent]

lemma runSite_slow (pos : 0 < bsdToLinux (lo.toNat + 256 * hi.toNat))
    (plain : bsdArgFlags (lo.toNat + 256 * hi.toNat) = 0) :
    ∃ slow w', runSite env kernel true lo hi r w = some (.returned slow w') ∧
      slow.rip = r.rip + 7 ∧
      let result := (kernel (bsdToLinux (lo.toNat + 256 * hi.toNat)) r.args w.mem).1
      (isErr result = true → slow.rax = -1 ∧ slow.cf = true) ∧
        (isErr result = false → slow.cf = false ∧ slow.rax = result) := by
  have code : decode (patchedSite true lo hi) =
      some [.movEax ⟨lo, hi, 0x00, 0x20⟩, .ud2] := by
    rw [patchedSite_encode (HasEntry.of_pos pos).lt, decode_eq_some]
    rfl
  -- the registers at the `ud2`, kept abstract so that the handler is not unfolded on them
  obtain ⟨r₁, e⟩ : ∃ r₁ : Regs,
    r₁ = { r with rax := immWord ⟨lo, hi, 0x00, 0x20⟩, rip := r.rip + 5 } := ⟨_, rfl⟩
  have nr : r₁.bsdNr = lo.toNat + 256 * hi.toNat := bsdNr_immWord (by rw [e])
  have args : r₁.args = r.args := by simp only [e, Regs.args]
  have rip : r₁.rip = r.rip + 5 := by rw [e]
  rw [← nr] at pos plain ⊢
  obtain ⟨slow, w', run, ob⟩ := sigillHandler_plain env kernel w pos plain
  rw [args] at ob
  refine ⟨slow, w', ?_, ?_, ob.failed, ob.succeeded⟩
  · rw [runSite, code, Option.bind_some, execAll_movEax, ← e, execAll_ud2 run]
  · rw [ob.rip, rip, BitVec.add_assoc]
    rfl

/-- Both sites leave the same `RAX` and carry flag exactly when the kernel reports no error and the flag was
    clear, or it answers `-1` and the flag was set. -/
theorem fast_slow_iff (pos : 0 < bsdToLinux (lo.toNat + 256 * hi.toNat))
    (plain : bsdArgFlags (lo.toNat + 256 * hi.toNat) = 0) :
    ∃ fast slow wf ws, runSite env kernel false lo hi r w = some (.returned fast wf) ∧
      runSite env kernel true lo hi r w = some (.returned slow ws) ∧
      let result := (kernel (bsdToLinux (lo.toNat + 256 * hi.toNat)) r.args w.mem).1
      ((fast.rip = r.rip + 7 ∧ slow.rip = r.rip + 7) ∧ fast.rax = slow.rax ∧ fast.cf = slow.cf ↔
        isErr result = false ∧ r.cf = false ∨ result = -1 ∧ r.cf = true) := by
  obtain ⟨fast, wf, runf, ripf, cff, raxf⟩ := runSite_fast env kernel lo hi r w pos plain
  obtain ⟨slow, ws, runs, rips, failed, succeeded⟩ := runSite_slow env kernel lo hi r w pos plain
  refine ⟨fast, slow, wf, ws, runf, runs, ?_⟩
  dsimp only at failed succeeded ⊢
  generalize (kernel (bsdToLinux (lo.toNat + 256 * hi.toNat)) r.args w.mem).1 = result
    at raxf failed succeeded ⊢
  rw [raxf, cff]
  cases err : isErr result with
  | false =>
    obtain ⟨cfs, raxs⟩ := succeeded err
    have ne : result ≠ -1 := by
      rintro rfl
      exact absurd err (by decide)
    rw [raxs, cfs]
    refine ⟨fun ⟨_, _, cf⟩ => .inl ⟨rfl, cf⟩, fun h => ?_⟩
    rcases h with ⟨_, cf⟩ | ⟨e, _⟩
    · exact ⟨⟨ripf, rips⟩, rfl, cf⟩
    · exact absurd e ne
  | true =>
    obtain ⟨raxs, cfs⟩ := failed err
    rw [raxs, cfs]
    refine ⟨fun ⟨_, rax, cf⟩ => .inr ⟨rax, cf⟩, fun h => ?_⟩
    rcases h with ⟨ok, _⟩ | ⟨e, cf⟩
    · cases ok
    · exact ⟨⟨ripf, rips⟩, e, cf⟩

end Sites

theorem fast_slow_iff_write :
    0 < bsdToLinux 4 ∧ ∃ fast slow wf ws,
      runSite plainEnv (answers (-9)) false 4 0 (callRegs 0 1 0 0 0) .start =
        some (.returned fast wf) ∧
      runSite plainEnv (answers (-9)) true 4 0 (callRegs 0 1 0 0 0) .start =
        some (.returned slow ws) ∧
      ((fast.rip = (callRegs 0 1 0 0 0).rip + 7 ∧ slow.rip = (callRegs 0 1 0 0 0).rip + 7) ∧
          fast.rax = slow.rax ∧ fast.cf = slow.cf ↔
        isErr (-9) = false ∧ (callRegs 0 1 0 0 0).cf = false ∨
          (-9 : W64) = -1 ∧ (callRegs 0 1 0 0 0).cf = true) :=
  ⟨by decide, fast_slow_iff plainEnv (answers (-9)) 4 0 _ _ (by decide) (by decide)⟩

/-- `write` on a closed descriptor: the fast path leaves `-EBADF` and a clear carry flag, the slow
    path leaves `-1` and sets it. -/
theorem fast_slow_differ_on_error :
    ∃ fast slow wf ws,
      runSite plainEnv (answers (-9)) false 4 0 (callRegs 0 1 0 0 0) .start =
        some (.returned fast wf) ∧
      runSite plainEnv (answers (-9)) true 4 0 (callRegs 0 1 0 0 0) .start =
        some (.returned slow ws) ∧
      fast.rax = -9 ∧ fast.cf = false ∧ slow.rax = -1 ∧ slow.cf = true := by
  obtain ⟨fast, wf, runf, _, cff, raxf⟩ :=
    runSite_fast plainEnv (answers (-9)) 4 0 (callRegs 0 1 0 0 0) .start (by decide) (by decide)
  obtain ⟨slow, ws, runs, _, failed, _⟩ :=
    runSite_slow plainEnv (answers (-9)) 4 0 (callRegs 0 1 0 0 0) .start (by decide) (by decide)
  exact ⟨fast, slow, wf, ws, runf, runs, raxf, cff, failed (by decide)⟩

end Macify.Syscall
