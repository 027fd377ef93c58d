import Macify.Lib.X86
import Macify.Syscall.MacosSites

/-!
# Instruction boundaries

The scanner cannot see where an instruction begins. Its result is compared with the instructions that the bytes
encode. A load that the fast path rewrites is always a real `mov eax` (`fastLoad_at`). A syscall that becomes `ud2` may
be two bytes of an operand, and the patched code decodes as intended exactly when that does not happen
(`patched_decodes_iff`).
-/

namespace Macify.Syscall
open Lib Lib.X86 Image

def linuxImm (n : ℕ) : Imm32 := ⟨UInt8.ofNat (n % 256), UInt8.ofNat (n / 256 % 256), 0, 0⟩

/-- What the patcher may do to one instruction: nothing, turn `syscall` into `ud2`, or give a
    recognised `mov eax` its Linux number. -/
inductive Allowed : Instr → Instr → Prop where
  | same {x} : Allowed x x
  | ud2 : Allowed .syscall .ud2
  | linux {lo hi : UInt8} (pos : 0 < bsdToLinux (lo.toNat + 256 * hi.toNat)) :
    Allowed (.movEax ⟨lo, hi, 0x00, 0x20⟩)
      (.movEax (linuxImm (bsdToLinux (lo.toNat + 256 * hi.toNat))))

lemma Allowed.sized {x x'} (al : Allowed x x') : size x' = size x := by
  cases al <;> rfl

lemma opcode_ne (x : Instr) {v : UInt8} (h : v ∈ [0x00, 0x01, 0x02, 0x05, 0x20]) : byte (encode x) 0 ≠ v := by
  simp only [List.mem_cons, List.not_mem_nil, or_false] at h
  rcases h with rfl | rfl | rfl | rfl | rfl <;> cases x <;> exact nofun

lemma fastLoad_not_inside {xs p x k} (hx : At xs p x) (five : size x = 5) (one : 1 ≤ k)
    (four : k ≤ 4) : ¬FastLoad (encodeAll xs) (p + k) := by
  intro ld
  have bound := ld.lt
  obtain ⟨y, hy⟩ := hx.next (by omega)
  have opy := hy.opcode
  rw [five] at opy hy
  -- the load reaches into the next instruction, whose opcode is one of its last four bytes
  obtain rfl | rfl | rfl | rfl : k = 1 ∨ k = 2 ∨ k = 3 ∨ k = 4 := by omega
  · exact opcode_ne y (by decide) (opy.symm.trans ld.b4)
  · exact opcode_ne y (by decide) (opy.symm.trans ld.b3)
  · rcases ld.hi with hi | hi | hi <;> exact opcode_ne y (by decide) (opy.symm.trans hi)
  · -- the low byte of the number is the opcode of the next instruction
    have lo : byte (encodeAll xs) (p + 4 + 1) = byte (encode y) 0 := opy
    have second : 2 ≤ size y → byte (encodeAll xs) (p + 4 + 2) = byte (encode y) 1 :=
      fun two => hy.byte two
    have after : size y = 1 → False := by
      intro single
      obtain ⟨z, hz⟩ := hy.next (by omega)
      rw [single] at hz
      rcases ld.hi with hi | hi | hi <;>
        exact opcode_ne z (by decide) (hz.opcode.symm.trans hi)
    cases y with
    | movEax => exact ld.lo lo
    | movEcx => exact ld.lo'.1 lo
    | jmp => exact ld.lo'.2.2 lo
    | call => exact ld.lo'.2.1 lo
    | nop | ret => exact after rfl
    | syscall | ud2 => rcases ld.hi with hi | hi | hi <;> cases (second (by decide)).symm.trans hi

lemma fastLoad_at {xs m} (ld : FastLoad (encodeAll xs) m) : ∃ imm, At xs m (.movEax imm) := by
  have bound := ld.lt
  obtain ⟨p, x, k, hx, lt, rfl⟩ := At.cover (show m < (encodeAll xs).length by omega)
  have op : byte (encode x) k = 0xB8 := (hx.byte lt).symm.trans ld.op
  rcases Nat.eq_zero_or_pos k with rfl | pos
  · cases x with
    | movEax imm => exact ⟨imm, hx⟩
    | _ => cases op
  · have inside := fun five : size x = 5 => fastLoad_not_inside hx five pos (by omega) ld
    cases x with
    | movEax | movEcx | jmp | call => cases inside rfl
    | nop | ret => exact absurd lt (by simp [size, encode]; omega)
    | syscall | ud2 =>
      obtain rfl : k = 1 := by
        simp [size, encode] at lt
        omega
      cases op

lemma syscall_at {xs i} (sys : isSyscall (encodeAll xs) i = true) :
    At xs i .syscall ∨ ∃ p x k, At xs p x ∧ size x = 5 ∧ 1 ≤ k ∧ k ≤ 3 ∧ i = p + k := by
  obtain ⟨op, old⟩ := isSyscall_iff.mp sys
  have bound := isSyscall_lt sys
  obtain ⟨p, x, k, hx, lt, rfl⟩ := At.cover (show i < (encodeAll xs).length by omega)
  have opx : byte (encode x) k = 0x0F := (hx.byte lt).symm.trans op
  have inside : size x = 5 → 1 ≤ k → k ≤ 3 := by
    intro five one
    by_contra gt
    obtain rfl : k = 4 := by omega
    obtain ⟨y, hy⟩ := hx.next (by omega)
    rw [five] at hy
    exact opcode_ne y (by decide) (hy.opcode.symm.trans old)
  have operand : size x = 5 → 1 ≤ k →
      ∃ p' x k', At xs p' x ∧ size x = 5 ∧ 1 ≤ k' ∧ k' ≤ 3 ∧ p + k = p' + k' :=
    fun five one => ⟨p, x, k, hx, five, one, inside five one, rfl⟩
  rcases Nat.eq_zero_or_pos k with rfl | pos
  · cases x with
    | syscall => exact .inl hx
    | ud2 => cases (hx.byte (show 1 < size .ud2 by decide)).symm.trans old
    | _ => cases opx
  · cases x with
    | movEax | movEcx | jmp | call => exact .inr (operand rfl pos)
    | nop | ret => exact absurd lt (by simp [size, encode]; omega)
    | syscall | ud2 =>
      obtain rfl : k = 1 := by
        simp [size, encode] at lt
        omega
      cases opx

section Decoding

variable {noFast : Bool} {xs : List Instr} {c : Buf} {i : ℕ}

lemma Patched.instr_kept (pt : Patched noFast 0 (encodeAll xs) i c)
    (real : ∀ s, slowSite noFast 0 (encodeAll xs) s = true → At xs s .syscall) {p x}
    (hx : At xs p x) (ns : slowSite noFast 0 (encodeAll xs) p = false)
    (nr : rewritten noFast 0 (encodeAll xs) i p = false) {k} (lt : k < size x) :
    byte c (p + k) = byte (encode x) k := by
  rw [← hx.byte lt]
  apply pt.rest
  · intro s _ hs e
    have hy := real s hs
    rcases Nat.lt_or_ge s p with before | ge
    · have same := (hy.unique hx (by omega) (by show p < s + 2; omega)).1
      omega
    · obtain ⟨rfl, _⟩ := hx.unique hy ge (by omega)
      rw [hs] at ns
      cases ns
  · intro m hm
    obtain ⟨imm, hy⟩ := fastLoad_at (rewritten_fastLoad hm)
    by_contra within
    rcases Nat.lt_or_ge m p with before | ge
    · have same := (hy.unique hx (by omega) (by show p < m + 5; omega)).1
      omega
    · obtain ⟨rfl, _⟩ := hx.unique hy ge (by omega)
      rw [hm] at nr
      cases nr

lemma Patched.instr_rewritten (pt : Patched noFast 0 (encodeAll xs) i c) {p x} (hx : At xs p x)
    (hm : rewritten noFast 0 (encodeAll xs) i p = true) :
    ∃ x', Allowed x x' ∧ ∀ k, k < size x → byte c (p + k) = byte (encode x') k := by
  have ld := rewritten_fastLoad hm
  obtain ⟨imm, hy⟩ := fastLoad_at ld
  obtain ⟨_, rfl⟩ := hx.unique hy (Nat.le_refl p) (Nat.lt_add_of_pos_right (size_pos x))
  obtain ⟨lo, hi, b2, b3⟩ := imm
  obtain rfl : b2 = 0x00 := (hx.byte (show 3 < 5 by decide)).symm.trans ld.b3
  obtain rfl : b3 = 0x20 := (hx.byte (show 4 < 5 by decide)).symm.trans ld.b4
  have elo : byte (encodeAll xs) (p + 1) = lo := hx.byte (show 1 < 5 by decide)
  have ehi : byte (encodeAll xs) (p + 2) = hi := hx.byte (show 2 < 5 by decide)
  have nr : bsdNr (encodeAll xs) p = lo.toNat + 256 * hi.toNat := by rw [bsdNr, elo, ehi]
  obtain ⟨_, fast, _⟩ := rewritten_mov hm
  simp only [fastAt, nr, Bool.and_eq_true] at fast
  refine ⟨_, .linux (fastNumber_entry fast.2).2, fun k lt => ?_⟩
  obtain ⟨e1, e2, e3, e4⟩ := pt.imm p hm
  rw [linuxAt, nr] at e1 e2
  have e0 := (pt.overlay.opcode p).mpr ld.op
  obtain rfl | rfl | rfl | rfl | rfl : k = 0 ∨ k = 1 ∨ k = 2 ∨ k = 3 ∨ k = 4 := by
    change k < 5 at lt
    omega
  · exact e0
  · exact e1
  · exact e2
  · exact e3
  · exact e4

lemma Patched.operand_hit (pt : Patched noFast 0 (encodeAll xs) i c) {p x k} (lt : p + k < i)
    (hs : slowSite noFast 0 (encodeAll xs) (p + k) = true) (hx : At xs p x) (five : size x = 5)
    (one : 1 ≤ k) (three : k ≤ 3) {x'} (al : Allowed x x')
    (eq : ∀ k, k < size x → byte c (p + k) = byte (encode x') k) : False := by
  obtain ⟨op, old⟩ := isSyscall_iff.mp (slowSite_syscall hs).2
  have opx : byte (encode x) k = 0x0F := (hx.byte (by omega)).symm.trans op
  have oldx : byte (encode x) (k + 1) = 0x05 := (hx.byte (by omega)).symm.trans old
  have new : byte (encode x') (k + 1) = 0x0B := (eq (k + 1) (by omega)).symm.trans (pt.slow _ lt hs)
  cases al with
  | same =>
    rw [oldx] at new
    cases new
  | ud2 => cases five
  | @linux lo hi pos =>
    obtain rfl | rfl | rfl : k = 1 ∨ k = 2 ∨ k = 3 := by omega
    · -- no Linux number has `0B` as its high byte
      obtain ⟨_, _, small⟩ := (HasEntry.of_pos pos).linux_bytes pos
      have e : UInt8.ofNat (bsdToLinux (lo.toNat + 256 * hi.toNat) / 256 % 256) = 0x0B := new
      rcases small with small | small <;> rw [small] at e <;> cases e
    · cases oldx
    · cases oldx

/-- The patched code decodes, at the same boundaries, to the original up to the allowed changes exactly when
    every slow `0F 05` is a `syscall`. -/
theorem patched_decodes_iff (noFast : Bool) (seg : LoadedSegment) (xs : List Instr)
    (fits : (encodeAll xs).length ≤ seg.vmsize.toNat) :
    (∃ xs', decode (patchSyscallsInRange noFast seg 0 (encodeAll xs).length
        ⟨encodeAll xs, 0, 0⟩).base = some xs' ∧ List.Forall₂ Allowed xs xs') ↔
      ∀ i, slowSite noFast 0 (encodeAll xs) i = true → At xs i .syscall := by
  have pt := patchSyscallsInRange_patched noFast seg 0 (encodeAll xs).length ⟨encodeAll xs, 0, 0⟩
  have visited : ∀ i, slowSite noFast 0 (encodeAll xs) i = true →
      i < scanStop seg 0 (encodeAll xs).length := by
    intro i hs
    have bound := isSyscall_lt (slowSite_syscall hs).2
    exact lt_scanStop (by omega) (Nat.zero_le i) (by omega)
  simp only [decode_eq_some]
  rw [encodeAll_iff fun _ _ al => al.sized]
  refine ⟨fun ⟨_, each⟩ i hs => ?_, fun real => ⟨pt.len, fun p x hx => ?_⟩⟩
  · rcases syscall_at (slowSite_syscall hs).2 with h | ⟨p, x, k, hx, five, one, three, rfl⟩
    · exact h
    · obtain ⟨x', al, eq⟩ := each p x hx
      cases pt.operand_hit (visited _ hs) hs hx five one three al eq
  · cases hs : slowSite noFast 0 (encodeAll xs) p with
    | true =>
      obtain ⟨_, rfl⟩ := hx.unique (real p hs) (Nat.le_refl p) (Nat.lt_add_of_pos_right (size_pos x))
      obtain ⟨op, ud2⟩ := pt.syscall_ud2 (visited p hs) (slowSite_syscall hs).2
      refine ⟨.ud2, .ud2, fun k lt => ?_⟩
      match k, lt with
      | 0, _ => exact op
      | 1, _ => exact ud2.mpr hs
    | false =>
      cases hm : rewritten noFast 0 (encodeAll xs) (scanStop seg 0 (encodeAll xs).length) p with
      | true => exact pt.instr_rewritten hx hm
      | false => exact ⟨x, .same, fun k lt => pt.instr_kept real hx hs hm lt⟩

def openThenJmp : List Instr :=
  [.movEax ⟨0x05, 0x00, 0x00, 0x20⟩, .syscall, .jmp ⟨0x0F, 0x05, 0x00, 0x00⟩]

theorem patched_decodes_iff_openThenJmp :
    (encodeAll openThenJmp).length ≤ (textSegment 12).vmsize.toNat ∧
      ((∃ xs', decode (patchSyscallsInRange false (textSegment 12) 0 (encodeAll openThenJmp).length
          ⟨encodeAll openThenJmp, 0, 0⟩).base = some xs' ∧
          List.Forall₂ Allowed openThenJmp xs') ↔
        ∀ i, slowSite false 0 (encodeAll openThenJmp) i = true → At openThenJmp i .syscall) :=
  ⟨by decide, patched_decodes_iff false (textSegment 12) openThenJmp (by decide)⟩

/-- The scanner turns the displacement `0x50F` of the `jmp` into `0xB0F`. -/
theorem openThenJmp_displacement_altered :
    decode (patchSyscallsInRange false (textSegment 12) 0 12 ⟨encodeAll openThenJmp, 0, 0⟩).base =
        some [.movEax ⟨0x05, 0x00, 0x00, 0x20⟩, .ud2, .jmp ⟨0x0F, 0x0B, 0x00, 0x00⟩] ∧
      ¬∃ xs', decode (patchSyscallsInRange false (textSegment 12) 0 12
        ⟨encodeAll openThenJmp, 0, 0⟩).base = some xs' ∧ List.Forall₂ Allowed openThenJmp xs' := by
  have run : decode (patchSyscallsInRange false (textSegment 12) 0 12
      ⟨encodeAll openThenJmp, 0, 0⟩).base =
        some [.movEax ⟨0x05, 0x00, 0x00, 0x20⟩, .ud2, .jmp ⟨0x0F, 0x0B, 0x00, 0x00⟩] := by decide
  refine ⟨run, fun ⟨xs', h, all⟩ => ?_⟩
  rw [run] at h
  cases h
  obtain _ | ⟨_, all⟩ := all
  obtain _ | ⟨_, all⟩ := all
  obtain _ | ⟨jmp, _⟩ := all
  cases jmp

end Decoding

end Macify.Syscall
