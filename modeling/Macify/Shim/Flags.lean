import Macify.Signals.Actions
import Macify.Lib.BitSets

/-!
# Two copies of the argument translators

The loader translates the arguments of a raw system call (`src/syscall/flag_translation.c`), the shim those of a call
of libSystem (`shim/io/flags.c`, `shim/signal/sigmask.c`). Main result: `translators_agree_iff`.
-/

namespace Macify.Shim
open Lib Signals

abbrev MACOS_MAP_ANON : W32 := 0x1000
abbrev LINUX_MAP_ANONYMOUS : W32 := 0x0020

abbrev MACOS_O_CREAT : W32 := 0x0200
abbrev MACOS_O_EXCL : W32 := 0x0800
abbrev MACOS_O_TRUNC : W32 := 0x0400
abbrev MACOS_O_APPEND : W32 := 0x0008
abbrev MACOS_O_NONBLOCK : W32 := 0x0004
abbrev MACOS_O_NOCTTY : W32 := 0x20000
abbrev MACOS_O_SYNC : W32 := 0x0080
abbrev MACOS_O_CLOEXEC : W32 := 0x1000000
abbrev MACOS_O_DIRECTORY : W32 := 0x100000
abbrev MACOS_O_NOFOLLOW : W32 := 0x0100

abbrev LINUX_O_CREAT : W32 := 0x0040
abbrev LINUX_O_EXCL : W32 := 0x0080
abbrev LINUX_O_TRUNC : W32 := 0x0200
abbrev LINUX_O_APPEND : W32 := 0x0400
abbrev LINUX_O_NONBLOCK : W32 := 0x0800
abbrev LINUX_O_NOCTTY : W32 := 0x0100
abbrev LINUX_O_SYNC : W32 := 0x101000
abbrev LINUX_O_CLOEXEC : W32 := 0x80000
abbrev LINUX_O_DIRECTORY : W32 := 0x10000
abbrev LINUX_O_NOFOLLOW : W32 := 0x20000

def translateOpenFlags (macosFlags : W32) : W32 :=
  Syscall.mapBits macosFlags
    [(MACOS_O_CREAT, LINUX_O_CREAT), (MACOS_O_EXCL, LINUX_O_EXCL), (MACOS_O_TRUNC, LINUX_O_TRUNC),
     (MACOS_O_APPEND, LINUX_O_APPEND), (MACOS_O_NONBLOCK, LINUX_O_NONBLOCK),
     (MACOS_O_NOCTTY, LINUX_O_NOCTTY), (MACOS_O_SYNC, LINUX_O_SYNC),
     (MACOS_O_CLOEXEC, LINUX_O_CLOEXEC), (MACOS_O_DIRECTORY, LINUX_O_DIRECTORY),
     (MACOS_O_NOFOLLOW, LINUX_O_NOFOLLOW)]
    (macosFlags &&& 0x3)

@[match_pattern] abbrev MACOS_F_GETLK : ℕ := 7
@[match_pattern] abbrev MACOS_F_SETLK : ℕ := 8
@[match_pattern] abbrev MACOS_F_SETLKW : ℕ := 9
@[match_pattern] abbrev MACOS_F_DUPFD_CLOEXEC : ℕ := 67
abbrev LINUX_F_GETLK : W32 := 5
abbrev LINUX_F_SETLK : W32 := 6
abbrev LINUX_F_SETLKW : W32 := 7
abbrev LINUX_F_DUPFD_CLOEXEC : W32 := 1030

def translateFcntlCmd (cmd : W32) : W32 :=
  match cmd.toNat with
  | MACOS_F_GETLK => LINUX_F_GETLK
  | MACOS_F_SETLK => LINUX_F_SETLK
  | MACOS_F_SETLKW => LINUX_F_SETLKW
  | MACOS_F_DUPFD_CLOEXEC => LINUX_F_DUPFD_CLOEXEC
  | _ => cmd

structure MmapArgs where
  addr : W64
  length : W64
  prot : W32
  flags : W32
  fd : W32
  offset : W64
deriving DecidableEq

def mmapAnon (args : MmapArgs) : MmapArgs :=
  if args.flags &&& MACOS_MAP_ANON = 0 then args
  else { args with flags := args.flags &&& ~~~MACOS_MAP_ANON ||| LINUX_MAP_ANONYMOUS, fd := -1 }

def mmapAlign (pageSize : W64) (args : MmapArgs) : MmapArgs :=
  if args.flags &&& 0x10 = 0 ∨ args.addr = 0 then args
  else
    let adjustment := args.addr % pageSize
    if adjustment = 0 then args
    else
      { args with
        addr := args.addr - adjustment
        length := args.length + adjustment
        offset := if args.offset = 0 then 0 else args.offset - adjustment }

def mmapArgs (pageSize : W64) (args : MmapArgs) : MmapArgs :=
  mmapAlign pageSize (mmapAnon args)

def translateMmapFlags (flags : W32) : W32 :=
  if flags &&& MACOS_MAP_ANON = 0 then flags
  else flags &&& ~~~MACOS_MAP_ANON ||| LINUX_MAP_ANONYMOUS

lemma mmapAlign_flags {pageSize : W64} {args : MmapArgs} : (mmapAlign pageSize args).flags = args.flags := by
  unfold mmapAlign
  split
  · rfl
  · dsimp only
    split <;> rfl

lemma mmapArgs_flags {pageSize : W64} {args : MmapArgs} :
    (mmapArgs pageSize args).flags = translateMmapFlags args.flags := by
  rw [mmapArgs, mmapAlign_flags, mmapAnon, translateMmapFlags]
  split <;> rfl

section OpenFlags

variable {w : W32} {k : ℕ}

lemma getLsbD_mapBits {table : List (W32 × W32)} {out : W32} :
    (Syscall.mapBits w table out).getLsbD k =
      (out.getLsbD k || table.any fun e => decide (w &&& e.1 ≠ 0) && e.2.getLsbD k) := by
  rw [← getLsbD_foldl_or, Syscall.mapBits]
  congr 2
  funext out e
  by_cases clear : w &&& e.1 = 0 <;> simp [clear]

def commonFlags : List (W32 × W32) :=
  [(MACOS_O_NONBLOCK, LINUX_O_NONBLOCK), (MACOS_O_APPEND, LINUX_O_APPEND),
   (MACOS_O_SYNC, LINUX_O_SYNC), (MACOS_O_NOFOLLOW, LINUX_O_NOFOLLOW),
   (MACOS_O_CREAT, LINUX_O_CREAT), (MACOS_O_TRUNC, LINUX_O_TRUNC), (MACOS_O_EXCL, LINUX_O_EXCL),
   (MACOS_O_NOCTTY, LINUX_O_NOCTTY), (MACOS_O_CLOEXEC, LINUX_O_CLOEXEC)]

def commonBit (w : W32) (k : ℕ) : Bool :=
  (w &&& 0x3).getLsbD k || commonFlags.any fun e => decide (w &&& e.1 ≠ 0) && e.2.getLsbD k

lemma getLsbD_openFlags {table : List (W32 × W32)} {e : W32 × W32} (perm : table.Perm (e :: commonFlags)) :
    (Syscall.mapBits w table (w &&& 0x3)).getLsbD k =
      (commonBit w k || (decide (w &&& e.1 ≠ 0) && e.2.getLsbD k)) := by
  rw [getLsbD_mapBits, perm.any_eq, List.any_cons, commonBit, Bool.or_assoc]
  congr 1
  exact Bool.or_comm _ _

lemma getLsbD_loader_open : (Syscall.translateOpenFlags w).getLsbD k =
    (commonBit w k || (decide (w &&& 0x40 ≠ 0) && Syscall.O_ASYNC.getLsbD k)) := by
  rw [Syscall.translateOpenFlags]
  refine getLsbD_openFlags (e := (0x40, Syscall.O_ASYNC)) ?_
  decide +kernel

lemma getLsbD_shim_open : (translateOpenFlags w).getLsbD k =
    (commonBit w k || (decide (w &&& MACOS_O_DIRECTORY ≠ 0) && LINUX_O_DIRECTORY.getLsbD k)) := by
  rw [translateOpenFlags]
  refine getLsbD_openFlags (e := (MACOS_O_DIRECTORY, LINUX_O_DIRECTORY)) ?_
  decide +kernel

lemma commonBit_absent (base : (3 : W32).getLsbD k = false)
    (absent : commonFlags.all (fun e => !e.2.getLsbD k) = true) : commonBit w k = false := by
  rw [commonBit, BitVec.getLsbD_and, base, Bool.and_false, Bool.false_or, List.any_eq_false]
  intro e mem
  rw [(Bool.not_eq_true' _).mp (List.all_eq_true.mp absent e mem), Bool.and_false]
  exact Bool.false_ne_true

lemma openFlags_agree_iff :
    Syscall.translateOpenFlags w = translateOpenFlags w ↔
      w &&& 0x40 = 0 ∧ w &&& MACOS_O_DIRECTORY = 0 := by
  constructor
  · intro same
    have bit (k : ℕ) := congrArg (BitVec.getLsbD · k) same
    simp only [getLsbD_loader_open, getLsbD_shim_open] at bit
    -- bit 13 is `O_ASYNC` and bit 16 is `O_DIRECTORY`; no common pair sets one of them
    have async := bit 13
    have directory := bit 16
    rw [commonBit_absent (by decide) (by decide)] at async directory
    simpa using And.intro async directory
  · rintro ⟨async, directory⟩
    refine bits_iff.mpr fun k _ => ?_
    rw [getLsbD_loader_open, getLsbD_shim_open, async, directory]
    rfl

end OpenFlags

section MmapFlags

variable {w : W32}

/-- `MAP_SHARED | MAP_PRIVATE | MAP_FIXED | MAP_NORESERVE | MAP_JIT | MAP_ANON` of macOS. -/
abbrev macosMapFlags : W32 := 0x01 ||| 0x02 ||| 0x10 ||| 0x40 ||| 0x800 ||| MACOS_MAP_ANON

def oneFlag (on : Bool) (flag : W32) : W32 := if on then flag else 0

def mapWord (isShared isPrivate fixed noreserve jit anon : Bool) : W32 :=
  oneFlag isShared 0x01 ||| oneFlag isPrivate 0x02 ||| oneFlag fixed 0x10 |||
    oneFlag noreserve 0x40 ||| oneFlag jit 0x800 ||| oneFlag anon MACOS_MAP_ANON

lemma mapWord_of_subset (subset : w &&& macosMapFlags = w) :
    w = mapWord (w.getLsbD 0) (w.getLsbD 1) (w.getLsbD 4) (w.getLsbD 6) (w.getLsbD 11)
      (w.getLsbD 12) := by
  conv_lhs => rw [← subset]
  simp only [macosMapFlags, BitVec.and_or_distrib_left, mapWord]
  have flag (k : ℕ) (f : W32) (pow : f = BitVec.twoPow 32 k) :
      w &&& f = oneFlag (w.getLsbD k) f := by
    rw [pow, BitVec.and_twoPow, oneFlag]
    rfl
  rw [flag 0 0x01 (by decide), flag 1 0x02 (by decide), flag 4 0x10 (by decide),
    flag 6 0x40 (by decide), flag 11 0x800 (by decide), flag 12 MACOS_MAP_ANON (by decide)]

lemma mapWord_agree_iff : ∀ isShared isPrivate fixed noreserve jit anon : Bool,
    (Syscall.translateMmapFlags (mapWord isShared isPrivate fixed noreserve jit anon) =
        translateMmapFlags (mapWord isShared isPrivate fixed noreserve jit anon)) ↔
      mapWord isShared isPrivate fixed noreserve jit anon &&& 0x40 = 0 ∧
        mapWord isShared isPrivate fixed noreserve jit anon &&& 0x800 = 0 := by
  decide +kernel

lemma mmapFlags_agree_iff (subset : w &&& macosMapFlags = w) :
    Syscall.translateMmapFlags w = translateMmapFlags w ↔ w &&& 0x40 = 0 ∧ w &&& 0x800 = 0 := by
  rw [mapWord_of_subset subset]
  exact mapWord_agree_iff ..

end MmapFlags

inductive Translator where
  | openFlags
  | fcntlCmd
  | signal
  | mmapFlags
deriving DecidableEq

namespace Translator

def loader : Translator → W32 → W32
  | openFlags => Syscall.translateOpenFlags
  | fcntlCmd => Syscall.translateFcntlCmd
  | signal => Syscall.translateKillSignal
  | mmapFlags => Syscall.translateMmapFlags

def shim : Translator → W32 → W32
  | openFlags => Shim.translateOpenFlags
  | fcntlCmd => Shim.translateFcntlCmd
  | signal => macosSigToLinux
  | mmapFlags => Shim.translateMmapFlags

/-- The words of macOS that have a meaning in the position. -/
def Domain (w : W32) : Translator → Prop
  | openFlags => True
  | fcntlCmd => w.toNat ≤ 9 ∨ w.toNat = 67
  | signal => 1 ≤ w.toNat ∧ w.toNat ≤ 31
  | mmapFlags => w &&& macosMapFlags = w

/-- Neither `O_ASYNC` nor `O_DIRECTORY`, not the owner of a descriptor, no signal that Linux lacks, neither
    `MAP_NORESERVE` nor `MAP_JIT`. -/
def KnownToBoth (w : W32) : Translator → Prop
  | openFlags => w &&& 0x40 = 0 ∧ w &&& MACOS_O_DIRECTORY = 0
  | fcntlCmd => w.toNat ≠ 5 ∧ w.toNat ≠ 6
  | signal => w.toNat ≠ 7 ∧ w.toNat ≠ 29
  | mmapFlags => w &&& 0x40 = 0 ∧ w &&& 0x800 = 0

end Translator

lemma fcntlCmd_agree_iff {w : W32} (dom : w.toNat ≤ 9 ∨ w.toNat = 67) :
    Syscall.translateFcntlCmd w = translateFcntlCmd w ↔ w.toNat ≠ 5 ∧ w.toNat ≠ 6 := by
  have lt : w.toNat < 68 := by omega
  revert dom
  refine word_rule lt ?_
  decide +kernel

lemma signal_agree_iff {w : W32} (dom : 1 ≤ w.toNat ∧ w.toNat ≤ 31) :
    Syscall.translateKillSignal w = macosSigToLinux w ↔ w.toNat ≠ 7 ∧ w.toNat ≠ 29 := by
  have lt : w.toNat < 32 := by omega
  revert dom
  refine word_rule lt ?_
  decide +kernel

/-- The loader's copy and the shim's copy of a translator give the same word exactly for what both know. -/
theorem translators_agree_iff {t : Translator} {w : W32} (dom : t.Domain w) :
    t.loader w = t.shim w ↔ t.KnownToBoth w := by
  cases t with
  | openFlags => exact openFlags_agree_iff
  | fcntlCmd => exact fcntlCmd_agree_iff dom
  | signal => exact signal_agree_iff dom
  | mmapFlags => exact mmapFlags_agree_iff dom

theorem translators_agree_iff_append :
    Translator.openFlags.loader (0x1 ||| MACOS_O_CREAT ||| MACOS_O_APPEND) =
      Translator.openFlags.shim (0x1 ||| MACOS_O_CREAT ||| MACOS_O_APPEND) :=
  (translators_agree_iff (t := .openFlags) trivial).mpr ⟨by decide, by decide⟩

/-- `O_DIRECTORY` is lost, `F_GETOWN` becomes `F_GETLK`, signal 29 has no number, and `MAP_JIT` reaches Linux. -/
theorem translators_differ :
    Translator.openFlags.loader MACOS_O_DIRECTORY ≠ Translator.openFlags.shim MACOS_O_DIRECTORY ∧
    Translator.fcntlCmd.loader 5 ≠ Translator.fcntlCmd.shim 5 ∧
    Translator.signal.loader 29 ≠ Translator.signal.shim 29 ∧
    Translator.mmapFlags.loader 0x802 ≠ Translator.mmapFlags.shim 0x802 := by
  decide

end Macify.Shim
