import Macify.Exec.Lines
import Macify.Lib.Fields
import Macify.Lib.Scanning
import Macify.Shim.Sysctl

/-!
# Process information

`proc_pidinfo` (`shim/shim_mach.c`) and the `KERN_PROC` branch of `sysctl` (`shim/misc/sysctl.c`) answer from the line
in `/proc/<pid>/stat`, which has the command name in parentheses, as it is, and then numbers. The first looks for the
end of the name from the left, the second from the right. Main result: `process_info_iff`.
-/

namespace Macify.Shim.ProcessInfo
open Lib Image
open Lib.Mem (leBytes wordBytes)
open Exec (LF)
open Sysctl (intBytes ENOENT ENOMEM Query)

inductive StatField where
  | ppid | pgrp | session | ttyNr | tpgid | flags | minflt | cminflt | majflt | cmajflt | utime | stime
  | cutime | cstime | priority | nice | threads | itrealvalue | starttime | vsize | rss
  deriving DecidableEq

namespace StatField

def all : List StatField :=
  [ppid, pgrp, session, ttyNr, tpgid, flags, minflt, cminflt, majflt, cmajflt, utime, stime, cutime, cstime,
    priority, nice, threads, itrealvalue, starttime, vsize, rss]

def conv : StatField → Conv
  | ppid => .d
  | pgrp => .d
  | session => .d
  | ttyNr => .d
  | tpgid => .d
  | flags => .lu
  | minflt => .lu
  | cminflt => .lu
  | majflt => .lu
  | cmajflt => .lu
  | utime => .lu
  | stime => .lu
  | cutime => .lu
  | cstime => .lu
  | priority => .d
  | nice => .d
  | threads => .d
  | itrealvalue => .d
  | starttime => .llu
  | vsize => .lu
  | rss => .ld

end StatField

abbrev CLOSE : UInt8 := 41

def statText (bytes : Buf) : Buf := textOf (Exec.fgets 1024 bytes)

def strchr (c : UInt8) (s : Buf) : Option Buf :=
  let t := s.dropWhile (· != c)
  if t = [] then none else some t

def strrchr (c : UInt8) : Buf → Option Buf
  | [] => none
  | b :: s => (strrchr c s).or (if b = c then some (b :: s) else none)

def scanStat (n : ℕ) (p : Option Buf) : List W64 :=
  p.elim [] fun p => sscanf (.c :: (StatField.all.take n).map StatField.conv) (p.drop 2)

/-- The variable of a field. `uninit` is in the variables that nothing was stored to. -/
def valueAt (uninit : W64) (values : List W64) (f : StatField) : W64 :=
  values.getD (1 + StatField.all.idxOf f) uninit

def statPath (pid : W32) : Buf := ascii "/proc/" ++ decimalInt pid.toInt ++ ascii "/stat"

abbrev PROC_PIDTASKINFO : W32 := 4

def taskInfo (v : StatField → W64) : Buf :=
  wordBytes [v .vsize, v .rss * 4096, v .utime * 10000, v .stime * 10000, 0, 0] ++
    [0, v .minflt + v .majflt, v .majflt, 0, 0, 0, 0, 0, 0, v .threads, 1, v .priority].flatMap intBytes

structure PidReply where
  ret : W32
  written : Buf
  deriving DecidableEq

def procPidinfo (files : Buf → Option Buf) (uninit : W64) (pid flavor : W32) (buffer : Bool)
    (buffersize : W32) : PidReply :=
  if buffer = false ∨ buffersize.toInt ≤ 0 then ⟨0, []⟩
  else
    let zeros := List.replicate buffersize.toNat 0
    if flavor = PROC_PIDTASKINFO then
      match files (statPath pid) with
      | none => ⟨0, zeros⟩
      | some bytes =>
        let values := scanStat 21 (strchr CLOSE (statText bytes))
        if 21 ≤ values.length then
          let info := taskInfo (valueAt uninit values)
          ⟨buffersize, info ++ zeros.drop info.length⟩
        else ⟨buffersize, zeros⟩
    else ⟨0, zeros⟩

abbrev EFAULT : W32 := 14

abbrev KINFO_PROC_SIZE : ℕ := 648
abbrev KP_P_FLAG : ℕ := 0x20
abbrev KP_P_PID : ℕ := 0x28
abbrev KP_P_STAT : ℕ := 0xf0
abbrev KP_E_PPID : ℕ := 0x230
abbrev KP_E_PGID : ℕ := 0x234
abbrev KP_E_TDEV : ℕ := 0x23c
abbrev KP_E_TPGID : ℕ := 0x240

def macStat (state : UInt8) : UInt8 :=
  if state = 82 then 2 -- `R`
  else if state = 83 then 3 -- `S`
  else if state = 68 then 3 -- `D`
  else if state = 90 then 5 -- `Z`
  else if state = 84 then 4 -- `T`
  else if state = 73 then 1 -- `I`
  else 3

def isPidName (name : Buf) : Bool := name.all isdigit && !name.isEmpty

def atoi (s : Buf) : W32 := (scanNumber s).elim 0 fun r => (strtol r.1).setWidth 32

def kinfoStores (v : StatField → W64) (state : UInt8) : List (ℕ × Buf) :=
  [(KP_E_PPID, intBytes (v .ppid)), (KP_E_PGID, intBytes (v .pgrp)), (KP_E_TDEV, intBytes (v .ttyNr)),
    (KP_E_TPGID, intBytes (v .tpgid)), (KP_P_FLAG, intBytes (v .flags)), (KP_P_STAT, [macStat state])]

def kinfoProc (files : Buf → Option Buf) (pid : W32) : Buf :=
  let kp := putAt (List.replicate KINFO_PROC_SIZE 0) KP_P_PID (leBytes 4 pid.toNat)
  match files (statPath pid) with
  | none => kp
  | some bytes =>
    let values := scanStat 6 (strrchr CLOSE (statText bytes))
    if 7 ≤ values.length then
      putAll kp (kinfoStores (valueAt 0 values) (UInt8.ofNat (values.getD 0 0).toNat))
    else kp

def listProcs (files : Buf → Option Buf) : ℕ → List Buf → Buf
  | room, [] => List.replicate (room * KINFO_PROC_SIZE) 0
  | 0, _ :: _ => []
  | room + 1, name :: names =>
    if isPidName name then kinfoProc files (atoi name) ++ listProcs files room names
    else listProcs files (room + 1) names

def kernProc (noProcs : Bool) (first second : Option (List Buf)) (files : Buf → Option Buf) (q : Query) :
    Sysctl.Reply :=
  if noProcs then ⟨0, none, [], q.oldlenp.map fun _ => 0⟩
  else match first with
  | none => q.unchanged (-1) (some ENOENT)
  | some names =>
    let count := names.countP isPidName
    let needed := count * KINFO_PROC_SIZE
    if q.oldp = false then ⟨0, none, [], q.oldlenp.map fun _ => needed⟩
    else match q.oldlenp with
    | none => q.unchanged (-1) (some EFAULT)
    | some oldlen =>
      if oldlen < needed then q.unchanged (-1) (some ENOMEM)
      else match second with
      | none => ⟨-1, some ENOENT, List.replicate needed 0, some oldlen⟩
      | some names => ⟨0, none, listProcs files count names, some needed⟩

def stateLetters : Buf := ascii "RSDTtXZPI"

/-- The command name has at most 15 bytes other than the end of a line; `more` has the numbers behind the fields. -/
structure Stat where
  pid : W32
  comm : Buf
  state : UInt8
  num : StatField → ℤ
  more : List ℤ
  nonneg : 0 ≤ pid.toInt
  short : comm.length ≤ 15
  text : ∀ b ∈ comm, b ≠ 0 ∧ b ≠ LF
  letter : state ∈ stateLetters
  fits : ∀ f : StatField, f.conv.Fits (num f)

namespace Stat

def opening (s : Stat) : Buf := decimalInt s.pid.toInt ++ ascii " (" ++ s.comm

def line (s : Stat) : Buf :=
  s.opening ++ CLOSE :: 32 :: s.state :: (printed (StatField.all.map s.num) ++ (printed s.more ++ [LF]))

def value (s : Stat) (f : StatField) : W64 := BitVec.ofInt 64 (s.num f)

end Stat

structure OwnTaskInfo (s : Stat) (b : Buf) : Prop where
  virtualSize : u64 b 0 = s.value .vsize
  residentSize : u64 b 8 = s.value .rss * 4096
  totalUser : u64 b 16 = s.value .utime * 10000
  totalSystem : u64 b 24 = s.value .stime * 10000
  threadnum : u32 b 84 = BitVec.ofInt 32 (s.num .threads)
  priority : u32 b 92 = BitVec.ofInt 32 (s.num .priority)

/-- The parent, group, terminal and state in the record at offset `k` are those of the process. -/
structure OwnKinfo (s : Stat) (b : Buf) (k : ℕ) : Prop where
  ppid : u32 b (k + KP_E_PPID) = BitVec.ofInt 32 (s.num .ppid)
  pgid : u32 b (k + KP_E_PGID) = BitVec.ofInt 32 (s.num .pgrp)
  tdev : u32 b (k + KP_E_TDEV) = BitVec.ofInt 32 (s.num .ttyNr)
  tpgid : u32 b (k + KP_E_TPGID) = BitVec.ofInt 32 (s.num .tpgid)
  stat : byte b (k + KP_P_STAT) = macStat s.state

/-- What `proc_pidinfo` is to do: fill a buffer that is large enough, and store nothing behind any buffer. -/
structure PidinfoRight (s : Stat) (flavor : W32) (buffer : Bool) (buffersize : W32) (r : PidReply) : Prop where
  own : flavor = PROC_PIDTASKINFO → buffer = true → 96 ≤ buffersize.toInt → OwnTaskInfo s r.written
  bound : (r.written.length : ℤ) ≤ max 0 buffersize.toInt

/-- Whenever the process is the `i`-th one of the second pass and there is a record for it, that record is its own. -/
def KernProcRight (s : Stat) (files : Buf → Option Buf) : Prop :=
  ∀ (first second : List Buf) (len i : ℕ), i < first.countP isPidName →
    first.countP isPidName * KINFO_PROC_SIZE ≤ len →
    (second.filter isPidName)[i]? = some (decimalInt s.pid.toInt) →
    OwnKinfo s (kernProc false (some first) (some second) files ⟨true, some len⟩).written (KINFO_PROC_SIZE * i)

structure Stat.Blank (s : Stat) : Prop where
  vsize : s.value .vsize = 0
  rss : s.value .rss * 4096 = 0
  utime : s.value .utime * 10000 = 0
  stime : s.value .stime * 10000 = 0
  threads : BitVec.ofInt 32 (s.num .threads) = 0
  priority : BitVec.ofInt 32 (s.num .priority) = 0

/-- A buffer that is too small is left alone because of a parenthesis in the name, or it is large enough and
    there is none. -/
def Stat.Parsed (s : Stat) (size : ℤ) : Prop :=
  if size < 96 then CLOSE ∈ s.comm else CLOSE ∉ s.comm ∨ s.Blank

section Lines

variable {s : Stat} {b c : UInt8} {t u : Buf}

lemma stateLetters_eq : stateLetters = [82, 83, 68, 84, 116, 88, 90, 80, 73] := by decide

lemma Stat.state_stops (s : Stat) : Stops s.state ∧ s.state ≠ 0 ∧ s.state ≠ LF ∧ s.state ≠ CLOSE := by
  have letter := s.letter
  rw [stateLetters_eq] at letter
  simp only [List.mem_cons, List.not_mem_nil, or_false] at letter
  rcases letter with is | is | is | is | is | is | is | is | is
  all_goals
    rw [is]
    decide

def Stat.front (s : Stat) : Buf :=
  s.opening ++ CLOSE :: 32 :: s.state :: printed (StatField.all.map s.num)

lemma Stat.line_eq (s : Stat) : s.line = s.front ++ (printed s.more ++ [LF]) := by
  rw [line, front, List.append_assoc]
  rfl

lemma opening_eq : ascii " (" = [32, 40] := by decide

lemma Stat.not_mem_opening (digit : isdigit b = false) (minus : b ≠ MINUS) (space : b ≠ 32) (paren : b ≠ 40)
    (comm : b ∉ s.comm) : b ∉ s.opening := by
  rw [opening, opening_eq]
  simp only [List.mem_append, List.mem_cons, List.not_mem_nil, or_false, not_or]
  exact ⟨⟨not_mem_decimalInt digit minus, space, paren⟩, comm⟩

lemma Stat.not_mem_front (is : b = 0 ∨ b = LF) : b ∉ s.front := by
  have comm : b ∉ s.comm := fun mem => is.elim (s.text b mem).1 (s.text b mem).2
  obtain ⟨-, zero, lf, -⟩ := s.state_stops
  have state : b ≠ s.state := is.elim (fun is => is ▸ zero.symm) fun is => is ▸ lf.symm
  have apart : isdigit b = false ∧ b ≠ MINUS ∧ b ≠ 32 ∧ b ≠ 40 ∧ b ≠ CLOSE := by
    rcases is with rfl | rfl <;> decide
  obtain ⟨digit, minus, space, paren, close⟩ := apart
  rw [front, List.mem_append, List.mem_cons, List.mem_cons, List.mem_cons]
  simp only [not_or]
  exact ⟨not_mem_opening digit minus space paren comm, close, space, state, not_mem_printed digit minus space⟩

lemma Stat.length_opening_le (s : Stat) : s.opening.length ≤ 28 := by
  have pid : (decimalInt s.pid.toInt).length ≤ 11 := by
    refine length_decimalInt_le (by decide) ?_
    have lo := BitVec.le_toInt s.pid
    have hi := BitVec.toInt_lt (x := s.pid)
    omega
  have short := s.short
  rw [opening, opening_eq]
  simp only [List.length_append, List.length_cons, List.length_nil]
  omega

lemma Stat.length_front_lt (s : Stat) : s.front.length < 1024 := by
  have numbers : (printed (StatField.all.map s.num)).length ≤ 21 * 22 := by
    refine length_printed_le fun i mem => ?_
    obtain ⟨f, -, rfl⟩ := List.mem_map.mp mem
    exact length_decimalInt_le (by decide) (Conv.natAbs_of_fits (s.fits f))
  have opening := s.length_opening_le
  rw [front, List.length_append, List.length_cons, List.length_cons, List.length_cons]
  omega

lemma statText_line (s : Stat) : ∃ rest, statText s.line = s.front ++ rest ∧
    (∀ b ∈ rest.head?, isdigit b = false) ∧ CLOSE ∉ rest := by
  have begins := @Exec.fgets_begins (printed s.more ++ [LF]) (1024 - s.front.length)
  have read : Exec.fgets 1024 s.line = s.front ++ Exec.fgets (1024 - s.front.length) (printed s.more ++ [LF]) := by
    rw [s.line_eq]
    exact Exec.fgets_append (fun b mem eq => Stat.not_mem_front (.inr eq) mem) s.length_front_lt
  have sub : ∀ b ∈ Exec.fgets (1024 - s.front.length) (printed s.more ++ [LF]), b ∈ printed s.more ∨ b = LF :=
    fun b mem => by
      have mem := begins.subset mem
      rw [List.mem_append, List.mem_singleton] at mem
      exact mem
  refine ⟨Exec.fgets (1024 - s.front.length) (printed s.more ++ [LF]), ?_, fun b mem => ?_, fun mem => ?_⟩
  · rw [statText, read, textOf, List.takeWhile_eq_self_iff]
    intro b mem
    refine bne_iff_ne.mpr ?_
    rintro rfl
    rw [List.mem_append] at mem
    rcases mem with mem | mem
    · exact Stat.not_mem_front (.inl rfl) mem
    · exact (sub 0 mem).elim (not_mem_printed rfl (by decide) (by decide)) (by decide)
  · refine printed_ended (fun b mem => ?_) b (Exec.head?_of_begins begins mem)
    cases mem
    rfl
  · exact (sub CLOSE mem).elim (not_mem_printed rfl (by decide) (by decide)) (by decide)

lemma strchr_append (front : c ∉ t) : strchr c (t ++ c :: u) = some (c :: u) := by
  have others : ∀ b ∈ t, (b != c) = true := fun b mem => bne_iff_ne.mpr fun eq => front (eq ▸ mem)
  have skip : (t ++ c :: u).dropWhile (· != c) = c :: u := by
    rw [List.dropWhile_append_of_pos others,
      List.dropWhile_cons_of_neg (by rw [bne_self_eq_false]; exact Bool.false_ne_true)]
  rw [strchr, skip]
  exact if_neg (List.cons_ne_nil _ _)

lemma strrchr_none (absent : c ∉ t) : strrchr c t = none := by
  induction t with
  | nil => rfl
  | cons b t ih =>
    rw [List.mem_cons, not_or] at absent
    rw [strrchr, ih absent.2, if_neg fun eq => absent.1 eq.symm]
    rfl

lemma strrchr_append (back : c ∉ u) : strrchr c (t ++ c :: u) = some (c :: u) := by
  induction t with
  | nil =>
    rw [List.nil_append, strrchr, strrchr_none back, if_pos rfl]
    rfl
  | cons b t ih =>
    rw [List.cons_append, strrchr, ih]
    rfl

end Lines

section Values

variable {s : Stat} {n : ℕ} {rest t : Buf} {convs : List Conv} {b : UInt8}

lemma sscanf_char (numbers : ∀ conv ∈ convs, conv ≠ .c) :
    sscanf (.c :: convs) (b :: t) = (b.toNat : W64) :: sscanf convs t := by
  rw [sscanf, Conv.scan, if_pos rfl]
  show _ :: sscanf convs (t.dropWhile isspace) = _
  rw [sscanf_skip numbers]

lemma conv_number {conv : Conv} (mem : conv ∈ (StatField.all.take n).map StatField.conv) : conv ≠ .c := by
  obtain ⟨f, -, rfl⟩ := List.mem_map.mp mem
  cases f <;> decide

def Stat.values (s : Stat) (n : ℕ) : List W64 :=
  (s.state.toNat : W64) :: (StatField.all.take n).map s.value

lemma scanStat_end (ended : ∀ b ∈ rest.head?, isdigit b = false) :
    scanStat n (some (CLOSE :: 32 :: s.state :: (printed (StatField.all.map s.num) ++ rest))) = s.values n := by
  have divided : printed (StatField.all.map s.num) =
      printed ((StatField.all.take n).map s.num) ++ printed ((StatField.all.drop n).map s.num) := by
    rw [printed, printed, printed, ← List.flatMap_append, ← List.map_append, List.take_append_drop]
  show sscanf (.c :: (StatField.all.take n).map StatField.conv)
    (s.state :: (printed (StatField.all.map s.num) ++ rest)) = s.values n
  rw [sscanf_char fun conv mem => conv_number mem, divided, List.append_assoc,
    sscanf_printed (fun f _ => s.fits f) (printed_ended ended)]
  rfl

lemma scanStat_within {a : Buf} (short : t.length ≤ 14) :
    (scanStat n (some (CLOSE :: (t ++ CLOSE :: 32 :: s.state :: a)))).length < 21 := by
  have few : ∀ b r stop more, Stops stop → r.length ≤ 13 →
      (sscanf (.c :: (StatField.all.take n).map StatField.conv) (b :: (r ++ stop :: more))).length < 21 := by
    intro b r stop more stops le
    rw [sscanf_char fun conv mem => conv_number mem, List.length_cons]
    have bound := @sscanf_stops stop r more ((StatField.all.take n).map StatField.conv) stops
      fun conv mem => conv_number mem
    omega
  cases t with
  | nil => exact few 32 [] s.state a s.state_stops.1 (by decide)
  | cons x t =>
    cases t with
    | nil => exact few CLOSE [32] s.state a s.state_stops.1 (by decide)
    | cons y t =>
      rw [List.length_cons, List.length_cons] at short
      exact few y t CLOSE _ (by decide) (by omega)

lemma valueAt_values {uninit : W64} (f : StatField) : valueAt uninit (s.values 21) f = s.value f := by
  cases f <;> rfl

lemma Stat.front_append {s : Stat} : s.front ++ rest =
    s.opening ++ CLOSE :: 32 :: s.state :: (printed (StatField.all.map s.num) ++ rest) := by
  rw [front, List.append_assoc]
  rfl

lemma scanStat_first (clear : CLOSE ∉ s.comm) : scanStat 21 (strchr CLOSE (statText s.line)) = s.values 21 := by
  obtain ⟨rest, read, ended, -⟩ := statText_line s
  have opening : CLOSE ∉ s.opening := Stat.not_mem_opening rfl (by decide) (by decide) (by decide) clear
  rw [read, Stat.front_append, strchr_append opening, scanStat_end ended]

lemma scanStat_first_within (within : CLOSE ∈ s.comm) :
    (scanStat 21 (strchr CLOSE (statText s.line))).length < 21 := by
  obtain ⟨rest, read, -, -⟩ := statText_line s
  obtain ⟨a, b, comm, clear⟩ := List.eq_append_cons_of_mem within
  have short : b.length ≤ 14 := by
    have short := s.short
    rw [comm, List.length_append, List.length_cons] at short
    omega
  have before : CLOSE ∉ decimalInt s.pid.toInt ++ ascii " (" ++ a := by
    rw [opening_eq, List.mem_append, List.mem_append]
    simp only [not_or]
    exact ⟨⟨not_mem_decimalInt rfl (by decide), by decide⟩, clear⟩
  rw [read, Stat.front_append, Stat.opening, comm, ← List.append_assoc, List.append_assoc _ (CLOSE :: b),
    List.cons_append, strchr_append before]
  exact scanStat_within short

lemma scanStat_last : scanStat 6 (strrchr CLOSE (statText s.line)) = s.values 6 := by
  obtain ⟨rest, read, ended, clear⟩ := statText_line s
  have numbers : CLOSE ∉ 32 :: s.state :: (printed (StatField.all.map s.num) ++ rest) := by
    rw [List.mem_cons, List.mem_cons, List.mem_append]
    simp only [not_or]
    exact ⟨by decide, s.state_stops.2.2.2.symm, not_mem_printed rfl (by decide) (by decide), clear⟩
  rw [read, Stat.front_append, strrchr_append numbers, scanStat_end ended]

end Values

section TaskInfo

variable {s : Stat} {files : Buf → Option Buf} {uninit : W64} {flavor buffersize : W32} {more : Buf}
  {i n k : ℕ}

lemma length_taskInfo {v : StatField → W64} : (taskInfo v).length = 96 := by
  rw [taskInfo, List.length_append, Mem.length_wordBytes, List.length_flatMap]
  simp [intBytes]

lemma u64_wordBytes {ws : List W64} (lt : i < ws.length) : u64 (wordBytes ws ++ more) (8 * i) = ws[i] := by
  rw [u64, wordBytes, leAt_flatMap lt, show 256 ^ 8 = 2 ^ 64 from rfl, Nat.mod_eq_of_lt ws[i].isLt,
    BitVec.ofNat_toNat, BitVec.setWidth_eq]

lemma u32_intBytes {a : Buf} {vs : List W64} (lt : i < vs.length) :
    u32 (a ++ (vs.flatMap intBytes ++ more)) (a.length + 4 * i) = vs[i].setWidth 32 := by
  have bytes : vs.flatMap intBytes = vs.flatMap fun v => leBytes 4 (v.setWidth 32).toNat := rfl
  rw [u32, leAt_append_right, bytes, leAt_flatMap lt, show 256 ^ 4 = 2 ^ 32 from rfl,
    Nat.mod_eq_of_lt (vs[i].setWidth 32).isLt, BitVec.ofNat_toNat, BitVec.setWidth_eq]

lemma setWidth_ofInt {i : ℤ} : (BitVec.ofInt 64 i).setWidth 32 = BitVec.ofInt 32 i := by
  apply BitVec.eq_of_toNat_eq
  rw [BitVec.toNat_setWidth, BitVec.toNat_ofInt, BitVec.toNat_ofInt]
  omega

lemma setWidth_value (f : StatField) : (s.value f).setWidth 32 = BitVec.ofInt 32 (s.num f) := setWidth_ofInt

lemma ownTaskInfo (s : Stat) : OwnTaskInfo s (taskInfo s.value ++ more) := by
  have words : ∀ ws vs : List W64, wordBytes ws ++ vs.flatMap intBytes ++ more =
      wordBytes ws ++ (vs.flatMap intBytes ++ more) := fun _ _ => List.append_assoc _ _ _
  refine ⟨?_, ?_, ?_, ?_, ?_, ?_⟩
  all_goals rw [taskInfo, words]
  · exact u64_wordBytes (i := 0) (by simp)
  · exact u64_wordBytes (i := 1) (by simp)
  · exact u64_wordBytes (i := 2) (by simp)
  · exact u64_wordBytes (i := 3) (by simp)
  · rw [← setWidth_value]
    exact u32_intBytes (a := wordBytes _) (i := 9) (by simp)
  · rw [← setWidth_value]
    exact u32_intBytes (a := wordBytes _) (i := 11) (by simp)

lemma ownTaskInfo_zeros : OwnTaskInfo s (List.replicate k 0) ↔ s.Blank := by
  have words : ∀ i, u64 (List.replicate k 0) i = 0 := fun i => by rw [u64, leAt_zeros]; rfl
  have ints : ∀ i, u32 (List.replicate k 0) i = 0 := fun i => by rw [u32, leAt_zeros]; rfl
  constructor
  · intro own
    exact ⟨own.1.symm.trans (words _), own.2.symm.trans (words _), own.3.symm.trans (words _),
      own.4.symm.trans (words _), own.5.symm.trans (ints _), own.6.symm.trans (ints _)⟩
  · intro blank
    exact ⟨(words _).trans blank.1.symm, (words _).trans blank.2.symm, (words _).trans blank.3.symm,
      (words _).trans blank.4.symm, (ints _).trans blank.5.symm, (ints _).trans blank.6.symm⟩

lemma procPidinfo_refuses {pid : W32} {buffer : Bool} (refuses : buffer = false ∨ buffersize.toInt ≤ 0) :
    (procPidinfo files uninit pid flavor buffer buffersize).written = [] := by
  rw [procPidinfo, if_pos refuses]

section

variable (pos : 0 < buffersize.toInt)
include pos

lemma procPidinfo_other {pid : W32} (other : flavor ≠ PROC_PIDTASKINFO) :
    (procPidinfo files uninit pid flavor true buffersize).written = List.replicate buffersize.toNat 0 := by
  rw [procPidinfo, if_neg (by simp only [Bool.true_eq_false, false_or, not_le]; exact pos), if_neg other]

lemma procPidinfo_task (is : files (statPath s.pid) = some s.line) :
    (procPidinfo files uninit s.pid PROC_PIDTASKINFO true buffersize).written =
      if CLOSE ∈ s.comm then List.replicate buffersize.toNat 0
      else taskInfo s.value ++ (List.replicate buffersize.toNat 0).drop 96 := by
  rw [procPidinfo, if_neg (by simp only [Bool.true_eq_false, false_or, not_le]; exact pos), if_pos rfl, is]
  dsimp only
  by_cases within : CLOSE ∈ s.comm
  · rw [if_pos within, if_neg (Nat.not_le.mpr (scanStat_first_within within))]
  · have values : valueAt uninit (s.values 21) = s.value := funext valueAt_values
    have enough : 21 ≤ (s.values 21).length := Nat.le_succ 21
    rw [if_neg within, scanStat_first within, if_pos enough, values, length_taskInfo]

lemma toNat_of_pos : (buffersize.toNat : ℤ) = buffersize.toInt := by
  rw [BitVec.toInt_eq_toNat_cond] at pos ⊢
  split at pos
  · next low => rw [if_pos low]
  · have := buffersize.isLt
    omega

lemma right_of_zeros {r : PidReply} (written : r.written = List.replicate buffersize.toNat 0) :
    PidinfoRight s PROC_PIDTASKINFO true buffersize r ↔ (96 ≤ buffersize.toInt → s.Blank) := by
  have size := toNat_of_pos pos
  constructor
  · intro right large
    have own := right.own rfl rfl large
    rw [written] at own
    exact ownTaskInfo_zeros.mp own
  · intro blank
    refine ⟨fun _ _ large => ?_, ?_⟩
    · rw [written]
      exact ownTaskInfo_zeros.mpr (blank large)
    · rw [written, List.length_replicate, size]
      exact le_max_right _ _

lemma right_of_info {r : PidReply}
    (written : r.written = taskInfo s.value ++ (List.replicate buffersize.toNat 0).drop 96) :
    PidinfoRight s PROC_PIDTASKINFO true buffersize r ↔ 96 ≤ buffersize.toInt := by
  have size := toNat_of_pos pos
  have length : r.written.length = 96 + (buffersize.toNat - 96) := by
    rw [written, List.length_append, length_taskInfo, List.length_drop, List.length_replicate]
  constructor
  · intro right
    have bound := right.bound
    rw [length, max_eq_right pos.le] at bound
    omega
  · intro large
    refine ⟨fun _ _ _ => ?_, ?_⟩
    · rw [written]
      exact ownTaskInfo s
    · rw [length, max_eq_right pos.le]
      omega

lemma right_task_iff (is : files (statPath s.pid) = some s.line) :
    PidinfoRight s PROC_PIDTASKINFO true buffersize
        (procPidinfo files uninit s.pid PROC_PIDTASKINFO true buffersize) ↔ s.Parsed buffersize.toInt := by
  have written := @procPidinfo_task s files uninit buffersize pos is
  by_cases within : CLOSE ∈ s.comm
  · rw [if_pos within] at written
    rw [right_of_zeros pos written, Stat.Parsed]
    by_cases small : buffersize.toInt < 96
    · rw [if_pos small]
      exact iff_of_true (fun large => absurd small (not_lt.mpr large)) within
    · rw [if_neg small, or_iff_right (not_not.mpr within)]
      exact forall_prop_of_true (not_lt.mp small)
  · rw [if_neg within] at written
    rw [right_of_info pos written, Stat.Parsed]
    by_cases small : buffersize.toInt < 96
    · rw [if_pos small]
      exact iff_of_false (not_le.mpr small) within
    · rw [if_neg small]
      exact iff_of_true (not_lt.mp small) (.inl within)

end

lemma pidinfoRight_iff {buffer : Bool} (is : files (statPath s.pid) = some s.line) :
    PidinfoRight s flavor buffer buffersize (procPidinfo files uninit s.pid flavor buffer buffersize) ↔
      (flavor = PROC_PIDTASKINFO → buffer = true → 0 < buffersize.toInt → s.Parsed buffersize.toInt) := by
  by_cases refuses : buffer = false ∨ buffersize.toInt ≤ 0
  · have idle : buffer = true → ¬ 0 < buffersize.toInt := fun is pos =>
      refuses.elim (fun no => Bool.false_ne_true (no.symm.trans is)) (not_le.mpr pos)
    refine iff_of_true ⟨fun _ is large => absurd (by omega) (idle is), ?_⟩ fun _ is pos => absurd pos (idle is)
    rw [procPidinfo_refuses refuses]
    exact le_max_left _ _
  · rw [not_or, Bool.not_eq_false, not_le] at refuses
    obtain ⟨rfl, pos⟩ := refuses
    by_cases task : flavor = PROC_PIDTASKINFO
    · cases task
      rw [right_task_iff pos is]
      exact ⟨fun parsed _ _ _ => parsed, fun all => all rfl rfl pos⟩
    · refine iff_of_true ⟨fun is => absurd is task, ?_⟩ fun is => absurd is task
      rw [procPidinfo_other pos task, List.length_replicate, toNat_of_pos pos]
      exact le_max_right _ _

end TaskInfo

section Records

variable {s : Stat} {files : Buf → Option Buf} {b more a : Buf} {k i room : ℕ} {pid : W32} {x : W64}
  {ps : List (ℕ × Buf)} {v : StatField → W64} {state : UInt8}

lemma length_intBytes : (intBytes x).length = 4 := Mem.length_leBytes

lemma u32_stored (inside : ∀ p ∈ ps, p.1 + p.2.length ≤ b.length) (apart : ps.Pairwise StoresApart)
    (mem : (k, intBytes x) ∈ ps) : u32 (putAll b ps) k = x.setWidth 32 := by
  have found := leAt_putAll inside apart mem
  rw [length_intBytes, intBytes, Mem.ofLe_leBytes, show 256 ^ 4 = 2 ^ 32 from rfl,
    Nat.mod_eq_of_lt (x.setWidth 32).isLt] at found
  rw [u32, found, BitVec.ofNat_toNat, BitVec.setWidth_eq]

lemma stores_inside (length : b.length = KINFO_PROC_SIZE) :
    ∀ p ∈ kinfoStores v state, p.1 + p.2.length ≤ b.length := by
  rw [length]
  simp [kinfoStores, length_intBytes]
  decide

lemma stores_apart : (kinfoStores v state).Pairwise StoresApart := by
  simp [kinfoStores, StoresApart, length_intBytes]
  decide

lemma length_zeroed :
    (putAt (List.replicate KINFO_PROC_SIZE 0) KP_P_PID (leBytes 4 pid.toNat)).length = KINFO_PROC_SIZE := by
  rw [length_putAt, List.length_replicate]
  rw [Mem.length_leBytes, List.length_replicate]
  decide

lemma length_kinfoProc : (kinfoProc files pid).length = KINFO_PROC_SIZE := by
  rw [kinfoProc]
  cases files (statPath pid) with
  | none => exact length_zeroed
  | some bytes =>
    dsimp only
    split
    · rw [length_putAll (stores_inside length_zeroed), length_zeroed]
    · exact length_zeroed

lemma kinfoProc_eq (is : files (statPath s.pid) = some s.line) : kinfoProc files s.pid =
    putAll (putAt (List.replicate KINFO_PROC_SIZE 0) KP_P_PID (leBytes 4 s.pid.toNat))
      (kinfoStores s.value s.state) := by
  have state : UInt8.ofNat ((s.values 6).getD 0 0).toNat = s.state := by
    have small : s.state.toNat < 2 ^ 64 := s.state.toNat_lt.trans (by decide)
    show UInt8.ofNat (BitVec.ofNat 64 s.state.toNat).toNat = s.state
    rw [BitVec.toNat_ofNat, Nat.mod_eq_of_lt small, UInt8.ofNat_toNat]
  rw [kinfoProc, is]
  dsimp only
  rw [scanStat_last, if_pos (show 7 ≤ (s.values 6).length from le_refl 7), state]
  rfl

lemma ownKinfo (is : files (statPath s.pid) = some s.line) :
    OwnKinfo s (a ++ (kinfoProc files s.pid ++ more)) a.length := by
  have inside : ∀ p ∈ kinfoStores s.value s.state, p.1 + p.2.length ≤
      (putAt (List.replicate KINFO_PROC_SIZE 0) KP_P_PID (leBytes 4 s.pid.toNat)).length :=
    stores_inside length_zeroed
  have length := @length_kinfoProc files s.pid
  have ints : ∀ k f, (k, intBytes (s.value f)) ∈ kinfoStores s.value s.state → k + 4 ≤ KINFO_PROC_SIZE →
      u32 (a ++ (kinfoProc files s.pid ++ more)) (a.length + k) = BitVec.ofInt 32 (s.num f) := by
    intro k f mem le
    rw [← setWidth_value, ← u32_stored inside stores_apart mem, ← kinfoProc_eq is, u32, leAt_append_right,
      leAt_append (by rw [length]; exact le)]
    rfl
  refine ⟨ints _ _ (.head _) (by decide), ints _ _ (.tail _ (.head _)) (by decide),
    ints _ _ (.tail _ (.tail _ (.head _))) (by decide),
    ints _ _ (.tail _ (.tail _ (.tail _ (.head _)))) (by decide), ?_⟩
  have stored : (KP_P_STAT, [macStat s.state]) ∈ kinfoStores s.value s.state :=
    .tail _ (.tail _ (.tail _ (.tail _ (.tail _ (.head _)))))
  have found := leAt_putAll inside stores_apart stored
  rw [← kinfoProc_eq is, List.length_singleton, leAt_one] at found
  apply UInt8.toNat_inj.mp
  rw [byte_append_right, byte_append_left (by rw [length]; decide), found]
  rfl

lemma listProcs_at {second : List Buf} {name : Buf} (entry : (second.filter isPidName)[i]? = some name)
    (lt : i < room) : ∃ before after, before.length = KINFO_PROC_SIZE * i ∧
      listProcs files room second = before ++ (kinfoProc files (atoi name) ++ after) := by
  induction second generalizing room i with
  | nil => exact absurd entry.symm (Option.some_ne_none _)
  | cons first second ih =>
    obtain ⟨room, rfl⟩ := Nat.exists_eq_succ_of_ne_zero (Nat.ne_of_gt (Nat.zero_lt_of_lt lt))
    rw [listProcs]
    by_cases process : isPidName first
    · rw [if_pos process]
      rw [List.filter_cons_of_pos process] at entry
      cases i with
      | zero =>
        cases entry
        exact ⟨[], listProcs files room second, rfl, rfl⟩
      | succ i =>
        obtain ⟨before, after, length, eq⟩ := ih entry (Nat.lt_of_succ_lt_succ lt)
        refine ⟨kinfoProc files (atoi first) ++ before, after, ?_, ?_⟩
        · rw [List.length_append, length_kinfoProc, length, Nat.mul_succ, Nat.add_comm]
        · rw [eq, List.append_assoc]
    · rw [if_neg process]
      rw [List.filter_cons_of_neg process] at entry
      exact ih entry lt

lemma atoi_decimalInt : atoi (decimalInt pid.toInt) = pid := by
  have lo := BitVec.le_toInt pid
  have hi := BitVec.toInt_lt (x := pid)
  rw [atoi, scanNumber_decimalInt, Option.elim_some, strtol_of_le (by omega) (by omega), setWidth_ofInt,
    BitVec.ofInt_toInt]

lemma kernProcRight (is : files (statPath s.pid) = some s.line) : KernProcRight s files := by
  intro first second len i lt room entry
  obtain ⟨before, after, length, eq⟩ := @listProcs_at files i _ second _ entry lt
  rw [kernProc, if_neg Bool.false_ne_true]
  dsimp only
  rw [if_neg (by decide), if_neg (Nat.not_lt.mpr room), eq, atoi_decimalInt, ← length]
  exact ownKinfo is

end Records

/-- What belongs to the process is stored, and nothing behind the buffer, exactly when `proc_pidinfo` has at least 96
    bytes and there is no closing parenthesis in the name; except for calls that ask for nothing, processes that have
    only zeros, and a small buffer that is left alone. -/
theorem process_info_iff (s : Stat) (files : Buf → Option Buf) (is : files (statPath s.pid) = some s.line)
    (uninit : W64) (flavor : W32) (buffer : Bool) (buffersize : W32) :
    PidinfoRight s flavor buffer buffersize (procPidinfo files uninit s.pid flavor buffer buffersize) ∧
        KernProcRight s files ↔
      (flavor = PROC_PIDTASKINFO → buffer = true → 0 < buffersize.toInt → s.Parsed buffersize.toInt) := by
  rw [pidinfoRight_iff is]
  exact and_iff_left (kernProcRight is)

def onesNamed (comm : Buf) (short : comm.length ≤ 15) (text : ∀ b ∈ comm, b ≠ 0 ∧ b ≠ LF) : Stat where
  pid := 1
  comm := comm
  state := 83
  num _ := 1
  more := []
  nonneg := by decide
  short := short
  text := text
  letter := by decide
  fits f := by cases f <;> exact ⟨by decide, by decide⟩

def plainProcess : Stat := onesNamed [97] (by decide) (by simp; decide)

def closingProcess : Stat := onesNamed [97, CLOSE] (by decide) (by simp; decide)

theorem process_info_plain :
    PidinfoRight plainProcess PROC_PIDTASKINFO true 96
        (procPidinfo (fun _ => some plainProcess.line) 0 plainProcess.pid PROC_PIDTASKINFO true 96) ∧
      KernProcRight plainProcess fun _ => some plainProcess.line :=
  (process_info_iff plainProcess (fun _ => some plainProcess.line) rfl 0 PROC_PIDTASKINFO true 96).mpr
    fun _ _ _ => by
      rw [Stat.Parsed, if_neg (by decide)]
      exact .inl (by decide)

/-- Of the process `a)` only zeros are stored, and of the process `a` 96 bytes into a buffer of eight. -/
theorem pidinfo_unparsed :
    (procPidinfo (fun _ => some closingProcess.line) 0 closingProcess.pid PROC_PIDTASKINFO true 96).written =
        List.replicate 96 0 ∧
      ¬ OwnTaskInfo closingProcess (List.replicate 96 0) ∧
      (procPidinfo (fun _ => some plainProcess.line) 0 plainProcess.pid PROC_PIDTASKINFO true 8).written.length =
        96 := by
  refine ⟨?_, fun own => ?_, ?_⟩
  · rw [procPidinfo_task (by decide) rfl, if_pos (by decide)]
    rfl
  · exact absurd (ownTaskInfo_zeros.mp own).vsize (by decide)
  · rw [procPidinfo_task (by decide) rfl, if_neg (by decide), List.length_append, length_taskInfo]
    rfl

end Macify.Shim.ProcessInfo
