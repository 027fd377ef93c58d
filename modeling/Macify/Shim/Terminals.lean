import Macify.Shim.Flags

/-!
# Terminal settings

`tcgetattr` and `tcsetattr` of `shim/io/file.c`. Flags are translated bit by bit, control characters by their names,
and speeds are either rates or codes of the kernel. `termios_round_trip_iff` takes the settings of a terminal to the
guest and back. What should survive is what `docs/xnu/headers/sys_termios.h` and the headers in `docs/glibc` both
have.
-/

namespace Macify.Shim
open Lib
open Syscall (mapBits)

/-- `struct termios` of Linux; the speeds are what `cfgetispeed` and `cfgetospeed` say. -/
structure LinuxTermios where
  iflag : W32
  oflag : W32
  cflag : W32
  lflag : W32
  line : UInt8
  cc : Buf
  ispeed : W32
  ospeed : W32

structure MacosTermios where
  iflag : W32
  oflag : W32
  cflag : W32
  lflag : W32
  cc : Buf
  ispeed : W32
  ospeed : W32

def iflagTable : List (W32 × W32) := [(0x400, 0x200), (0x1000, 0x400)]

/-- `IUCLC` of Linux stays where `IXON` of macOS is. -/
def iflagLinuxToMac (lf : W32) : W32 := mapBits lf iflagTable (lf &&& ~~~(0x400 ||| 0x1000))

def iflagBack : List (W32 × W32) := [(0x200, 0x400), (0x400, 0x1000)]

def iflagMacToLinux (mf : W32) : W32 := mapBits mf iflagBack (mf &&& ~~~(0x200 ||| 0x400))

def oflagTable : List (W32 × W32) :=
  [(0x004, 0x002), (0x008, 0x010), (0x010, 0x020), (0x020, 0x040), (0x040, 0x080), (0x080, 0x20000)]

def oflagLinuxToMac (lf : W32) : W32 := mapBits lf oflagTable (lf &&& 0x1)

def oflagBack : List (W32 × W32) :=
  [(0x002, 0x004), (0x010, 0x008), (0x020, 0x010), (0x040, 0x020), (0x080, 0x040), (0x20000, 0x080),
   (0x004, 0xc00)]

def oflagMacToLinux (mf : W32) : W32 := mapBits mf oflagBack (mf &&& 0x1)

def cflagTable : List (W32 × W32) :=
  [(0x040, 0x400), (0x080, 0x800), (0x100, 0x1000), (0x200, 0x2000), (0x400, 0x4000), (0x800, 0x8000)]

/-- The character size is translated by a `switch`. -/
def cflagLinuxToMac (lf : W32) : W32 :=
  let csize : W32 :=
    if lf &&& 0x30 = 0x00 then 0x000
    else if lf &&& 0x30 = 0x10 then 0x100
    else if lf &&& 0x30 = 0x20 then 0x200
    else 0x300
  mapBits lf cflagTable csize

def cflagBack : List (W32 × W32) :=
  [(0x400, 0x040), (0x800, 0x080), (0x1000, 0x100), (0x2000, 0x200), (0x4000, 0x400), (0x8000, 0x800)]

def cflagMacToLinux (mf : W32) : W32 :=
  let csize : W32 :=
    if mf &&& 0x300 = 0x000 then 0x00
    else if mf &&& 0x300 = 0x100 then 0x10
    else if mf &&& 0x300 = 0x200 then 0x20
    else 0x30
  mapBits mf cflagBack csize

def lflagTable : List (W32 × W32) :=
  [(0x800, 0x001), (0x010, 0x002), (0x020, 0x004), (0x008, 0x008), (0x040, 0x010), (0x400, 0x020),
   (0x200, 0x040), (0x001, 0x080), (0x002, 0x100), (0x8000, 0x400), (0x10000, 0x800), (0x100, 0x400000),
   (0x1000, 0x800000), (0x4000, 0x4000000), (0x80, 0x80000000)]

def lflagLinuxToMac (lf : W32) : W32 := mapBits lf lflagTable 0

def lflagBack : List (W32 × W32) :=
  [(0x001, 0x800), (0x002, 0x010), (0x004, 0x020), (0x008, 0x008), (0x010, 0x040), (0x020, 0x400),
   (0x040, 0x200), (0x080, 0x001), (0x100, 0x002), (0x400, 0x8000), (0x800, 0x10000), (0x400000, 0x100),
   (0x800000, 0x1000), (0x4000000, 0x4000), (0x80000000, 0x80)]

def lflagMacToLinux (mf : W32) : W32 := mapBits mf lflagBack 0

def ccLinuxToMac (lc : Buf) : Buf :=
  [byte lc 4, byte lc 11, byte lc 16, byte lc 2, 0, byte lc 3, byte lc 12, 0, byte lc 0, byte lc 1,
   byte lc 10, 0, byte lc 8, byte lc 9, byte lc 15, byte lc 13, byte lc 6, byte lc 5, 0, 0]

def ccMacToLinux (mc : Buf) : Buf :=
  [byte mc 8, byte mc 9, byte mc 3, byte mc 5, byte mc 0, byte mc 17, byte mc 16, 0, byte mc 12, byte mc 13,
   byte mc 10, byte mc 1, byte mc 6, byte mc 15, 0, byte mc 14, byte mc 2] ++ List.replicate 15 0

def cbaudCodeToRate : List W32 :=
  [0, 50, 75, 110, 134, 150, 200, 300, 600, 1200, 1800, 2400, 4800, 9600, 19200, 38400]

def highCodes : List (W32 × W32) :=
  [(0x1001, 57600), (0x1002, 115200), (0x1003, 230400), (0x1004, 460800), (0x1005, 500000),
   (0x1006, 576000), (0x1007, 921600), (0x1008, 1000000), (0x1009, 1152000), (0x100a, 1500000),
   (0x100b, 2000000), (0x100c, 2500000), (0x100d, 3000000), (0x100e, 3500000), (0x100f, 4000000)]

def speedLinuxToMac (ls : W32) : W32 :=
  if ls ≤ 15 then cbaudCodeToRate.getD ls.toNat 0
  else ((highCodes.find? fun e => e.1 = ls).map Prod.snd).getD ls

def speedMacToLinux (ms : W32) : W32 := if ms = 76800 then 115200 else ms

/-- The last four codes are not given back. -/
def speedToCbaudCode (rate : W32) : W32 :=
  match cbaudCodeToRate.findIdx? (· = rate) with
  | some i => BitVec.ofNat 32 i
  | none => (((highCodes.take 11).find? fun e => e.2 = rate).map Prod.fst).getD 0xf

def macosTermios (lt : LinuxTermios) : MacosTermios where
  iflag := iflagLinuxToMac lt.iflag
  oflag := oflagLinuxToMac lt.oflag
  cflag := cflagLinuxToMac lt.cflag
  lflag := lflagLinuxToMac lt.lflag
  cc := ccLinuxToMac lt.cc
  ispeed := speedLinuxToMac lt.ispeed
  ospeed := speedLinuxToMac lt.ospeed

/-- `ICRNL` is always set, so that the other end of a line is never needed. -/
def linuxTermios (mt : MacosTermios) : LinuxTermios :=
  let iflag := iflagMacToLinux mt.iflag ||| 0x100
  let lflag := lflagMacToLinux mt.lflag
  let cc := ccMacToLinux mt.cc
  let ospeed := speedMacToLinux mt.ospeed
  { iflag
    oflag := oflagMacToLinux mt.oflag
    cflag := cflagMacToLinux mt.cflag &&& ~~~0x100f ||| speedToCbaudCode ospeed
    lflag
    line := 0
    cc := if lflag &&& 0x002 ≠ 0 ∧ iflag &&& 0x100 = 0 then cc.set 11 0x0D else cc
    ispeed := speedMacToLinux mt.ispeed
    ospeed }

abbrev RealTcgetattr := Option (W32 → W32 × LinuxTermios)

def macifyTcgetattr (realTcgetattr : RealTcgetattr) (fd : W32) (buffer : Bool) : W32 × Option MacosTermios :=
  match realTcgetattr with
  | none => (-1, none)
  | some real =>
    let (ret, lt) := real fd
    (ret, if ret = 0 ∧ buffer then some (macosTermios lt) else none)

/-- The arguments of `tcsetattr` of the C library; without them the call fails. -/
def macifyTcsetattr (found : Bool) (fd optionalActions : W32) (termios : Option MacosTermios) :
    Option (W32 × W32 × LinuxTermios) :=
  if found then termios.map fun mt => (fd, optionalActions, linuxTermios mt) else none

def commonIflag : W32 := 0x7DFF

def commonOflag : W32 := 0xFFFD

def delays : W32 := 0xFF00

def commonCflag : W32 := 0x80000FF0

def commonLflag : W32 := 0x1DFFB

def commonCc : List ℕ := [0, 1, 2, 3, 4, 5, 6, 8, 9, 10, 11, 12, 13, 14, 15, 16]

def commonRates : List W32 :=
  [0, 50, 75, 110, 134, 150, 200, 300, 600, 1200, 1800, 2400, 4800, 9600, 19200, 38400, 7200, 14400, 28800,
   57600, 76800, 115200, 230400]

def kernelCodes : List (W32 × W32) :=
  [(0, 0), (1, 50), (2, 75), (3, 110), (4, 134), (5, 150), (6, 200), (7, 300), (8, 600), (9, 1200),
   (10, 1800), (11, 2400), (12, 4800), (13, 9600), (14, 19200), (15, 38400), (0x1001, 57600),
   (0x1002, 115200), (0x1003, 230400)]

def Reports (speed rate : W32) : Prop := speed = rate ∨ (speed, rate) ∈ kernelCodes

/-- Everything that both systems have is the same. Old versions of the C library take the code from
    `c_cflag`, new ones the rates. -/
structure Survives (lt lt' : LinuxTermios) (irate orate : W32) : Prop where
  iflag : lt'.iflag &&& commonIflag = lt.iflag &&& commonIflag
  oflag : lt'.oflag &&& commonOflag = lt.oflag &&& commonOflag
  cflag : lt'.cflag &&& commonCflag = lt.cflag &&& commonCflag
  lflag : lt'.lflag &&& commonLflag = lt.lflag &&& commonLflag
  line : lt'.line = lt.line
  cc : ∀ i ∈ commonCc, byte lt'.cc i = byte lt.cc i
  ispeed : lt'.ispeed = irate
  ospeed : lt'.ospeed = orate
  code : ∀ code, (code, orate) ∈ kernelCodes → lt'.cflag &&& 0x100f = code

section Words

variable {keep : W32} {table : List (W32 × W32)} {lf mf : W32}

def sources (keep : W32) (table : List (W32 × W32)) (k : ℕ) : List ℕ :=
  (if keep.getLsbD k then [k] else []) ++
    table.filterMap fun e => if e.2.getLsbD k then some e.1.toNat.log2 else none

def Single (table : List (W32 × W32)) : Bool :=
  table.all fun e => e.1.toNat.log2 < 32 && e.1 == (1 : W32) <<< e.1.toNat.log2

lemma routes_mapBits (single : Single table = true) :
    Routes (fun s => mapBits s table (s &&& keep)) (sources keep table) := by
  intro s k lt
  have kept : (s.getLsbD k && keep.getLsbD k) = (if keep.getLsbD k then [k] else []).any s.getLsbD := by
    cases keep.getLsbD k with
    | false => exact Bool.and_false _
    | true => exact (Bool.and_true _).trans (Bool.or_false _).symm
  rw [getLsbD_mapBits, sources, List.any_append, BitVec.getLsbD_and, kept, List.any_filterMap]
  congr 1
  refine any_congr_mem fun e mem => ?_
  have entry := List.all_eq_true.mp single e mem
  rw [Bool.and_eq_true, decide_eq_true_iff, beq_iff_eq] at entry
  have tested : decide (s &&& e.1 ≠ 0) = s.getLsbD e.1.toNat.log2 := by
    rw [← and_single_ne_zero entry.1, ← entry.2, Bool.eq_iff_iff, decide_eq_true_iff, bne_iff_ne]
  rw [tested]
  cases e.2.getLsbD k with
  | false => exact Bool.and_false _
  | true => exact Bool.and_true _

lemma keep_none (w : W32) : w &&& (0 : W32) = 0 := BitVec.and_zero

/-- The size of a character is two more bits of the table. -/
lemma cflagLinuxToMac_eq :
    cflagLinuxToMac lf = mapBits lf ((0x10, 0x100) :: (0x20, 0x200) :: cflagTable) (lf &&& 0) := by
  have whole : lf &&& 0x30 = lf &&& 0x10 ||| lf &&& 0x20 := by rw [← BitVec.and_or_distrib_left]; rfl
  have low : lf &&& 0x10 = 0 ∨ lf &&& 0x10 = 0x10 := @and_single_cases 32 lf 4 (by decide)
  have high : lf &&& 0x20 = 0 ∨ lf &&& 0x20 = 0x20 := @and_single_cases 32 lf 5 (by decide)
  rw [cflagLinuxToMac, mapBits, mapBits, List.foldl_cons, List.foldl_cons]
  congr 1
  dsimp only
  rw [keep_none, whole]
  rcases low with low | low <;> rcases high with high | high <;> rw [low, high] <;> rfl

/-- So it is in the other direction. -/
lemma cflagMacToLinux_eq :
    cflagMacToLinux mf = mapBits mf ((0x100, 0x10) :: (0x200, 0x20) :: cflagBack) (mf &&& 0) := by
  have whole : mf &&& 0x300 = mf &&& 0x100 ||| mf &&& 0x200 := by rw [← BitVec.and_or_distrib_left]; rfl
  have low : mf &&& 0x100 = 0 ∨ mf &&& 0x100 = 0x100 := @and_single_cases 32 mf 8 (by decide)
  have high : mf &&& 0x200 = 0 ∨ mf &&& 0x200 = 0x200 := @and_single_cases 32 mf 9 (by decide)
  rw [cflagMacToLinux, mapBits, mapBits, List.foldl_cons, List.foldl_cons]
  congr 1
  dsimp only
  rw [keep_none, whole]
  rcases low with low | low <;> rcases high with high | high <;> rw [low, high] <;> rfl

lemma routes_back {keep' : W32} {table' : List (W32 × W32)} (single : Single table = true)
    (single' : Single table' = true) :
    Routes (fun s => mapBits (mapBits s table (s &&& keep)) table' (mapBits s table (s &&& keep) &&& keep'))
      fun k => (sources keep' table' k).flatMap (sources keep table) := by
  refine (routes_mapBits single).comp (routes_mapBits single') fun k lt j mem => ?_
  rcases List.mem_append.mp mem with kept | entry
  · split at kept
    · obtain rfl := List.mem_singleton.mp kept
      exact lt
    · exact absurd kept List.not_mem_nil
  · obtain ⟨e, member, found⟩ := List.mem_filterMap.mp entry
    split at found
    · obtain rfl := Option.some.inj found
      have entry := List.all_eq_true.mp single' e member
      rw [Bool.and_eq_true, decide_eq_true_iff] at entry
      exact entry.1
    · exact nomatch found

lemma iflag_kept_iff : iflagMacToLinux (iflagLinuxToMac lf) &&& commonIflag = lf &&& commonIflag ↔
    (lf.getLsbD 9 = true → lf.getLsbD 10 = true) := by
  have routes := @routes_back (~~~(0x400 ||| 0x1000)) iflagTable (~~~(0x200 ||| 0x400)) iflagBack
    (by decide) (by decide)
  have table : ∀ k < 32, commonIflag.getLsbD k = true →
      (sources (~~~(0x200 ||| 0x400)) iflagBack k).flatMap (sources (~~~(0x400 ||| 0x1000)) iflagTable) =
        if k = 10 then [9, 10] else [k] := by
    decide +kernel
  rw [iflagMacToLinux, iflagLinuxToMac, routes.kept_iff]
  constructor
  · intro kept set
    have bit := kept 10 (by decide) (by decide)
    rw [table 10 (by decide) (by decide), if_pos rfl, List.any_cons, set] at bit
    exact bit.symm
  · intro both k lt common
    rw [table k lt common]
    split
    case isTrue ixon =>
      subst ixon
      rw [List.any_cons, List.any_cons, List.any_nil, Bool.or_false]
      cases set : lf.getLsbD 9 with
      | false => exact Bool.false_or _
      | true => rw [both set, Bool.or_self]
    case isFalse => rw [List.any_cons, List.any_nil, Bool.or_false]

lemma oflag_kept_iff :
    oflagMacToLinux (oflagLinuxToMac lf) &&& commonOflag = lf &&& commonOflag ↔ lf &&& delays = 0 := by
  have routes := @routes_back 0x1 oflagTable 0x1 oflagBack (by decide) (by decide)
  exact routes.kept_iff_lost (by decide) (by decide +kernel)

lemma cflag_kept_iff :
    cflagMacToLinux (cflagLinuxToMac lf) &&& commonCflag = lf &&& commonCflag ↔ lf &&& 0x80000000 = 0 := by
  have routes := @routes_back 0 ((0x10, 0x100) :: (0x20, 0x200) :: cflagTable) 0
    ((0x100, 0x10) :: (0x200, 0x20) :: cflagBack) (by decide) (by decide)
  rw [cflagMacToLinux_eq, cflagLinuxToMac_eq]
  exact routes.kept_iff_lost (by decide) (by decide +kernel)

lemma lflag_kept : lflagMacToLinux (lflagLinuxToMac lf) &&& commonLflag = lf &&& commonLflag := by
  have routes := @routes_back 0 lflagTable 0 lflagBack (by decide) (by decide)
  have back : lflagMacToLinux (lflagLinuxToMac lf) =
      mapBits (mapBits lf lflagTable (lf &&& 0)) lflagBack (mapBits lf lflagTable (lf &&& 0) &&& 0) := by
    rw [keep_none, keep_none]
    rfl
  rw [back]
  exact (routes.kept_iff_lost (by decide) (by decide +kernel)).mpr (keep_none lf)

end Words

section Rest

variable {speed rate lf code : W32} {lc : Buf}

lemma cc_back {i : ℕ} (common : i ∈ commonCc) :
    byte (ccMacToLinux (ccLinuxToMac lc)) i = if i = 14 then 0 else byte lc i := by
  simp only [commonCc, List.mem_cons, List.not_mem_nil, or_false] at common
  rcases common with rfl | rfl | rfl | rfl | rfl | rfl | rfl | rfl | rfl | rfl | rfl | rfl | rfl | rfl | rfl |
    rfl <;> rfl

lemma cc_kept_iff : (∀ i ∈ commonCc, byte (ccMacToLinux (ccLinuxToMac lc)) i = byte lc i) ↔ byte lc 14 = 0 := by
  constructor
  · intro kept
    have werase := kept 14 (by decide)
    rw [cc_back (by decide), if_pos rfl] at werase
    exact werase.symm
  · intro clear i common
    rw [cc_back common]
    split
    case isTrue werase => rw [werase, clear]
    case isFalse => rfl

lemma rates_literal : commonRates.all (fun rate => speedLinuxToMac rate = rate) = true := by decide +kernel

lemma rates_coded :
    kernelCodes.all (fun e => speedLinuxToMac e.1 = e.2 && speedToCbaudCode e.2 = e.1) = true := by
  decide +kernel

lemma speedLinuxToMac_eq (reports : Reports speed rate) (common : rate ∈ commonRates) :
    speedLinuxToMac speed = rate := by
  rcases reports with rfl | coded
  · exact of_decide_eq_true (List.all_eq_true.mp rates_literal _ common)
  · have entry := List.all_eq_true.mp rates_coded _ coded
    rw [Bool.and_eq_true] at entry
    exact of_decide_eq_true entry.1

lemma speedToCbaudCode_eq (coded : (code, rate) ∈ kernelCodes) : speedToCbaudCode rate = code := by
  have entry := List.all_eq_true.mp rates_coded _ coded
  rw [Bool.and_eq_true] at entry
  exact of_decide_eq_true entry.2

lemma speedMacToLinux_eq_iff : speedMacToLinux rate = rate ↔ rate ≠ 76800 := by
  rw [speedMacToLinux]
  split
  case isTrue odd =>
    subst odd
    decide
  case isFalse other => exact iff_of_true rfl other

lemma cbaud_inside : speedToCbaudCode rate &&& 0x100f = speedToCbaudCode rate := by
  rw [speedToCbaudCode]
  cases low : cbaudCodeToRate.findIdx? (· = rate) with
  | some i =>
    have lt : i < 16 := (List.findIdx?_eq_some_iff_findIdx_eq.mp low).1
    have small : ∀ i < 16, BitVec.ofNat 32 i &&& 0x100f = BitVec.ofNat 32 i := by decide
    exact small i lt
  | none =>
    dsimp only
    cases high : (highCodes.take 11).find? fun e => e.2 = rate with
    | none => rfl
    | some e =>
      have all : highCodes.all (fun e => e.1 &&& 0x100f = e.1) = true := by decide
      have mem := List.mem_of_mem_take (List.mem_of_find?_eq_some high)
      exact of_decide_eq_true (List.all_eq_true.mp all e mem)

lemma cflag_code (inside : code &&& 0x100f = code) :
    (lf &&& ~~~0x100f ||| code) &&& 0x100f = code ∧
      (lf &&& ~~~0x100f ||| code) &&& commonCflag = lf &&& commonCflag := by
  have none : ~~~(0x100f : W32) &&& 0x100f = 0 := by decide
  have all : ~~~(0x100f : W32) &&& commonCflag = commonCflag := by decide
  have apart : (0x100f : W32) &&& commonCflag = 0 := by decide
  rw [BitVec.and_or_distrib_right, BitVec.and_or_distrib_right, BitVec.and_assoc, BitVec.and_assoc, none, all,
    keep_none, inside]
  refine ⟨BitVec.zero_or, ?_⟩
  rw [← inside, BitVec.and_assoc, apart, keep_none]
  exact BitVec.or_zero

lemma icrnl_forced (icrnl : lf &&& 0x100 ≠ 0) :
    iflagMacToLinux (iflagLinuxToMac lf) ||| 0x100 = iflagMacToLinux (iflagLinuxToMac lf) := by
  have set : lf.getLsbD 8 = true := by
    rw [← bne_iff_ne] at icrnl
    exact (@and_single_ne_zero 32 lf 8 (by decide)).symm.trans icrnl
  have routes := @routes_back (~~~(0x400 ||| 0x1000)) iflagTable (~~~(0x200 ||| 0x400)) iflagBack
    (by decide) (by decide)
  have bit : (iflagMacToLinux (iflagLinuxToMac lf)).getLsbD 8 = true := by
    rw [iflagMacToLinux, iflagLinuxToMac, routes lf 8 (by decide)]
    exact List.any_eq_true.mpr ⟨8, by decide, set⟩
  refine bits_iff.mpr fun k _ => ?_
  rw [BitVec.getLsbD_or]
  have single : (0x100 : W32).getLsbD k = decide (k = 8) := @getLsbD_single 32 8 k (by decide)
  rw [single]
  by_cases same : k = 8
  · rw [same, bit, Bool.true_or]
  · rw [decide_eq_false same, Bool.or_false]

end Rest

/-- For every terminal with line discipline 0 and `ICRNL`, whose speeds have a name in both headers and
    are reported as rates or as codes. -/
theorem termios_round_trip_iff {lt : LinuxTermios} {irate orate fd optionalActions : W32}
    {real : W32 → W32 × LinuxTermios} (terminal : real fd = (0, lt))
    (line : lt.line = 0) (icrnl : lt.iflag &&& 0x100 ≠ 0) (irate_common : irate ∈ commonRates)
    (orate_common : orate ∈ commonRates) (ireports : Reports lt.ispeed irate)
    (oreports : Reports lt.ospeed orate) :
    ∃ mt lt', macifyTcgetattr (some real) fd true = (0, some mt) ∧
      macifyTcsetattr true fd optionalActions (some mt) = some (fd, optionalActions, lt') ∧
      (Survives lt lt' irate orate ↔
        (lt.iflag &&& 0x200 ≠ 0 → lt.iflag &&& 0x400 ≠ 0) ∧ lt.oflag &&& delays = 0 ∧
          lt.cflag &&& 0x80000000 = 0 ∧ byte lt.cc 14 = 0 ∧ irate ≠ 76800 ∧ orate ≠ 76800) := by
  have flag (n : ℕ) (lt32 : n < 32) : lt.iflag &&& (1 : W32) <<< n ≠ 0 ↔ lt.iflag.getLsbD n = true := by
    rw [← bne_iff_ne, and_single_ne_zero lt32]
  have iuclc : lt.iflag &&& 0x200 ≠ 0 ↔ lt.iflag.getLsbD 9 = true := flag 9 (by decide)
  have ixon : lt.iflag &&& 0x400 ≠ 0 ↔ lt.iflag.getLsbD 10 = true := flag 10 (by decide)
  refine ⟨macosTermios lt, linuxTermios (macosTermios lt), ?_, rfl, ?_⟩
  · rw [macifyTcgetattr, terminal]
    rfl
  have forced : (linuxTermios (macosTermios lt)).iflag = iflagMacToLinux (iflagLinuxToMac lt.iflag) :=
    icrnl_forced icrnl
  have ispeed : (linuxTermios (macosTermios lt)).ispeed = speedMacToLinux irate :=
    congrArg speedMacToLinux (speedLinuxToMac_eq ireports irate_common)
  have ospeed : (linuxTermios (macosTermios lt)).ospeed = speedMacToLinux orate :=
    congrArg speedMacToLinux (speedLinuxToMac_eq oreports orate_common)
  have cc : (linuxTermios (macosTermios lt)).cc = ccMacToLinux (ccLinuxToMac lt.cc) := by
    refine if_neg fun net => ?_
    have clear : (iflagMacToLinux (iflagLinuxToMac lt.iflag) ||| 0x100) &&& 0x100 = (0 : W32) := net.2
    rw [BitVec.and_or_distrib_right] at clear
    exact absurd (BitVec.or_eq_zero_iff.mp clear).2 (by decide)
  obtain ⟨code, flags⟩ := @cflag_code (cflagMacToLinux (cflagLinuxToMac lt.cflag))
    (speedToCbaudCode (linuxTermios (macosTermios lt)).ospeed) cbaud_inside
  rw [iuclc, ixon, ← iflag_kept_iff, ← oflag_kept_iff, ← cflag_kept_iff, ← cc_kept_iff,
    ← @speedMacToLinux_eq_iff irate, ← @speedMacToLinux_eq_iff orate]
  constructor
  · intro survives
    refine ⟨forced ▸ survives.iflag, survives.oflag, flags.symm.trans survives.cflag, cc ▸ survives.cc, ?_, ?_⟩
    · exact ispeed.symm.trans survives.ispeed
    · exact ospeed.symm.trans survives.ospeed
  · rintro ⟨iflag, oflag, cflag, chars, irate_same, orate_same⟩
    refine ⟨forced.symm ▸ iflag, oflag, flags.trans cflag, lflag_kept, line.symm, cc.symm ▸ chars,
      ispeed.trans irate_same, ospeed.trans orate_same, fun c coded => ?_⟩
    refine code.trans ?_
    rw [ospeed, orate_same]
    exact speedToCbaudCode_eq coded

def usualTerminal (werase : UInt8) : LinuxTermios where
  iflag := 0x500
  oflag := 0x5
  cflag := 0xBF
  lflag := 0x8A3B
  line := 0
  cc := [3, 28, 127, 21, 4, 0, 1, 0, 17, 19, 26, 0, 18, 15, werase, 22, 0] ++ List.replicate 15 0
  ispeed := 38400
  ospeed := 38400

theorem termios_round_trip_usual :
    ∃ mt lt', macifyTcgetattr (some fun _ => (0, usualTerminal 0)) 0 true = (0, some mt) ∧
      macifyTcsetattr true 0 0 (some mt) = some (0, 0, lt') ∧
      Survives (usualTerminal 0) lt' 38400 38400 := by
  obtain ⟨mt, lt', got, set, survives⟩ := @termios_round_trip_iff (usualTerminal 0) 38400 38400 0 0
    (fun _ => (0, usualTerminal 0)) rfl rfl (by decide) (by decide) (by decide) (.inl rfl) (.inl rfl)
  exact ⟨mt, lt', got, set, survives.mpr (by decide)⟩

/-- `^W` no longer erases a word. `IUCLC` becomes `IXON`, and tabs are no longer expanded. -/
theorem termios_round_trip_lossy :
    let lt := usualTerminal 23
    let lt' := linuxTermios (macosTermios lt)
    macifyTcgetattr (some fun _ => (0, lt)) 0 true = (0, some (macosTermios lt)) ∧
      macifyTcsetattr true 0 0 (some (macosTermios lt)) = some (0, 0, lt') ∧
      byte lt.cc 14 = 23 ∧ byte lt'.cc 14 = 0 ∧ ¬Survives lt lt' 38400 38400 ∧
      iflagMacToLinux (iflagLinuxToMac 0x300) = 0x500 ∧ oflagMacToLinux (oflagLinuxToMac 0x1801) = 0x1 := by
  refine ⟨rfl, rfl, rfl, rfl, fun survives => ?_, by decide, by decide⟩
  exact absurd (survives.cc 14 (by decide)) (show (0 : UInt8) ≠ 23 by decide)

end Macify.Shim
