import Macify.Lib.BucketChains
import Macify.Lib.CStrings
import Macify.Lib.Loop

/-!
# The lookup in the symbol table of the C library

`find_libc_cb` (`shim/io/dl.c`) finds the symbol table of the C library and works out how many entries it has, and
`macify_elf_lookup` looks at them one by one. `elf_lookup_right_iff` says when the count is right, for every GNU hash
table: the code adds an index of the symbol table to an index of the chains, so there may be only one chain.
-/

namespace Macify.Shim.ElfLookup
open Lib

abbrev DT_HASH : W64 := 4
abbrev DT_STRTAB : W64 := 5
abbrev DT_SYMTAB : W64 := 6
abbrev DT_GNU_HASH : W64 := 0x6ffffef5
abbrev DT_VERSYM : W64 := 0x6ffffff0

structure Dyn where
  tag : W64
  ptr : W64

structure PhdrInfo where
  dlpiAddr : W64
  dlpiName : Option CString
  dynamic : Option (List Dyn)

structure Symbols where
  base : W64
  symtab : W64
  strtab : W64
  versym : W64
  deriving DecidableEq

structure Tables extends Symbols where
  sysvHash : W64
  gnuHash : W64

def lastPtr (tag : W64) (dyn : List Dyn) : W64 :=
  dyn.foldl (fun p d => if d.tag = tag then d.ptr else p) 0

def firstPtr (tag : W64) (dyn : List Dyn) : W64 :=
  dyn.foldl (fun p d => if d.tag = tag ∧ p = 0 then d.ptr else p) 0

def tablesOf (info : PhdrInfo) (dyn : List Dyn) : Tables where
  base := info.dlpiAddr
  symtab := lastPtr DT_SYMTAB dyn
  strtab := lastPtr DT_STRTAB dyn
  versym := lastPtr DT_VERSYM dyn
  sysvHash := firstPtr DT_HASH dyn
  gnuHash := firstPtr DT_GNU_HASH dyn

structure Libc extends Symbols where
  nsyms : W32
  deriving DecidableEq

def word (mem : Mem) (a : W64) (i : ℕ) : W32 := mem.read32 (a + BitVec.ofNat 64 (4 * i))

/-- The loop `while (!(chain[i] & 1)) i++`. It need not end. -/
def chainEnd (isOdd : W32 → Bool) : ℕ → W32 → Option W32
  | 0, _ => none
  | n + 1, i => if isOdd i then some i else chainEnd isOdd n (i + 1)

section GnuHash

variable (mem : Mem) (gnuHash : W64)

def nbucket : W32 := word mem gnuHash 0

def symoffset : W32 := word mem gnuHash 1

def bloomSize : W32 := word mem gnuHash 2

/-- The Bloom filter, of 64-bit words, is in front of the buckets. -/
def bucket (b : ℕ) : W32 := word mem gnuHash (4 + (bloomSize mem gnuHash).toNat * 2 + b)

def chain (i : ℕ) : W32 := bucket mem gnuHash ((nbucket mem gnuHash).toNat + i)

def maxIdx : W32 :=
  forUp (fun b m => if m < bucket mem gnuHash b then bucket mem gnuHash b else m) 0 (nbucket mem gnuHash).toNat 0

def gnuCount : Option W32 :=
  if symoffset mem gnuHash ≤ maxIdx mem gnuHash then
    (chainEnd (fun i => chain mem gnuHash i.toNat &&& 1 ≠ 0) (2 ^ 32)
      (maxIdx mem gnuHash - symoffset mem gnuHash)).map fun i => maxIdx mem gnuHash + i + 1
  else some (symoffset mem gnuHash)

end GnuHash

def lastResort (n : W32) : W32 := if n.toInt ≤ 0 then 65536 else n

/-- The number of symbols; `none` if the code never gets to know it. -/
def nsyms (mem : Mem) (tables : Tables) : Option W32 :=
  let count :=
    if tables.sysvHash ≠ 0 then some (word mem tables.sysvHash 1)
    else if tables.gnuHash ≠ 0 then gnuCount mem tables.gnuHash
    else some 0
  count.map lastResort

def libcSo : Buf := [108, 105, 98, 99, 46, 115, 111]

def isLibc (info : PhdrInfo) : Bool := info.dlpiName.any fun name => libcSo <:+: name.bytes

def findLibcCb (mem : Mem) (info : PhdrInfo) : Option (Option Libc) :=
  if !isLibc info then some none
  else
    match info.dynamic with
    | none => some none
    | some dyn =>
      let tables := tablesOf info dyn
      if tables.symtab = 0 ∨ tables.strtab = 0 then some none
      else (nsyms mem tables).map fun n => some ⟨tables.toSymbols, n⟩

def findLibc (mem : Mem) : List PhdrInfo → Option (Option Libc)
  | [] => some none
  | info :: rest =>
    match findLibcCb mem info with
    | none => none
    | some none => findLibc mem rest
    | some (some libc) => some (some libc)

abbrev STT_GNU_IFUNC : BitVec 8 := 10

structure Sym where
  stName : W32
  stInfo : BitVec 8
  stValue : W64

def symAt (mem : Mem) (symtab : W64) (i : ℕ) : Sym :=
  let a := symtab + BitVec.ofNat 64 (24 * i)
  ⟨mem.read32 a, (mem (a + 4)).toBitVec, mem.read64 (a + 8)⟩

def Sym.IsReal (s : Sym) : Prop := s.stValue ≠ 0 ∧ s.stInfo &&& 0xf ≠ STT_GNU_IFUNC

instance (s : Sym) : Decidable s.IsReal := inferInstanceAs (Decidable (_ ∧ _))

/-- `strcmp(strtab + s->st_name, name) == 0`, for a name that is not empty. -/
def Sym.HasName (s : Sym) (mem : Mem) (strtab : W64) (name : CString) : Prop :=
  mem (strtab + s.stName.setWidth 64) ≠ 0 ∧ mem.StringAt (strtab + s.stName.setWidth 64) name

instance (s : Sym) (mem : Mem) (strtab : W64) (name : CString) : Decidable (s.HasName mem strtab name) :=
  inferInstanceAs (Decidable (_ ∧ mem.Holds _ _))

def versionHidden (mem : Mem) (versym : W64) (i : ℕ) : Prop :=
  mem.read16 (versym + BitVec.ofNat 64 (2 * i)) &&& 0x8000 ≠ 0

instance (mem : Mem) (versym : W64) (i : ℕ) : Decidable (versionHidden mem versym i) :=
  inferInstanceAs (Decidable (_ ≠ _))

def Matches (mem : Mem) (g : Symbols) (name : CString) (i : ℕ) : Prop :=
  let s := symAt mem g.symtab i
  s.IsReal ∧ s.HasName mem g.strtab name

/-- The loop over `left` entries from `i` on: the address that it finds, and how many entries it has looked at. -/
def scan (mem : Mem) (g : Symbols) (name : CString) : ℕ → ℕ → W64 → Option W64 × ℕ
  | 0, i, hidden => (if hidden ≠ 0 then some hidden else none, i)
  | left + 1, i, hidden =>
    let s := symAt mem g.symtab i
    if ¬s.IsReal then scan mem g name left (i + 1) hidden
    else if ¬s.HasName mem g.strtab name then scan mem g name left (i + 1) hidden
    else
      let addr := g.base + s.stValue
      if g.versym ≠ 0 ∧ versionHidden mem g.versym i then
        scan mem g name left (i + 1) (if hidden = 0 then addr else hidden)
      else (some addr, i + 1)

def fallback (realDlsym : Option (CString → W64)) (name : CString) : W64 :=
  match realDlsym with
  | some dlsym => dlsym name
  | none => 0

structure Lookup where
  address : W64
  seen : ℕ

def lookupIn (mem : Mem) (realDlsym : Option (CString → W64)) (g : Libc) (name : CString) : Lookup :=
  let (found, seen) := scan mem g.toSymbols name g.nsyms.toInt.toNat 0 0
  ⟨found.getD (fallback realDlsym name), seen⟩

def macifyElfLookup (mem : Mem) (objects : List PhdrInfo) (realDlsym : Option (CString → W64))
    (name : CString) : Option Lookup :=
  (findLibc mem objects).map fun found =>
    match found with
    | some g => lookupIn mem realDlsym g name
    | none => ⟨fallback realDlsym name, 0⟩

section Purpose

variable (mem : Mem) (g : Symbols) (name : CString) (i : ℕ)

def Defines : Prop :=
  let s := symAt mem g.symtab i
  s.IsReal ∧ mem.StringAt (g.strtab + s.stName.setWidth 64) name

def Hidden : Prop := g.versym ≠ 0 ∧ versionHidden mem g.versym i

def addressOf : W64 := g.base + (symAt mem g.symtab i).stValue

structure RightAnswer (count : ℕ) (answer : W64) : Prop where
  default : (∃ i < count, Defines mem g name i ∧ ¬Hidden mem g i) →
    ∃ i < count, Defines mem g name i ∧ ¬Hidden mem g i ∧ answer = addressOf mem g i
  hidden : (∀ i < count, Defines mem g name i → Hidden mem g i) →
    ∀ i < count, Defines mem g name i → (∀ j < i, ¬Defines mem g name j) → answer = addressOf mem g i

end Purpose

def gnuHashOf (name : Buf) : W32 := name.foldl (fun h c => h * 33 + (c.toBitVec).setWidth 32) 5381

section Tables

variable (mem : Mem) (tables : Tables)

def bucketOf (names : ℕ → CString) (i : ℕ) : ℕ :=
  (gnuHashOf (names i).bytes).toNat % (nbucket mem tables.gnuHash).toNat

def Chained : Prop := ∃ b < (nbucket mem tables.gnuHash).toNat, bucket mem tables.gnuHash b ≠ 0

/-- The hash table is right for a symbol table of `count` symbols. All from `symoffset` on are in it, and all that
    define something. -/
structure Consistent (names : ℕ → CString) (count : ℕ) : Prop where
  symtab : tables.symtab ≠ 0
  strtab : tables.strtab ≠ 0
  gnuHash : tables.gnuHash ≠ 0
  size : count ≤ 2 ^ 32
  offset_pos : 0 < (symoffset mem tables.gnuHash).toNat
  offset_le : (symoffset mem tables.gnuHash).toNat ≤ count
  named : ∀ i < count, mem.StringAt (tables.strtab + (symAt mem tables.symtab i).stName.setWidth 64) (names i)
  located : ∀ i < count, (symAt mem tables.symtab i).IsReal → addressOf mem tables.toSymbols i ≠ 0
  hashed : ∀ i < count, (symAt mem tables.symtab i).IsReal → (names i).bytes ≠ [] →
    Chained mem tables ∧ (symoffset mem tables.gnuHash).toNat ≤ i
  chains : Chained mem tables →
    BucketChains (bucketOf mem tables names) (nbucket mem tables.gnuHash).toNat (symoffset mem tables.gnuHash).toNat
      count (fun b => (bucket mem tables.gnuHash b).toNat)
      fun i => chain mem tables.gnuHash (i - (symoffset mem tables.gnuHash).toNat) &&& 1 ≠ 0
  hashes : Chained mem tables → ∀ i, (symoffset mem tables.gnuHash).toNat ≤ i → i < count →
    chain mem tables.gnuHash (i - (symoffset mem tables.gnuHash).toNat) >>> 1 = gnuHashOf (names i).bytes >>> 1
  sysv : tables.sysvHash ≠ 0 → (word mem tables.sysvHash 1).toNat = count

end Tables

/-- The first object that the callback takes for the C library has these tables. -/
inductive FirstLibc (mem : Mem) (tables : Tables) : List PhdrInfo → Prop
  | here {info dyn rest} :
    isLibc info →
    info.dynamic = some dyn →
    tables = tablesOf info dyn →
    FirstLibc mem tables (info :: rest)
  | later {info rest} :
    findLibcCb mem info = some none →
    FirstLibc mem tables rest →
    FirstLibc mem tables (info :: rest)

/-- The count is that of the symbols if there is one in the hash table, and a lookup looks at symbols only and has the
    right answer. -/
structure InspectsRight (mem : Mem) (objects : List PhdrInfo) (realDlsym : Option (CString → W64))
    (tables : Tables) (count : ℕ) : Prop where
  counts : Chained mem tables → ∃ g, findLibc mem objects = some (some g) ∧ g.nsyms.toInt = count
  answers : ∀ name : CString, name.bytes ≠ [] →
    ∃ r, macifyElfLookup mem objects realDlsym name = some r ∧ r.seen ≤ count ∧
      RightAnswer mem tables.toSymbols name count r.address

section Loops

lemma chainEnd_eq {isOdd : W32 → Bool} {fuel : ℕ} {i last : W32} (le : i ≤ last)
    (even : ∀ k, i ≤ k → k < last → isOdd k = false) (odd : isOdd last = true) (enough : last.toNat - i.toNat < fuel) :
    chainEnd isOdd fuel i = some last := by
  induction fuel generalizing i with
  | zero => exact absurd enough (Nat.not_lt_zero _)
  | succ fuel ih =>
    rw [chainEnd]
    by_cases eq : i = last
    · rw [eq, if_pos odd]
    · have lt : i < last := by bv_omega
      rw [even i (BitVec.le_refl i) lt, if_neg Bool.false_ne_true]
      exact ih (by bv_omega) (fun k ge => even k (by bv_omega)) (by bv_omega)

variable {mem : Mem} {tables : Tables} {gnuHash : W64}

lemma maxIdx_isTop :
    BucketChains.IsTop (fun b => (bucket mem gnuHash b).toNat) (nbucket mem gnuHash).toNat
      (maxIdx mem gnuHash).toNat := by
  have isTop := @forUp_invariant _ (fun b m => if m < bucket mem gnuHash b then bucket mem gnuHash b else m)
    (fun i m => BucketChains.IsTop (fun b => (bucket mem gnuHash b).toNat) i m.toNat) 0
    (nbucket mem gnuHash).toNat 0 .zero ?_
  · rw [Nat.zero_add] at isTop
    exact isTop
  · intro i m _ _ before
    have next := before.succ
    rw [apply_ite BitVec.toNat]
    exact next

end Loops

section Count

variable {mem : Mem} {tables : Tables} {names : ℕ → CString} {count : ℕ}

lemma lastResort_toInt {n : W32} :
    (lastResort n).toInt = if 0 < n.toNat ∧ n.toNat < 2 ^ 31 then (n.toNat : ℤ) else 65536 := by
  have value := BitVec.toInt_eq_toNat_cond n
  rw [lastResort, apply_ite BitVec.toInt, show (65536 : W32).toInt = 65536 by decide]
  split <;> split <;> omega

lemma gnuCount_chained (ok : Consistent mem tables names count) (chained : Chained mem tables) :
    ∃ n, gnuCount mem tables.gnuHash = some n ∧
      n.toNat = ((maxIdx mem tables.gnuHash).toNat - (symoffset mem tables.gnuHash).toNat + count) % 2 ^ 32 := by
  have chains := ok.chains chained
  have isTop := @maxIdx_isTop mem tables.gnuHash
  have size := ok.size
  rw [gnuCount]
  generalize maxIdx mem tables.gnuHash = top at isTop ⊢
  generalize symoffset mem tables.gnuHash = offset at chains ⊢
  have low := chains.lo_le_top isTop
  have high := chains.top_lt_hi isTop
  have last : ∀ k : W32, top - offset ≤ k → k.toNat < count - offset.toNat →
      ((chain mem tables.gnuHash k.toNat &&& 1 ≠ 0) ↔ k.toNat + 1 = count - offset.toNat) := by
    intro k ge lt
    have inner := chains.isLast_iff_of_top_le isTop (i := offset.toNat + k.toNat) (by bv_omega) (by bv_omega)
    rw [Nat.add_sub_cancel_left] at inner
    rw [inner]
    omega
  have ends := @chainEnd_eq (fun i => chain mem tables.gnuHash i.toNat &&& 1 ≠ 0) (2 ^ 32) (top - offset)
    (BitVec.ofNat 32 (count - 1 - offset.toNat)) (by bv_omega) ?_ ?_ (by bv_omega)
  · rw [if_pos (BitVec.le_def.mpr low), ends]
    refine ⟨_, rfl, ?_⟩
    bv_omega
  · intro k ge lt
    rw [decide_eq_false_iff_not, last k ge (by bv_omega)]
    bv_omega
  · rw [decide_eq_true_iff, last _ (by bv_omega) (by bv_omega)]
    bv_omega

lemma gnuCount_unchained (ok : Consistent mem tables names count) (none : ¬Chained mem tables) :
    gnuCount mem tables.gnuHash = some (symoffset mem tables.gnuHash) := by
  have isTop := @maxIdx_isTop mem tables.gnuHash
  have zero : (maxIdx mem tables.gnuHash).toNat = 0 := by
    by_contra some
    obtain ⟨b, lt, here⟩ := isTop.mem some
    refine none ⟨b, lt, fun empty => some ?_⟩
    rw [← here, empty]
    rfl
  have positive := ok.offset_pos
  rw [gnuCount, if_neg]
  rw [BitVec.le_def]
  omega

/-- All symbols of the hash table are in one chain. -/
def OneChain (mem : Mem) (tables : Tables) (names : ℕ → CString) (count : ℕ) : Prop :=
  ∀ i, (symoffset mem tables.gnuHash).toNat ≤ i → i < count →
    bucketOf mem tables names i = bucketOf mem tables names (symoffset mem tables.gnuHash).toNat

lemma nsyms_sysv (sysv : tables.sysvHash ≠ 0) :
    nsyms mem tables = some (lastResort (word mem tables.sysvHash 1)) := by
  rw [nsyms, if_pos sysv]
  rfl

lemma nsyms_gnu (ok : Consistent mem tables names count) (none : tables.sysvHash = 0) :
    nsyms mem tables = (gnuCount mem tables.gnuHash).map lastResort := by
  rw [nsyms, if_neg (not_not.mpr none), if_pos ok.gnuHash]

lemma nsyms_chained (ok : Consistent mem tables names count) (chained : Chained mem tables) :
    ∃ n, nsyms mem tables = some n ∧
      (n.toInt = count ↔ count < 2 ^ 31 ∧ (tables.sysvHash ≠ 0 ∨ OneChain mem tables names count)) := by
  have chains := ok.chains chained
  have isTop := @maxIdx_isTop mem tables.gnuHash
  have positive := chains.nonempty
  by_cases none : tables.sysvHash = 0
  · obtain ⟨n, counted, value⟩ := gnuCount_chained ok chained
    refine ⟨lastResort n, by rw [nsyms_gnu ok none, counted]; rfl, ?_⟩
    have low := chains.lo_le_top isTop
    have high := chains.top_lt_hi isTop
    have size := ok.size
    rw [lastResort_toInt, or_iff_right (not_not.mpr none), OneChain, ← chains.top_eq_lo_iff isTop]
    split <;> omega
  · refine ⟨_, nsyms_sysv none, ?_⟩
    have value := ok.sysv none
    rw [lastResort_toInt, and_iff_left (Or.inl none)]
    split <;> omega

lemma nsyms_unchained (ok : Consistent mem tables names count) (none : ¬Chained mem tables) :
    ∃ n, nsyms mem tables = some n ∧ n.toInt ≤ count := by
  have positive := ok.offset_pos
  have le := ok.offset_le
  by_cases gnu : tables.sysvHash = 0
  · refine ⟨lastResort (symoffset mem tables.gnuHash), ?_, ?_⟩
    · rw [nsyms_gnu ok gnu, gnuCount_unchained ok none]
      rfl
    · rw [lastResort_toInt]
      split <;> omega
  · refine ⟨_, nsyms_sysv gnu, ?_⟩
    have value := ok.sysv gnu
    rw [lastResort_toInt]
    split <;> omega

lemma lastResort_pos {n : W32} : 0 < (lastResort n).toInt := by
  rw [lastResort_toInt]
  split <;> omega

structure Libc.Usable (g : Libc) : Prop where
  symtab : g.symtab ≠ 0
  strtab : g.strtab ≠ 0
  nsyms : 0 < g.nsyms.toInt

lemma findLibcCb_usable {info : PhdrInfo} {g : Libc} (found : findLibcCb mem info = some (some g)) : g.Usable := by
  rw [findLibcCb] at found
  split at found
  · cases found
  · split at found
    · cases found
    · dsimp only at found
      split at found
      · cases found
      · rename_i dyn _ nonnull
        rw [not_or] at nonnull
        obtain ⟨n, counted, eq⟩ := Option.map_eq_some_iff.mp found
        obtain ⟨m, -, rfl⟩ := Option.map_eq_some_iff.mp counted
        cases eq
        exact ⟨nonnull.1, nonnull.2, lastResort_pos⟩

lemma findLibc_usable {objects : List PhdrInfo} {g : Libc} (found : findLibc mem objects = some (some g)) :
    g.Usable := by
  induction objects with
  | nil => cases found
  | cons info rest ih =>
    rw [findLibc] at found
    split at found
    · cases found
    · exact ih found
    · rename_i here
      cases found
      exact findLibcCb_usable here

lemma findLibc_eq {objects : List PhdrInfo} (symtab : tables.symtab ≠ 0) (strtab : tables.strtab ≠ 0)
    (first : FirstLibc mem tables objects) :
    findLibc mem objects = (nsyms mem tables).map fun n => some ⟨tables.toSymbols, n⟩ := by
  induction first with
  | @here info dyn rest isLibc dynamic eq =>
    have taken : findLibcCb mem info = (nsyms mem tables).map fun n => some ⟨tables.toSymbols, n⟩ := by
      rw [findLibcCb, isLibc, dynamic]
      rw [eq] at symtab strtab ⊢
      exact if_neg (not_or.mpr ⟨symtab, strtab⟩)
    rw [findLibc, taken]
    cases nsyms mem tables <;> rfl
  | later skipped _ ih => rw [findLibc, skipped, ih]

end Count

section Scan

variable {mem : Mem} {g : Symbols} {name : CString} {left i j : ℕ} {hidden : W64}

lemma hasName_iff {s : Sym} {strtab : W64} (nonempty : name.bytes ≠ []) :
    s.HasName mem strtab name ↔ mem.StringAt (strtab + s.stName.setWidth 64) name := by
  refine and_iff_right_of_imp fun holds => ?_
  obtain ⟨bytes, nonzero⟩ := name
  cases bytes with
  | nil => exact absurd rfl nonempty
  | cons c rest =>
    have first : mem (strtab + s.stName.setWidth 64) = c := (List.cons.inj holds).1
    rw [first]
    rintro rfl
    exact nonzero List.mem_cons_self

lemma matches_iff (nonempty : name.bytes ≠ []) : Matches mem g name i ↔ Defines mem g name i :=
  and_congr_right fun _ => hasName_iff nonempty

lemma scan_skip (other : ¬Matches mem g name i) :
    scan mem g name (left + 1) i hidden = scan mem g name left (i + 1) hidden := by
  rw [scan]
  by_cases real : (symAt mem g.symtab i).IsReal
  · rw [if_neg (not_not.mpr real), if_pos]
    exact fun named => other ⟨real, named⟩
  · rw [if_pos real]

lemma scan_hidden (matched : Matches mem g name i) (isHidden : Hidden mem g i) :
    scan mem g name (left + 1) i hidden =
      scan mem g name left (i + 1) (if hidden = 0 then addressOf mem g i else hidden) := by
  rw [scan, if_neg (not_not.mpr matched.1), if_neg (not_not.mpr matched.2)]
  exact if_pos isHidden

lemma scan_default (matched : Matches mem g name i) (isDefault : ¬Hidden mem g i) :
    scan mem g name (left + 1) i hidden = (some (addressOf mem g i), i + 1) := by
  rw [scan, if_neg (not_not.mpr matched.1), if_neg (not_not.mpr matched.2)]
  exact if_neg isDefault

lemma scan_cases (left i : ℕ) (hidden : W64) :
    ¬Matches mem g name i ∧ scan mem g name (left + 1) i hidden = scan mem g name left (i + 1) hidden ∨
    Matches mem g name i ∧ Hidden mem g i ∧ scan mem g name (left + 1) i hidden =
      scan mem g name left (i + 1) (if hidden = 0 then addressOf mem g i else hidden) ∨
    Matches mem g name i ∧ ¬Hidden mem g i ∧
      scan mem g name (left + 1) i hidden = (some (addressOf mem g i), i + 1) := by
  by_cases matched : Matches mem g name i
  · by_cases isHidden : Hidden mem g i
    · exact .inr (.inl ⟨matched, isHidden, scan_hidden matched isHidden⟩)
    · exact .inr (.inr ⟨matched, isHidden, scan_default matched isHidden⟩)
  · exact .inl ⟨matched, scan_skip matched⟩

lemma scan_seen_le : (scan mem g name left i hidden).2 ≤ i + left := by
  induction left generalizing i hidden with
  | zero => exact le_refl i
  | succ left ih =>
    rcases scan_cases left i hidden with ⟨-, eq⟩ | ⟨-, -, eq⟩ | ⟨-, -, eq⟩
    · rw [eq]
      exact ih.trans (by omega)
    · rw [eq]
      exact ih.trans (by omega)
    · rw [eq]
      exact Nat.add_le_add_left (Nat.le_add_left 1 left) i

lemma scan_finds_default (isDefault : ∃ j, i ≤ j ∧ j < i + left ∧ Matches mem g name j ∧ ¬Hidden mem g j) :
    ∃ j, i ≤ j ∧ j < i + left ∧ Matches mem g name j ∧ ¬Hidden mem g j ∧
      (scan mem g name left i hidden).1 = some (addressOf mem g j) := by
  induction left generalizing i hidden with
  | zero =>
    obtain ⟨j, ge, lt, -⟩ := isDefault
    omega
  | succ left ih =>
    obtain ⟨j, ge, lt, matched, visible⟩ := isDefault
    -- An entry that the scan goes past is not the one that there is.
    have later (other : i ≠ j) (h : W64) :
        ∃ j, i ≤ j ∧ j < i + (left + 1) ∧ Matches mem g name j ∧ ¬Hidden mem g j ∧
          (scan mem g name left (i + 1) h).1 = some (addressOf mem g j) := by
      obtain ⟨k, ge, lt, found⟩ := @ih (i + 1) h ⟨j, by omega, by omega, matched, visible⟩
      exact ⟨k, by omega, by omega, found⟩
    rcases scan_cases left i hidden with ⟨no, eq⟩ | ⟨-, no, eq⟩ | ⟨here, here', eq⟩
    · rw [eq]
      exact later (fun same => no (same ▸ matched)) hidden
    · rw [eq]
      exact later (fun same => visible (same ▸ no)) _
    · rw [eq]
      exact ⟨i, le_refl i, by omega, here, here', rfl⟩

lemma scan_keeps_hidden (allHidden : ∀ j, i ≤ j → j < i + left → Matches mem g name j → Hidden mem g j)
    (ne : hidden ≠ 0) : (scan mem g name left i hidden).1 = some hidden := by
  induction left generalizing i with
  | zero => exact if_pos ne
  | succ left ih =>
    have rest := @ih (i + 1) fun j ge lt => allHidden j (by omega) (by omega)
    rcases scan_cases left i hidden with ⟨-, eq⟩ | ⟨-, -, eq⟩ | ⟨matched, visible, -⟩
    · rw [eq, rest]
    · rw [eq, if_neg ne, rest]
    · exact absurd (allHidden i (le_refl i) (by omega) matched) visible

lemma scan_finds_hidden (allHidden : ∀ j, i ≤ j → j < i + left → Matches mem g name j → Hidden mem g j)
    (ge : i ≤ j) (lt : j < i + left) (matched : Matches mem g name j) (ne : addressOf mem g j ≠ 0)
    (first : ∀ k, i ≤ k → k < j → ¬Matches mem g name k) :
    (scan mem g name left i 0).1 = some (addressOf mem g j) := by
  induction left generalizing i with
  | zero => omega
  | succ left ih =>
    have others : ∀ k, i + 1 ≤ k → k < i + 1 + left → Matches mem g name k → Hidden mem g k :=
      fun k ge lt => allHidden k (by omega) (by omega)
    rcases scan_cases left i 0 with ⟨no, eq⟩ | ⟨here, -, eq⟩ | ⟨here, visible, -⟩
    · have before : i ≠ j := fun same => no (same ▸ matched)
      rw [eq]
      exact ih others (by omega) (by omega) fun k ge lt => first k (by omega) lt
    · obtain rfl : i = j := by
        by_contra before
        exact first i (le_refl i) (by omega) here
      rw [eq, if_pos rfl]
      exact scan_keeps_hidden others ne
    · exact absurd (allHidden i (le_refl i) (by omega) here) visible

end Scan

section Lookup

variable {mem : Mem} {tables : Tables} {names : ℕ → CString} {count : ℕ} {objects : List PhdrInfo}
  {realDlsym : Option (CString → W64)} {name : CString}

lemma macifyElfLookup_eq {n : W32} (symtab : tables.symtab ≠ 0) (strtab : tables.strtab ≠ 0)
    (first : FirstLibc mem tables objects) (counted : nsyms mem tables = some n) :
    macifyElfLookup mem objects realDlsym name = some (lookupIn mem realDlsym ⟨tables.toSymbols, n⟩ name) := by
  rw [macifyElfLookup, findLibc_eq symtab strtab first, counted]
  rfl

lemma lookupIn_right {n : W32} (ok : Consistent mem tables names count) (nonempty : name.bytes ≠ [])
    (right : n.toInt = count) :
    (lookupIn mem realDlsym ⟨tables.toSymbols, n⟩ name).seen ≤ count ∧
      RightAnswer mem tables.toSymbols name count (lookupIn mem realDlsym ⟨tables.toSymbols, n⟩ name).address := by
  have size : n.toInt.toNat = count := by rw [right, Int.toNat_natCast]
  rw [lookupIn, size]
  have same i := @matches_iff mem tables.toSymbols name i nonempty
  refine ⟨scan_seen_le.trans (by omega), ?_, ?_⟩
  · simp only [← same]
    rintro ⟨i, lt, matched, visible⟩
    obtain ⟨j, -, lt', matched', visible', found⟩ := @scan_finds_default mem tables.toSymbols name count 0 0
      ⟨i, Nat.zero_le i, by omega, matched, visible⟩
    exact ⟨j, by omega, matched', visible', by rw [found]; rfl⟩
  · simp only [← same]
    intro allHidden i lt matched first
    have found := @scan_finds_hidden mem tables.toSymbols name count 0 i
      (fun j _ lt => allHidden j (by omega)) (Nat.zero_le i) (by omega) matched (ok.located i lt matched.1)
      fun k _ lt => first k lt
    rw [found]
    rfl

lemma not_defines_of_unchained (ok : Consistent mem tables names count) (none : ¬Chained mem tables)
    (nonempty : name.bytes ≠ []) {i : ℕ} (lt : i < count) : ¬Defines mem tables.toSymbols name i := by
  rintro ⟨real, named⟩
  have same := (ok.named i lt).unique named
  exact none (ok.hashed i lt real (same ▸ nonempty)).1

/-- The count is right if and only if the symbols are fewer than an `int` can count and the object has the older
    hash table, or all are in one chain. -/
theorem elf_lookup_right_iff (ok : Consistent mem tables names count) (first : FirstLibc mem tables objects) :
    InspectsRight mem objects realDlsym tables count ↔
      (Chained mem tables → count < 2 ^ 31 ∧ (tables.sysvHash ≠ 0 ∨ OneChain mem tables names count)) := by
  by_cases chained : Chained mem tables
  · obtain ⟨n, counted, right⟩ := nsyms_chained ok chained
    rw [imp_iff_right chained, ← right]
    constructor
    · intro inspects
      obtain ⟨g, found, value⟩ := inspects.counts chained
      rw [findLibc_eq ok.symtab ok.strtab first, counted] at found
      cases found
      exact value
    · intro value
      constructor
      case counts =>
        intro _
        refine ⟨⟨tables.toSymbols, n⟩, ?_, value⟩
        rw [findLibc_eq ok.symtab ok.strtab first, counted]
        rfl
      case answers =>
        intro name nonempty
        exact ⟨_, macifyElfLookup_eq ok.symtab ok.strtab first counted, lookupIn_right ok nonempty value⟩
  · obtain ⟨n, counted, le⟩ := nsyms_unchained ok chained
    refine iff_of_true ⟨fun some => absurd some chained, fun name nonempty => ?_⟩ fun some => absurd some chained
    refine ⟨_, macifyElfLookup_eq ok.symtab ok.strtab first counted, ?_, ?_, ?_⟩
    · refine scan_seen_le.trans ?_
      show 0 + n.toInt.toNat ≤ count
      omega
    · rintro ⟨i, lt, defines, -⟩
      exact absurd defines (not_defines_of_unchained ok chained nonempty lt)
    · intro _ i lt defines _
      exact absurd defines (not_defines_of_unchained ok chained nonempty lt)

end Lookup

def Sym.bytes (s : Sym) : Buf :=
  Mem.leBytes 4 s.stName.toNat ++ [UInt8.ofBitVec s.stInfo, 0, 0, 0] ++ Mem.leBytes 8 s.stValue.toNat ++
    Mem.leBytes 8 0

def tableMem (syms : List Sym) (strings : Buf) (versions : List (BitVec 16)) (hash : List W32) : Mem :=
  let blank : Mem := fun _ => 0
  (((blank.store 0x1000 (syms.flatMap Sym.bytes)).store 0x2000 strings).store 0x3000
    (versions.flatMap fun v => Mem.leBytes 2 v.toNat)).store 0x4000 (hash.flatMap fun w => Mem.leBytes 4 w.toNat)

def tableInfo (versym : W64) : PhdrInfo where
  dlpiAddr := 0x10000
  dlpiName := some ⟨libcSo, by decide⟩
  dynamic := some [⟨DT_SYMTAB, 0x1000⟩, ⟨DT_STRTAB, 0x2000⟩, ⟨DT_VERSYM, versym⟩, ⟨DT_GNU_HASH, 0x4000⟩]

def tableTables (versym : W64) : Tables := ⟨⟨0x10000, 0x1000, 0x2000, versym⟩, 0, 0x4000⟩

lemma tableInfo_first {mem : Mem} {versym : W64} : FirstLibc mem (tableTables versym) [tableInfo versym] :=
  .here (show decide (libcSo <:+: libcSo) = true by decide) rfl rfl

def twoFunctions (apart : Bool) : Mem :=
  tableMem [⟨0, 0, 0⟩, ⟨1, 0x12, 0x100⟩, ⟨3, 0x12, 0x200⟩] [0, 97, 0, 98, 0] []
    (if apart then [2, 1, 1, 0, 0, 0, 1, 2, 177671, 177671] else [1, 1, 1, 0, 0, 0, 1, 177670, 177671])

def twoNames : ℕ → CString
  | 1 => ⟨[97], by decide⟩
  | 2 => ⟨[98], by decide⟩
  | _ => ⟨[], by decide⟩

lemma twoFunctions_chained (apart : Bool) : Chained (twoFunctions apart) (tableTables 0) :=
  ⟨0, by cases apart <;> decide +kernel, by cases apart <;> decide +kernel⟩

lemma twoFunctions_chains (apart : Bool) :
    BucketChains (bucketOf (twoFunctions apart) (tableTables 0) twoNames) (nbucket (twoFunctions apart) 0x4000).toNat
      (symoffset (twoFunctions apart) 0x4000).toNat 3 (fun b => (bucket (twoFunctions apart) 0x4000 b).toNat)
      fun i => chain (twoFunctions apart) 0x4000 (i - (symoffset (twoFunctions apart) 0x4000).toNat) &&& 1 ≠ 0 where
  positive := by cases apart <;> decide +kernel
  nonempty := by cases apart <;> decide +kernel
  bucket_lt := by cases apart <;> decide +kernel
  empty := by cases apart <;> decide +kernel
  first_ge := by cases apart <;> decide +kernel
  first_lt := by cases apart <;> decide +kernel
  bucketOf_first := by cases apart <;> decide +kernel
  none_before := by cases apart <;> decide +kernel
  segment := by
    intro i k j ge le le' lt same
    have one : 1 ≤ (symoffset (twoFunctions apart) 0x4000).toNat := by cases apart <;> decide +kernel
    obtain rfl | rfl : k = i ∨ k = j := by omega
    · exact same
    · rfl
  isLast_iff := by cases apart <;> decide +kernel

lemma twoFunctions_consistent (apart : Bool) : Consistent (twoFunctions apart) (tableTables 0) twoNames 3 where
  symtab := by decide
  strtab := by decide
  gnuHash := by decide
  size := by decide
  offset_pos := by cases apart <;> decide +kernel
  offset_le := by cases apart <;> decide +kernel
  named := show ∀ i < 3, Mem.Holds _ _ _ by cases apart <;> decide +kernel
  located := by cases apart <;> decide +kernel
  hashed i lt real _ := by
    have defined : ∀ i < 3, (symAt (twoFunctions apart) 0x1000 i).IsReal →
        (symoffset (twoFunctions apart) 0x4000).toNat ≤ i := by cases apart <;> decide +kernel
    exact ⟨twoFunctions_chained apart, defined i lt real⟩
  chains _ := twoFunctions_chains apart
  hashes _ := by cases apart <;> decide +kernel
  sysv ne := absurd rfl ne

theorem elf_lookup_right_one_chain :
    Consistent (twoFunctions false) (tableTables 0) twoNames 3 ∧
      InspectsRight (twoFunctions false) [tableInfo 0] none (tableTables 0) 3 := by
  refine ⟨twoFunctions_consistent false, ?_⟩
  rw [elf_lookup_right_iff (twoFunctions_consistent false) tableInfo_first]
  intro _
  refine ⟨by decide, .inr ?_⟩
  show ∀ i, _ ≤ i → i < 3 → _
  decide +kernel

/-- With two chains the count is one too many: a lookup that finds nothing looks at an entry behind the table. -/
theorem elf_lookup_overcounts :
    Consistent (twoFunctions true) (tableTables 0) twoNames 3 ∧
      nsyms (twoFunctions true) (tableTables 0) = some 4 ∧
      (lookupIn (twoFunctions true) none ⟨(tableTables 0).toSymbols, 4⟩ ⟨[99], by decide⟩).seen = 4 ∧
      ¬InspectsRight (twoFunctions true) [tableInfo 0] none (tableTables 0) 3 := by
  have counted : nsyms (twoFunctions true) (tableTables 0) = some 4 := by decide +kernel
  refine ⟨twoFunctions_consistent true, counted, by decide +kernel, fun right => ?_⟩
  obtain ⟨g, found, value⟩ := right.counts (twoFunctions_chained true)
  rw [findLibc_eq (by decide) (by decide) tableInfo_first, counted] at found
  cases found
  exact absurd value (by decide)

end Macify.Shim.ElfLookup
