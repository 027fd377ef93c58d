import Macify.Lib.CStrings
import Macify.Lib.Fields

/-!
# The entry stack

`setup_stack` (`src/runtime.c`) lays out the strings of a program at the top of a new mapping, and below them the
words that the entry code reads. The assembly of `call_main_and_exit` gets `argc`, `argv`, `envp` and `apple` back
from the stack pointer alone. `entry_stack_round_trip` says that what it gets is what was laid out.
-/

namespace Macify.Entry
open Lib

def align16 (a : W64) : W64 := a &&& ~~~0xF

structure Cursor where
  mem : Mem
  str : W64
  ptrs : List W64

def Cursor.copy (c : Cursor) (s : CString) : Cursor where
  mem := c.mem.store c.str s.stored
  str := c.str + BitVec.ofNat 64 s.stored.length
  ptrs := c.ptrs ++ [c.str]

def pushWord (s : Mem × W64) (w : W64) : Mem × W64 := (s.1.write64 s.2 w, s.2 + 8)

def mapStack (mmap : ℕ → Option W64) : Option (W64 × ℕ) :=
  match mmap (16 * 1024 * 1024) with
  | some stack => some (stack, 16 * 1024 * 1024)
  | none => (mmap (8 * 1024 * 1024)).map fun stack => (stack, 8 * 1024 * 1024)

def strSpace (arg0 : CString) (argv envp : List CString) : ℕ :=
  (argv.map fun s => s.stored.length).sum + (envp.map fun s => s.stored.length).sum + arg0.stored.length

def ptrCount (argc nenv : ℕ) : ℕ := 1 + (argc + 1) + (nenv + 1) + 2

def stringArea (base : W64) (size space : ℕ) : W64 :=
  align16 (align16 (base + BitVec.ofNat 64 size) - BitVec.ofNat 64 space)

def pointerArea (strings : W64) (count : ℕ) : W64 :=
  align16 (strings - BitVec.ofNat 64 (count * 8))

structure EntryStack where
  stackBase : W64
  stackSize : ℕ
  mem : Mem
  top : W64

/-- `none` when the process exits. `apple` has the path of the program, which is copied once more. -/
def setupStack (mmap : ℕ → Option W64) (mem : Mem) (argv envp : List CString) : Option EntryStack :=
  match mapStack mmap, argv with
  | none, _ => none
  | some _, [] => none
  | some (stack, stackSize), arg0 :: _ =>
    let argc := argv.length
    let nenv := envp.length
    let strings := stringArea stack stackSize (strSpace arg0 argv envp)
    if argc < 1000000 then
      let args := argv.foldl Cursor.copy ⟨mem, strings, []⟩
      let envs := envp.foldl Cursor.copy ⟨args.mem, args.str, []⟩
      let apple0 := envs.str
      let copied := envs.mem.store envs.str arg0.stored
      let top := pointerArea strings (ptrCount argc nenv)
      let words := BitVec.ofNat 64 argc :: (args.ptrs ++ [0] ++ (envs.ptrs ++ [0] ++ [apple0, 0]))
      some ⟨stack, stackSize, (words.foldl pushWord (copied, top)).1, top⟩
    else none

structure EntryRegs where
  rdi : W64
  rsi : W64
  rdx : W64
  rcx : W64

def scanNull (m : Mem) : ℕ → W64 → Option W64
  | 0, _ => none
  | fuel + 1, rcx => if m.read64 (rcx + 8 - 8) = 0 then some (rcx + 8) else scanNull m fuel (rcx + 8)

def callMain (m : Mem) (fuel : ℕ) (rsp : W64) : Option EntryRegs :=
  let rdi := m.read64 rsp
  let rax := (rdi + 1) <<< 3
  let rdx := rsp + rax + 8
  (scanNull m fuel rdx).map fun rcx => ⟨rdi, rsp + 8, rdx, rcx⟩

section Loops

variable {m : Mem} {a : W64} {l : List CString}

def storedAll (l : List CString) : Buf := l.flatMap CString.stored

def starts (a : W64) : List CString → List W64
  | [] => []
  | s :: l => a :: starts (a + BitVec.ofNat 64 s.stored.length) l

lemma length_starts : (starts a l).length = l.length := by
  induction l generalizing a with
  | nil => rfl
  | cons s l ih => rw [starts, List.length_cons, ih, List.length_cons]

lemma storedAll_cons {s : CString} : storedAll (s :: l) = s.stored ++ storedAll l := List.flatMap_cons

lemma length_storedAll : (storedAll l).length = (l.map fun s => s.stored.length).sum := List.length_flatMap

lemma copy_foldl {c : Cursor} :
    l.foldl Cursor.copy c =
      ⟨c.mem.store c.str (storedAll l), c.str + BitVec.ofNat 64 (storedAll l).length,
        c.ptrs ++ starts c.str l⟩ := by
  induction l generalizing c with
  | nil =>
    have here : c.str + BitVec.ofNat 64 0 = c.str := BitVec.add_zero _
    rw [List.foldl_nil, storedAll, List.flatMap_nil, starts, List.append_nil, List.length_nil, here]
    rfl
  | cons s l ih =>
    rw [List.foldl_cons, ih, storedAll_cons, Mem.store_append, List.length_append, BitVec.ofNat_add,
      ← BitVec.add_assoc, starts, Cursor.copy, List.append_assoc]
    rfl

lemma push_foldl {ws : List W64} {p : W64} : (ws.foldl pushWord (m, p)).1 = m.store p (Mem.wordBytes ws) := by
  induction ws generalizing m p with
  | nil => rfl
  | cons w ws ih =>
    rw [List.foldl_cons, pushWord, ih, Mem.wordBytes_cons, Mem.store_append, Mem.length_leBytes]
    rfl

lemma strings_of_holds (holds : m.Holds a (storedAll l)) (pos : 0 < a.toNat)
    (fits : a.toNat + (storedAll l).length < 2 ^ 64) :
    List.Forall₂ (fun p s => p ≠ 0 ∧ m.StringAt p s) (starts a l) l := by
  induction l generalizing a with
  | nil => exact .nil
  | cons s l ih =>
    rw [storedAll_cons, List.length_append] at fits
    rw [storedAll_cons, Mem.holds_append] at holds
    have next := @Mem.toNat_offset a s.stored.length (by omega)
    refine .cons ⟨fun null => ?_, holds.1⟩ (ih holds.2 (by omega) (by omega))
    rw [null] at pos
    exact absurd pos (lt_irrefl 0)

lemma scanNull_of_stringList (list : m.StringList a l) {fuel : ℕ} (enough : l.length < fuel) :
    scanNull m fuel a = some (a + BitVec.ofNat 64 (8 * (l.length + 1))) := by
  induction l generalizing a fuel with
  | nil =>
    cases fuel with
    | zero => exact absurd enough (Nat.not_lt_zero _)
    | succ fuel =>
      have null : m.read64 a = 0 := list
      rw [scanNull, BitVec.add_sub_cancel, if_pos null]
      rfl
  | cons s l ih =>
    cases fuel with
    | zero => exact absurd enough (Nat.not_lt_zero _)
    | succ fuel =>
      rw [List.length_cons] at enough
      rw [scanNull, BitVec.add_sub_cancel, if_neg list.1, ih list.2.2 (by omega), List.length_cons]
      congr 1
      bv_omega

end Loops

structure MmapSpec (mmap : ℕ → Option W64) : Prop where
  page : ∀ n a, mmap n = some a → a.toNat % 4096 = 0
  nonzero : ∀ n a, mmap n = some a → 0 < a.toNat
  user : ∀ n a, mmap n = some a → a.toNat + n ≤ 2 ^ 47

def roundUp16 (n : ℕ) : ℕ := (n + 15) / 16 * 16

def stackBytes (arg0 : CString) (argv envp : List CString) : ℕ :=
  roundUp16 (strSpace arg0 argv envp) + roundUp16 (8 * ptrCount argv.length envp.length)

section Layout

variable {mmap : ℕ → Option W64} {base : W64} {size space count : ℕ}

lemma align16_toNat {a : W64} : (align16 a).toNat = a.toNat / 16 * 16 := toNat_clear 4

lemma mapStack_spec (spec : MmapSpec mmap) (mapped : mapStack mmap = some (base, size)) :
    base.toNat % 16 = 0 ∧ size % 16 = 0 ∧ 0 < base.toNat ∧ base.toNat + size ≤ 2 ^ 47 := by
  unfold mapStack at mapped
  split at mapped
  · next stack granted =>
    cases mapped
    have page := spec.page _ _ granted
    exact ⟨by omega, by decide, spec.nonzero _ _ granted, spec.user _ _ granted⟩
  · rw [Option.map_eq_some_iff] at mapped
    obtain ⟨stack, granted, eq⟩ := mapped
    cases eq
    have page := spec.page _ _ granted
    exact ⟨by omega, by decide, spec.nonzero _ _ granted, spec.user _ _ granted⟩

lemma stringArea_toNat (aligned : base.toNat % 16 = 0) (whole : size % 16 = 0)
    (user : base.toNat + size ≤ 2 ^ 47) (fits : space ≤ size) :
    (stringArea base size space).toNat = base.toNat + size - roundUp16 space := by
  have top := @Mem.toNat_offset base size (by omega)
  have down : (align16 (base + BitVec.ofNat 64 size) - BitVec.ofNat 64 space).toNat =
      base.toNat + size - space := by
    have whole : (align16 (base + BitVec.ofNat 64 size)).toNat = base.toNat + size := by
      rw [align16_toNat, top]
      omega
    bv_omega
  rw [stringArea, align16_toNat, down, roundUp16]
  omega

lemma pointerArea_toNat {strings : W64} (aligned : strings.toNat % 16 = 0) (fits : 8 * count ≤ strings.toNat) :
    (pointerArea strings count).toNat = strings.toNat - roundUp16 (8 * count) := by
  have lt := strings.isLt
  have down : (strings - BitVec.ofNat 64 (count * 8)).toNat = strings.toNat - 8 * count := by bv_omega
  rw [pointerArea, align16_toNat, down, roundUp16]
  omega

lemma areas_inside (aligned : base.toNat % 16 = 0) (whole : size % 16 = 0)
    (user : base.toNat + size ≤ 2 ^ 47) (fits : roundUp16 space + roundUp16 (8 * count) ≤ size) :
    let strings := stringArea base size space
    let top := pointerArea strings count
    top.toNat % 16 = 0 ∧ base.toNat ≤ top.toNat ∧ top.toNat + 8 * count ≤ strings.toNat ∧
      strings.toNat + space ≤ base.toNat + size := by
  intro strings top
  have above : space ≤ roundUp16 space := by unfold roundUp16; omega
  have wider : 8 * count ≤ roundUp16 (8 * count) := by unfold roundUp16; omega
  have strings_eq : strings.toNat = _ := stringArea_toNat aligned whole user (by omega)
  have round : roundUp16 space % 16 = 0 ∧ roundUp16 (8 * count) % 16 = 0 :=
    ⟨Nat.mul_mod_left _ _, Nat.mul_mod_left _ _⟩
  have top_eq : top.toNat = _ := pointerArea_toNat (by omega) (by omega)
  omega

end Layout

def entryWords (a : W64) (argv envp : List CString) : List W64 :=
  let b := a + BitVec.ofNat 64 (storedAll argv).length
  let apple0 := b + BitVec.ofNat 64 (storedAll envp).length
  BitVec.ofNat 64 argv.length :: (starts a argv ++ [0] ++ (starts b envp ++ [0] ++ [apple0, 0]))

def entryStrings (arg0 : CString) (argv envp : List CString) : Buf :=
  storedAll argv ++ (storedAll envp ++ arg0.stored)

structure EntryRegs.Denote (regs : EntryRegs) (m : Mem) (arg0 : CString) (argv envp : List CString) : Prop where
  argc : regs.rdi = BitVec.ofNat 64 argv.length
  argv : ∀ l, m.StringList regs.rsi l ↔ l = argv
  envp : ∀ l, m.StringList regs.rdx l ↔ l = envp
  apple : ∀ l, m.StringList regs.rcx l ↔ l = [arg0]

/-- Where things are, what else has changed, and what the entry code reads. -/
structure EntryStack.Correct (st : EntryStack) (m : Mem) (arg0 : CString) (argv envp : List CString) : Prop where
  aligned : st.top.toNat % 16 = 0
  inside : st.stackBase.toNat ≤ st.top.toNat
  disjoint : st.top.toNat + 8 * ptrCount argv.length envp.length ≤
    (stringArea st.stackBase st.stackSize (strSpace arg0 argv envp)).toNat
  below : (stringArea st.stackBase st.stackSize (strSpace arg0 argv envp)).toNat +
    strSpace arg0 argv envp ≤ st.stackBase.toNat + st.stackSize
  frame : ∀ z : W64, z.toNat < st.stackBase.toNat ∨ st.stackBase.toNat + st.stackSize ≤ z.toNat →
    st.mem z = m z
  entry : ∀ fuel, envp.length < fuel →
    ∃ regs, callMain st.mem fuel st.top = some regs ∧ regs.Denote st.mem arg0 argv envp

section RoundTrip

variable {mmap : ℕ → Option W64} {m : Mem} {base a top : W64} {size : ℕ} {arg0 : CString}
  {argv rest envp : List CString}

lemma length_entryBytes :
    (Mem.wordBytes (entryWords a argv envp)).length = 8 * ptrCount argv.length envp.length := by
  rw [Mem.length_wordBytes, entryWords, ptrCount]
  simp only [List.length_cons, List.length_append, length_starts, List.length_nil]
  omega

lemma length_entryStrings : (entryStrings arg0 argv envp).length = strSpace arg0 argv envp := by
  rw [entryStrings, strSpace, List.length_append, List.length_append, length_storedAll, length_storedAll,
    Nat.add_assoc]

lemma shl_count {n : ℕ} : (BitVec.ofNat 64 n + 1) <<< 3 = BitVec.ofNat 64 (8 * (n + 1)) := by
  apply BitVec.eq_of_toNat_eq
  rw [BitVec.toNat_shiftLeft, Nat.shiftLeft_eq]
  bv_omega

lemma setupStack_eq (mapped : mapStack mmap = some (base, size)) (argv_eq : argv = arg0 :: rest)
    (few : argv.length < 1000000) :
    let strings := stringArea base size (strSpace arg0 argv envp)
    let top := pointerArea strings (ptrCount argv.length envp.length)
    setupStack mmap m argv envp =
      some ⟨base, size, (m.store strings (entryStrings arg0 argv envp)).store top
        (Mem.wordBytes (entryWords strings argv envp)), top⟩ := by
  subst argv_eq
  unfold setupStack
  rw [mapped]
  dsimp only
  rw [if_pos few, copy_foldl, copy_foldl, push_foldl, entryStrings, Mem.store_append, Mem.store_append]
  rfl

lemma callMain_denote (words : m.Holds top (Mem.wordBytes (entryWords a argv envp)))
    (strings : m.Holds a (entryStrings arg0 argv envp)) (pos : 0 < a.toNat)
    (fits : a.toNat + (entryStrings arg0 argv envp).length < 2 ^ 64) {fuel : ℕ}
    (enough : envp.length < fuel) :
    ∃ regs, callMain m fuel top = some regs ∧ regs.Denote m arg0 argv envp := by
  rw [entryStrings, Mem.holds_append, Mem.holds_append] at strings
  obtain ⟨argStrings, envStrings, appleString⟩ := strings
  rw [entryStrings, List.length_append, List.length_append] at fits
  have envStart := @Mem.toNat_offset a (storedAll argv).length (by omega)
  have appleStart := @Mem.toNat_offset (a + BitVec.ofNat 64 (storedAll argv).length)
    (storedAll envp).length (by omega)
  obtain ⟨argcWord, words⟩ := Mem.holds_wordBytes_cons.mp words
  obtain ⟨argWords, words⟩ := Mem.holds_wordBytes_append.mp words
  obtain ⟨envWords, appleWords⟩ := Mem.holds_wordBytes_append.mp words
  have argList := Mem.stringList_of_holds argWords (strings_of_holds argStrings pos (by omega))
  have envList := Mem.stringList_of_holds envWords (strings_of_holds envStrings (by omega) (by omega))
  have once : storedAll [arg0] = arg0.stored := List.append_nil _
  have appleList : m.StringList _ [arg0] :=
    Mem.stringList_of_holds appleWords
      (strings_of_holds (once.symm ▸ appleString) (by omega) (by rw [once]; omega))
  rw [List.length_append, length_starts, List.length_singleton] at envList appleList
  rw [List.length_append, length_starts, List.length_singleton] at appleList
  have argc := argcWord.read64
  refine ⟨⟨m.read64 top, top + 8, _, _⟩, ?_, argc, argList.iff, envList.iff, appleList.iff⟩
  have rdx : top + (m.read64 top + 1) <<< 3 + 8 = top + 8 + BitVec.ofNat 64 (8 * (argv.length + 1)) := by
    rw [argc, shl_count, BitVec.add_assoc, BitVec.add_assoc, BitVec.add_comm 8]
  rw [callMain, rdx, scanNull_of_stringList envList enough]
  rfl

/-- For every program path, argument list and environment that fit in the mapping. -/
theorem entry_stack_round_trip (spec : MmapSpec mmap) (mapped : mapStack mmap = some (base, size))
    (argv_eq : argv = arg0 :: rest) (few : argv.length < 1000000)
    (fits : stackBytes arg0 argv envp ≤ size) :
    ∃ st, setupStack mmap m argv envp = some st ∧ st.stackBase = base ∧ st.stackSize = size ∧
      st.Correct m arg0 argv envp := by
  obtain ⟨aligned, whole, pos, user⟩ := mapStack_spec spec mapped
  obtain ⟨top16, inside, disjoint, below⟩ := areas_inside aligned whole user fits
  refine ⟨_, setupStack_eq mapped argv_eq few, rfl, rfl, top16, inside, disjoint, below, ?_, ?_⟩
  · intro z outside
    dsimp only at outside ⊢
    rw [Mem.store_outside (by rw [length_entryBytes]; omega) (by rw [length_entryBytes]; omega),
      Mem.store_outside (by rw [length_entryStrings]; omega) (by rw [length_entryStrings]; omega)]
  · intro fuel enough
    dsimp only
    generalize stringArea base size (strSpace arg0 argv envp) = a at *
    generalize pointerArea a (ptrCount argv.length envp.length) = top at *
    have copied := @Mem.holds_store_self m a (entryStrings arg0 argv envp)
      (by rw [length_entryStrings]; omega)
    have words := @Mem.holds_store_self (m.store a (entryStrings arg0 argv envp)) top
      (Mem.wordBytes (entryWords a argv envp)) (by rw [length_entryBytes]; omega)
    have strings := copied.store_below (x := Mem.wordBytes (entryWords a argv envp)) (b := top)
      (by rw [length_entryBytes]; omega) (by rw [length_entryStrings]; omega)
    exact callMain_denote words strings (by omega) (by rw [length_entryStrings]; omega) enough

end RoundTrip

def lowMmap (n : ℕ) : Option W64 := if n ≤ 2 ^ 24 then some 0x10000 else none

lemma lowMmap_spec : MmapSpec lowMmap := by
  have at_low : ∀ n a, lowMmap n = some a → n ≤ 2 ^ 24 ∧ a = 0x10000 := by
    intro n a granted
    rw [lowMmap] at granted
    split at granted
    · next le =>
      cases granted
      exact ⟨le, rfl⟩
    · cases granted
  constructor
  · intro n a granted
    rw [(at_low n a granted).2]
    decide
  · intro n a granted
    rw [(at_low n a granted).2]
    decide
  · intro n a granted
    obtain ⟨le, rfl⟩ := at_low n a granted
    have low : (0x10000 : W64).toNat = 65536 := rfl
    rw [low]
    omega

theorem entry_stack_round_trip_small :
    ∃ st, setupStack lowMmap (fun _ => 0) [⟨[0x61], by decide⟩] [⟨[0x41, 0x3D], by decide⟩] = some st ∧
      st.stackBase = 0x10000 ∧ st.stackSize = 16 * 1024 * 1024 ∧
      st.Correct (fun _ => 0) ⟨[0x61], by decide⟩ [⟨[0x61], by decide⟩] [⟨[0x41, 0x3D], by decide⟩] :=
  entry_stack_round_trip lowMmap_spec rfl rfl (by decide) (by decide)

end Macify.Entry
