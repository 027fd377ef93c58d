import Macify.Image.Segments
import Macify.Lib.Pages
import Macify.Shim.Flags

/-!
# The main stack

`munmap`, `mprotect` and `mmap` (`shim/io/flags.c`) keep a program from taking its own main stack away.
`munmap` leaves every range alone that overlaps the stack; the other two look for ranges that lie inside of it.
`stack_stays_usable_iff` says which calls of a program leave the stack mapped, readable and writable.
-/

namespace Macify.Shim.StackGuard
open Lib
open Space (Within pageOf pagesOf)
open Image (PROT_NONE PROT_READ PROT_WRITE)

abbrev PAGE_SIZE : W64 := 4096
abbrev MAP_FIXED : W32 := 0x10
abbrev MAP_FAILED : W64 := -1

structure Stack where
  base : W64
  size : W64
  nonnull : base ≠ 0
  aligned : base.toNat % 4096 = 0
  whole : size.toNat % 4096 = 0
  fits : base.toNat + size.toNat < 2 ^ 64

namespace Stack

def hi (st : Stack) : W64 := st.base + st.size

def Inside (st : Stack) (addr len : W64) : Prop := st.base ≤ addr ∧ addr + len ≤ st.hi

instance (st : Stack) (addr len : W64) : Decidable (st.Inside addr len) :=
  inferInstanceAs (Decidable (_ ∧ _))

def Overlaps (st : Stack) (addr len : W64) : Prop := addr < st.hi ∧ st.base < addr + len

instance (st : Stack) (addr len : W64) : Decidable (st.Overlaps addr len) :=
  inferInstanceAs (Decidable (_ ∧ _))

def Page (st : Stack) (q : ℕ) : Prop := Within (pageOf st.base) (st.size.toNat / 4096) q

end Stack

/-! ## The system

Each page has its rights. A range that is not one of whole pages, or that wraps around, is refused.
-/

abbrev Rights := Space W32

def Proper (addr len : W64) : Prop :=
  addr.toNat % 4096 = 0 ∧ 0 < len.toNat ∧ addr.toNat + len.toNat < 2 ^ 64

instance (addr len : W64) : Decidable (Proper addr len) := inferInstanceAs (Decidable (_ ∧ _))

def realMunmap (m : Rights) (addr len : W64) (granted : Bool) : Rights × Bool :=
  if granted ∧ Proper addr len then (m.unmap (pageOf addr) (pagesOf len), true) else (m, false)

/-- How many pages `mprotect` changes; `limit` is where the system gives up. -/
def changed (m : Rights) (addr len : W64) (limit : ℕ) : ℕ :=
  if addr.toNat % 4096 = 0 ∧ addr.toNat + 4096 * pagesOf len < 2 ^ 64 then
    m.reached (pageOf addr) (pagesOf len) limit
  else 0

def realMprotect (m : Rights) (addr len : W64) (prot : W32) (limit : ℕ) : Rights × Bool :=
  (m.change (pageOf addr) (changed m addr len limit) fun _ => prot, changed m addr len limit == pagesOf len)

def realMmap (m : Rights) (args : MmapArgs) (place : Option W64) : Rights × W64 :=
  match place with
  | none => (m, MAP_FAILED)
  | some a =>
    if args.flags &&& MAP_FIXED = 0 then (m.map (pageOf a) (pagesOf args.length) args.prot, a)
    else if Proper args.addr args.length then
      (m.map (pageOf args.addr) (pagesOf args.length) args.prot, args.addr)
    else (m, MAP_FAILED)

/-! ## The wrappers

For a caller in the text of the program.
-/

def munmap (st : Stack) (m : Rights) (addr length : W64) (granted : Bool) : Rights × Bool :=
  if st.Overlaps addr length then (m, true) else realMunmap m addr length granted

def mprotect (st : Stack) (m : Rights) (addr len : W64) (prot : W32) (limit : ℕ) : Rights × Bool :=
  let adjustment := addr % PAGE_SIZE
  if prot = 0 ∧ st.Inside (addr - adjustment) (len + adjustment) then (m, true)
  else realMprotect m (addr - adjustment) (len + adjustment) prot limit

/-- A fixed mapping that fails, or that starts below the address that was asked for, ends the call early. -/
def afterMmap (st : Stack) (args : MmapArgs) (length : W64) (limit : ℕ) (r : Rights × W64) : Rights × W64 :=
  let fixed := args.flags &&& MAP_FIXED ≠ 0
  if r.2 = MAP_FAILED then
    if fixed ∧ args.addr ≠ 0 then (r.1, args.addr) else r
  else if fixed ∧ r.2 ≠ args.addr then (r.1, args.addr)
  else if args.prot = 0 ∧ st.Inside r.2 length then
    ((realMprotect r.1 r.2 length (PROT_READ ||| PROT_WRITE) limit).1, r.2)
  else r

def mmap (st : Stack) (m : Rights) (args : MmapArgs) (place : Option W64) (limit : ℕ) : Rights × W64 :=
  let real := mmapArgs PAGE_SIZE args
  afterMmap st args real.length limit (realMmap m real place)

inductive Call where
  | munmap (addr length : W64) (granted : Bool)
  /-- With `PROT_NONE`. -/
  | mprotect (addr len : W64) (limit : ℕ)
  /-- With `PROT_NONE` and `MAP_FIXED`. -/
  | mmap (args : MmapArgs) (place : Option W64) (limit : ℕ)

def fixedNone (args : MmapArgs) : MmapArgs := { args with prot := PROT_NONE, flags := args.flags ||| MAP_FIXED }

def step (st : Stack) (m : Rights) : Call → Rights
  | .munmap addr length granted => (munmap st m addr length granted).1
  | .mprotect addr len limit => (mprotect st m addr len PROT_NONE limit).1
  | .mmap args place limit => (mmap st m (fixedNone args) place limit).1

def Usable (st : Stack) (m : Rights) : Prop :=
  ∀ q, st.Page q → ∃ r, m q = some r ∧ r &&& PROT_READ ≠ 0 ∧ r &&& PROT_WRITE ≠ 0

/-- No page of the stack is among `n` pages from the one of an address on. -/
def Apart (st : Stack) (addr : W64) (n : ℕ) : Prop := ∀ q, st.Page q → ¬Within (pageOf addr) n q

/-- `mprotect` has to lie inside of the stack, or change no page of it. A mapping has to be refused or to lie apart,
    or to lie inside, to start on a page and to be given back completely. -/
def Harmless (st : Stack) (m : Rights) : Call → Prop
  | .munmap _ _ _ => True
  | .mprotect addr len limit =>
    let a := addr - addr % PAGE_SIZE
    let l := len + addr % PAGE_SIZE
    st.Inside a l ∨ Apart st a (changed m a l limit)
  | .mmap args place limit =>
    let real := mmapArgs PAGE_SIZE (fixedNone args)
    place = none ∨ ¬Proper real.addr real.length ∨ Apart st real.addr (pagesOf real.length) ∨
      real.addr = args.addr ∧ st.Inside real.addr real.length ∧ pagesOf real.length ≤ limit

section Ranges

variable {st : Stack} {addr len : W64} {m m' : Rights} {n q : ℕ}

lemma toNat_add_of_lt (lt : addr.toNat + len.toNat < 2 ^ 64) : (addr + len).toNat = addr.toNat + len.toNat := by
  rw [BitVec.toNat_add, Nat.mod_eq_of_lt lt]

lemma Stack.toNat_hi : st.hi.toNat = st.base.toNat + st.size.toNat := toNat_add_of_lt st.fits

lemma Stack.Inside.page (inside : st.Inside addr len) (proper : Proper addr len)
    (within : Within (pageOf addr) (pagesOf len) q) : st.Page q := by
  obtain ⟨above, below⟩ := inside
  rw [BitVec.le_def] at above below
  rw [toNat_add_of_lt proper.2.2, Stack.toNat_hi] at below
  have aligned := st.aligned
  have whole := st.whole
  have start := proper.1
  unfold Stack.Page Within at *
  unfold pageOf pagesOf at *
  omega

lemma Stack.apart_of_not_overlaps (clear : ¬st.Overlaps addr len) (proper : Proper addr len) :
    Apart st addr (pagesOf len) := by
  intro q page within
  have aligned := st.aligned
  have whole := st.whole
  have start := proper.1
  unfold Stack.Overlaps at clear
  rw [BitVec.lt_def, BitVec.lt_def, toNat_add_of_lt proper.2.2, Stack.toNat_hi] at clear
  unfold Stack.Page Within at *
  unfold pageOf pagesOf at *
  omega

lemma Usable.of_apart (usable : Usable st m) (apart : Apart st addr n)
    (same : ∀ q, ¬Within (pageOf addr) n q → m' q = m q) : Usable st m' := by
  intro q page
  rw [same q (apart q page)]
  exact usable q page

lemma Usable.apart (usable : Usable st m') (closed : ∀ q, Within (pageOf addr) n q → ∀ r, m' q = some r → r = 0) :
    Apart st addr n := by
  intro q page within
  obtain ⟨r, mapped, readable, -⟩ := usable q page
  rw [closed q within r mapped] at readable
  exact readable (BitVec.zero_and)

end Ranges

section Calls

variable {st : Stack} {m : Rights} {addr len : W64} {args : MmapArgs} {place : Option W64}
  {limit q : ℕ}

lemma realMprotect_within {prot : W32} (within : Within (pageOf addr) (changed m addr len limit) q) :
    (realMprotect m addr len prot limit).1 q = (m q).map fun _ => prot := Space.change_within within

lemma realMprotect_outside {prot : W32} (outside : ¬Within (pageOf addr) (changed m addr len limit) q) :
    (realMprotect m addr len prot limit).1 q = m q := Space.change_outside outside

lemma munmap_usable (usable : Usable st m) {addr length : W64} {granted : Bool} :
    Usable st (munmap st m addr length granted).1 := by
  unfold munmap
  split
  next => exact usable
  next clear =>
    unfold realMunmap
    split
    next proper =>
      exact usable.of_apart (st.apart_of_not_overlaps clear proper.2) fun q outside => Space.unmap_outside outside
    next => exact usable

lemma mprotect_usable_iff (usable : Usable st m) :
    Usable st (mprotect st m addr len PROT_NONE limit).1 ↔ Harmless st m (.mprotect addr len limit) := by
  unfold mprotect Harmless
  dsimp only
  by_cases inside : st.Inside (addr - addr % PAGE_SIZE) (len + addr % PAGE_SIZE)
  · rw [if_pos ⟨rfl, inside⟩]
    exact ⟨fun _ => .inl inside, fun _ => usable⟩
  · rw [if_neg fun both => inside both.2]
    constructor
    · refine fun after => .inr (after.apart fun q within r mapped => ?_)
      rw [realMprotect_within within] at mapped
      obtain ⟨-, -, rfl⟩ := Option.map_eq_some_iff.mp mapped
      rfl
    · rintro (within | apart)
      · exact absurd within inside
      · exact usable.of_apart apart fun q outside => realMprotect_outside outside

lemma fixed_mmapArgs : (mmapArgs PAGE_SIZE (fixedNone args)).flags &&& MAP_FIXED ≠ 0 := by
  rw [mmapArgs_flags]
  intro zero
  have bit := congrArg (fun w : W32 => w.getLsbD 4) zero
  unfold translateMmapFlags fixedNone at bit
  split at bit <;> simp at bit

lemma mmapAlign_prot : (mmapAlign PAGE_SIZE args).prot = args.prot := by
  unfold mmapAlign
  split
  next => rfl
  next =>
    dsimp only
    split <;> rfl

lemma prot_mmapArgs : (mmapArgs PAGE_SIZE (fixedNone args)).prot = 0 := by
  rw [mmapArgs, mmapAlign_prot, mmapAnon]
  split <;> rfl

lemma Proper.ne_failed (proper : Proper addr len) : addr ≠ MAP_FAILED := by
  rintro rfl
  exact absurd proper.1 (by decide)

lemma realMmap_fixed :
    let real := mmapArgs PAGE_SIZE (fixedNone args)
    realMmap m real place =
      if place = none ∨ ¬Proper real.addr real.length then (m, MAP_FAILED)
      else (m.map (pageOf real.addr) (pagesOf real.length) 0, real.addr) := by
  intro real
  unfold realMmap
  cases place with
  | none => exact (if_pos (.inl rfl)).symm
  | some a =>
    simp only [if_neg fixed_mmapArgs, reduceCtorEq, false_or, real, prot_mmapArgs, ite_not]

lemma map_usable_iff (usable : Usable st m) {addr : W64} {n : ℕ} :
    Usable st (m.map (pageOf addr) n 0) ↔ Apart st addr n := by
  constructor
  · refine fun after => after.apart fun q within r mapped => ?_
    rw [Space.map_within within] at mapped
    exact (Option.some.inj mapped).symm
  · exact fun apart => usable.of_apart apart fun q outside => Space.map_outside outside

lemma Stack.Inside.changed_map (inside : st.Inside addr len) (proper : Proper addr len) :
    changed (m.map (pageOf addr) (pagesOf len) 0) addr len limit = min limit (pagesOf len) := by
  have room : addr.toNat + 4096 * pagesOf len < 2 ^ 64 := by
    have below := inside.2
    rw [BitVec.le_def, toNat_add_of_lt proper.2.2, Stack.toNat_hi] at below
    have aligned := st.aligned
    have whole := st.whole
    have fits := st.fits
    have start := proper.1
    unfold pagesOf
    omega
  have all : ∀ q, Within (pageOf addr) (pagesOf len) q →
      (m.map (pageOf addr) (pagesOf len) 0 q).isSome = true := by
    intro q within
    rw [Space.map_within within]
    rfl
  rw [changed, if_pos ⟨proper.1, room⟩, Space.reached, Space.mapped_eq all]

lemma restore_usable_iff (usable : Usable st m) (proper : Proper addr len) (inside : st.Inside addr len) :
    Usable st (realMprotect (m.map (pageOf addr) (pagesOf len) 0) addr len (PROT_READ ||| PROT_WRITE) limit).1 ↔
      pagesOf len ≤ limit := by
  have count := @Stack.Inside.changed_map st m addr len limit inside proper
  constructor
  · intro after
    by_contra less
    -- the first page that is not given back
    have within : Within (pageOf addr) (pagesOf len) (pageOf addr + limit) := ⟨by omega, by omega⟩
    have outside : ¬Within (pageOf addr) (changed (m.map (pageOf addr) (pagesOf len) 0) addr len limit)
        (pageOf addr + limit) := by
      rw [count]
      unfold Within
      omega
    obtain ⟨r, mapped, readable, -⟩ := after _ (inside.page proper within)
    rw [realMprotect_outside outside, Space.map_within within] at mapped
    obtain rfl := Option.some.inj mapped
    exact readable BitVec.zero_and
  · intro enough q page
    rw [Nat.min_eq_right enough] at count
    by_cases within : Within (pageOf addr) (pagesOf len) q
    · rw [realMprotect_within (by rw [count]; exact within), Space.map_within within]
      exact ⟨_, rfl, by decide, by decide⟩
    · rw [realMprotect_outside (by rw [count]; exact within), Space.map_outside within]
      exact usable q page

lemma Stack.Inside.not_apart (inside : st.Inside addr len) (proper : Proper addr len) :
    ¬Apart st addr (pagesOf len) := by
  intro apart
  have first : Within (pageOf addr) (pagesOf len) (pageOf addr) := by
    have positive := proper.2.1
    unfold Within pagesOf
    omega
  exact apart _ (inside.page proper first) first

lemma fixed_fixedNone : (fixedNone args).flags &&& MAP_FIXED ≠ 0 := by
  intro zero
  have bit := congrArg (fun w : W32 => w.getLsbD 4) zero
  simp [fixedNone] at bit

lemma afterMmap_failed {length : W64} : (afterMmap st args length limit (m, MAP_FAILED)).1 = m := by
  simp only [afterMmap, if_true]
  split <;> rfl

lemma afterMmap_made {addr length : W64} (made : addr ≠ MAP_FAILED) :
    (afterMmap st (fixedNone args) length limit (m, addr)).1 =
      if addr = args.addr ∧ st.Inside addr length then
        (realMprotect m addr length (PROT_READ ||| PROT_WRITE) limit).1
      else m := by
  simp only [afterMmap, if_neg made]
  by_cases here : addr = args.addr
  · rw [if_neg fun moved => moved.2 here]
    by_cases inside : st.Inside addr length
    · rw [if_pos ⟨rfl, inside⟩, if_pos ⟨here, inside⟩]
    · rw [if_neg fun both => inside both.2, if_neg fun both => inside both.2]
  · rw [if_pos ⟨fixed_fixedNone, here⟩, if_neg fun both => here both.1]

lemma mmap_usable_iff (usable : Usable st m) :
    Usable st (mmap st m (fixedNone args) place limit).1 ↔ Harmless st m (.mmap args place limit) := by
  unfold mmap Harmless
  dsimp only
  rw [realMmap_fixed]
  generalize mmapArgs PAGE_SIZE (fixedNone args) = real
  by_cases refused : place = none ∨ ¬Proper real.addr real.length
  · rw [if_pos refused, afterMmap_failed]
    refine ⟨fun _ => ?_, fun _ => usable⟩
    rcases refused with none | improper
    · exact .inl none
    · exact .inr (.inl improper)
  · obtain ⟨placed, proper⟩ := not_or.mp refused
    have proper := not_not.mp proper
    rw [if_neg refused, afterMmap_made proper.ne_failed]
    simp only [placed, proper, not_true_eq_false, false_or]
    by_cases restored : real.addr = args.addr ∧ st.Inside real.addr real.length
    · rw [if_pos restored, restore_usable_iff usable proper restored.2]
      refine ⟨fun enough => .inr ⟨restored.1, restored.2, enough⟩, fun harmless => ?_⟩
      exact harmless.elim (fun apart => absurd apart (restored.2.not_apart proper)) fun all => all.2.2
    · rw [if_neg restored, map_usable_iff usable]
      refine ⟨.inl, fun harmless => harmless.elim id fun all => ?_⟩
      exact absurd ⟨all.1, all.2.1⟩ restored

lemma step_usable_iff (usable : Usable st m) {c : Call} : Usable st (step st m c) ↔ Harmless st m c := by
  cases c with
  | munmap addr length granted => exact ⟨fun _ => trivial, fun _ => munmap_usable usable⟩
  | mprotect addr len limit => exact mprotect_usable_iff usable
  | mmap args place limit => exact mmap_usable_iff usable

end Calls

/-- For every stack and all calls of a program, with every answer of the system. -/
theorem stack_stays_usable_iff (st : Stack) (m : Rights) (calls : List Call) (usable : Usable st m) :
    Along (step st) (fun m c => Usable st (step st m c)) m calls ↔ Along (step st) (Harmless st) m calls :=
  along_invariant_iff (Usable st) (fun _ _ usable => step_usable_iff usable) usable

def smallStack : Stack := ⟨0x10000, 0x2000, by decide, by decide, by decide, by decide⟩

def smallSpace : Rights := fun q => if 0xF ≤ q ∧ q < 0x12 then some 3 else none

lemma smallSpace_usable : Usable smallStack smallSpace := by
  intro q page
  refine ⟨3, if_pos ?_, by decide, by decide⟩
  have bounds : 0x10 ≤ q ∧ q < 0x10 + 2 := page
  omega

theorem stack_stays_usable_inside :
    Usable smallStack smallSpace ∧
      (Along (step smallStack) (fun m c => Usable smallStack (step smallStack m c)) smallSpace
          [.mprotect 0x10000 0x1000 1, .munmap 0xF000 0x4000 true] ↔
        Along (step smallStack) (Harmless smallStack) smallSpace
          [.mprotect 0x10000 0x1000 1, .munmap 0xF000 0x4000 true]) :=
  ⟨smallSpace_usable, stack_stays_usable_iff smallStack smallSpace _ smallSpace_usable⟩

/-- A guard of two pages of which one is below the stack; and one of a page that starts in the middle of a page. -/
theorem stack_taken_away :
    Usable smallStack smallSpace ∧
      (mprotect smallStack smallSpace 0xF000 0x2000 PROT_NONE 2).1 0x10 = some 0 ∧
      ¬Usable smallStack (step smallStack smallSpace (.mprotect 0xF000 0x2000 2)) ∧
      (mmap smallStack smallSpace (fixedNone ⟨0x10800, 0x1000, 0, 0x1002, 0, 0⟩) (some 0x10000) 2).1 0x10 = some 0 ∧
      ¬Usable smallStack (step smallStack smallSpace (.mmap ⟨0x10800, 0x1000, 0, 0x1002, 0, 0⟩ (some 0x10000) 2)) := by
  have page : smallStack.Page 0x10 := ⟨by decide, by decide⟩
  have below : (mprotect smallStack smallSpace 0xF000 0x2000 PROT_NONE 2).1 0x10 = some 0 := by decide +kernel
  have middle : (mmap smallStack smallSpace (fixedNone ⟨0x10800, 0x1000, 0, 0x1002, 0, 0⟩) (some 0x10000) 2).1 0x10 =
      some 0 := by decide +kernel
  refine ⟨smallSpace_usable, below, fun usable => ?_, middle, fun usable => ?_⟩
  · obtain ⟨r, mapped, readable, -⟩ := usable 0x10 page
    obtain rfl := Option.some.inj (mapped.symm.trans below)
    exact readable (by decide)
  · obtain ⟨r, mapped, readable, -⟩ := usable 0x10 page
    obtain rfl := Option.some.inj (mapped.symm.trans middle)
    exact readable (by decide)

end Macify.Shim.StackGuard
