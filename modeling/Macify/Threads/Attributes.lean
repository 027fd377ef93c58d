import Mathlib.Logic.Function.Basic
import Mathlib.Tactic

/-!
# Thread attributes

The wrappers of `shim/pthread/attr.c`, and the attributes that `pthread_create` (`shim/pthread/create.c`) hands on. An
object of the guest holds a signature and a pointer to attributes of the C library, which number two of their values
in another way. By `attributes_refine` every sequence of calls has the results of a store in the numbers of macOS.
-/

namespace Macify.Threads.Attributes

abbrev MACOS_PTHREAD_ATTR_SIG : BitVec 64 := 0x54485244
abbrev EINVAL : ℕ := 22
abbrev PTHREAD_STACK_MIN : ℕ := 16384

structure GlibcAttr where
  stackSize : ℕ
  stackEnd : Option ℕ
  detachState : ℤ
  inheritSched : ℤ
  deriving DecidableEq

inductive Reply where
  | code (r : ℕ)
  | value (v : ℤ)
  | passed (g : GlibcAttr)
  | stray
  deriving DecidableEq

def realAttrInit : GlibcAttr := ⟨0, none, 0, 0⟩

def realAttrSetstacksize (n : ℕ) (g : GlibcAttr) : GlibcAttr × Reply :=
  if n < PTHREAD_STACK_MIN then (g, .code EINVAL) else ({ g with stackSize := n }, .code 0)

def realAttrSetstack (addr n : ℕ) (g : GlibcAttr) : GlibcAttr × Reply :=
  if n < PTHREAD_STACK_MIN then (g, .code EINVAL)
  else ({ g with stackSize := n, stackEnd := some (addr + n) }, .code 0)

def realAttrSetdetachstate (v : ℤ) (g : GlibcAttr) : GlibcAttr × Reply :=
  if v ≠ 0 ∧ v ≠ 1 then (g, .code EINVAL) else ({ g with detachState := v }, .code 0)

def realAttrSetinheritsched (v : ℤ) (g : GlibcAttr) : GlibcAttr × Reply :=
  if v ≠ 0 ∧ v ≠ 1 then (g, .code EINVAL) else ({ g with inheritSched := v }, .code 0)

def GlibcAttr.size (g : GlibcAttr) (dflt : ℕ) : ℕ := if g.stackSize = 0 then dflt else g.stackSize

/-- The constants of macOS and Linux for both settings. -/
def toLinux (v : ℤ) : ℤ := if v = 2 then 1 else if v = 1 then 0 else v
def toMacos (v : ℤ) : ℤ := if v = 1 then 2 else if v = 0 then 1 else v

structure MacosAttr where
  sig : BitVec 64
  pointer : ℕ

variable {α : Type*} [DecidableEq α]

structure State (α : Type*) where
  objects : α → MacosAttr
  heap : ℕ → Option GlibcAttr

def Bounded (heap : ℕ → Option GlibcAttr) : Prop := ∃ b, ∀ p ≥ b, heap p = none

structure Env where
  calloc : (ℕ → Option GlibcAttr) → ℕ
  fresh : ∀ heap, Bounded heap → calloc heap ≠ 0 ∧ heap (calloc heap) = none
  defaultSize : ℕ

variable (env : Env) (x : α) (s : State α)

def pthreadAttrInit : State α :=
  let p := env.calloc s.heap
  ⟨Function.update s.objects x ⟨MACOS_PTHREAD_ATTR_SIG, p⟩, Function.update s.heap p (some realAttrInit)⟩

def pthreadAttrDestroy : State α :=
  let ma := s.objects x
  if ma.sig = MACOS_PTHREAD_ATTR_SIG ∧ ma.pointer ≠ 0 then
    ⟨Function.update s.objects x ⟨0, 0⟩, Function.update s.heap ma.pointer none⟩
  else s

def getGlibcAttr : State α :=
  if (s.objects x).sig ≠ MACOS_PTHREAD_ATTR_SIG ∨ (s.objects x).pointer = 0 then pthreadAttrInit env x s else s

def onGlibc (f : GlibcAttr → GlibcAttr × Reply) : State α × Reply :=
  let s := getGlibcAttr env x s
  let p := (s.objects x).pointer
  match s.heap p with
  | none => (s, .stray)
  | some g => ({ s with heap := Function.update s.heap p (some (f g).1) }, (f g).2)

def createAttr : Reply :=
  if (s.objects x).sig = MACOS_PTHREAD_ATTR_SIG then
    match s.heap (s.objects x).pointer with
    | none => .stray
    | some g => .passed g
  else .stray

inductive Call (α : Type*) where
  | init (x : α)
  | destroy (x : α)
  | setstacksize (x : α) (n : ℕ)
  | setstack (x : α) (addr n : ℕ)
  | setdetachstate (x : α) (v : ℤ)
  | setinheritsched (x : α) (v : ℤ)
  | getstacksize (x : α)
  | getdetachstate (x : α)
  | getinheritsched (x : α)
  | create (x : α)

def step (s : State α) : Call α → State α × Reply
  | .init x => (pthreadAttrInit env x s, .code 0)
  | .destroy x => (pthreadAttrDestroy x s, .code 0)
  | .setstacksize x n => onGlibc env x s (realAttrSetstacksize n)
  | .setstack x addr n => onGlibc env x s (realAttrSetstack addr n)
  | .setdetachstate x v => onGlibc env x s (realAttrSetdetachstate (toLinux v))
  | .setinheritsched x v => onGlibc env x s (realAttrSetinheritsched (toLinux v))
  | .getstacksize x => onGlibc env x s fun g => (g, .value (g.size env.defaultSize))
  | .getdetachstate x => onGlibc env x s fun g => (g, .value (toMacos g.detachState))
  | .getinheritsched x => onGlibc env x s fun g => (g, .value (toMacos g.inheritSched))
  | .create x => (s, createAttr x s)

/-- The attributes of an object as the guest has set them; what it has not set is the default of the C library. -/
structure Attr where
  stackSize : Option ℕ
  stackEnd : Option ℕ
  detachState : ℤ
  inheritSched : ℤ

def Attr.default : Attr := ⟨none, none, 1, 1⟩

def Attr.glibc (a : Attr) : GlibcAttr := ⟨a.stackSize.getD 0, a.stackEnd, toLinux a.detachState, toLinux a.inheritSched⟩

abbrev Store (α : Type*) := α → Option Attr

def specSet (f : Attr → Option Attr) (a : Attr) : Attr × Reply :=
  match f a with
  | none => (a, .code EINVAL)
  | some a => (a, .code 0)

def setSize (n : ℕ) (a : Attr) : Option Attr :=
  if n < PTHREAD_STACK_MIN then none else some { a with stackSize := some n }

def specStep (st : Store α) : Call α → Store α × Reply
  | .init x => (Function.update st x (some .default), .code 0)
  | .destroy x => (Function.update st x none, .code 0)
  | .setstacksize x n => on x (specSet (setSize n))
  | .setstack x addr n => on x (specSet fun a => setSize n { a with stackEnd := some (addr + n) })
  | .setdetachstate x v => on x (specSet fun a => some { a with detachState := v })
  | .setinheritsched x v => on x (specSet fun a => some { a with inheritSched := v })
  | .getstacksize x => on x fun a => (a, .value (a.stackSize.getD env.defaultSize))
  | .getdetachstate x => on x fun a => (a, .value a.detachState)
  | .getinheritsched x => on x fun a => (a, .value a.inheritSched)
  | .create x => on x fun a => (a, .passed a.glibc)
where
  on (x : α) (f : Attr → Attr × Reply) : Store α × Reply :=
    match st x with
    | none => (st, .stray)
    | some a => (Function.update st x (some (f a).1), (f a).2)

/-- An object is initialised before it is used, and the constants are 1 and 2. -/
def Allowed (st : Store α) : Call α → Prop
  | .init _ => True
  | .setdetachstate x v | .setinheritsched x v => (st x).isSome ∧ (v = 1 ∨ v = 2)
  | .destroy x | .setstacksize x _ | .setstack x _ _ | .getstacksize x | .getdetachstate x | .getinheritsched x
  | .create x => (st x).isSome

def AllAllowed : Store α → List (Call α) → Prop
  | _, [] => True
  | st, c :: cs => Allowed st c ∧ AllAllowed (specStep env st c).1 cs

def results : State α → List (Call α) → List Reply
  | _, [] => []
  | s, c :: cs => (step env s c).2 :: results (step env s c).1 cs

def specResults : Store α → List (Call α) → List Reply
  | _, [] => []
  | st, c :: cs => (specStep env st c).2 :: specResults (specStep env st c).1 cs

structure Attr.Proper (a : Attr) : Prop where
  size : ∀ n, a.stackSize = some n → n ≠ 0
  detachState : a.detachState = 1 ∨ a.detachState = 2
  inheritSched : a.inheritSched = 1 ∨ a.inheritSched = 2

/-- Each object that is initialised has a pointer of its own, to its attributes. -/
structure Represents (s : State α) (st : Store α) : Prop where
  holds : ∀ x a, st x = some a → a.Proper ∧ (s.objects x).sig = MACOS_PTHREAD_ATTR_SIG ∧ (s.objects x).pointer ≠ 0 ∧
    s.heap (s.objects x).pointer = some a.glibc
  apart : ∀ x y a b, x ≠ y → st x = some a → st y = some b → (s.objects x).pointer ≠ (s.objects y).pointer
  bounded : Bounded s.heap

section Refinement

variable {env x s} {st : Store α} {a : Attr} {c : Call α} {cs : List (Call α)} {f : GlibcAttr → GlibcAttr × Reply}
  {f' : Attr → Attr × Reply}

lemma on_eq (held : st x = some a) : specStep.on st x f' = (Function.update st x (some (f' a).1), (f' a).2) := by
  rw [specStep.on, held]

lemma bounded_update {heap : ℕ → Option GlibcAttr} {p : ℕ} {g : Option GlibcAttr} (bounded : Bounded heap) :
    Bounded (Function.update heap p g) := by
  obtain ⟨b, none⟩ := bounded
  refine ⟨max b (p + 1), fun q ge => ?_⟩
  rw [Function.update_of_ne (by omega), none q (by omega)]

lemma represents_init (rep : Represents s st) :
    Represents (pthreadAttrInit env x s) (Function.update st x (some .default)) := by
  obtain ⟨some, free⟩ := env.fresh s.heap rep.bounded
  have other : ∀ y b, st y = Option.some b → (s.objects y).pointer ≠ env.calloc s.heap := by
    intro y b held eq
    have used := (rep.holds y b held).2.2.2
    rw [eq, free] at used
    cases used
  refine ⟨fun y b held => ?_, fun y z b d ne first second => ?_, bounded_update rep.bounded⟩
  · by_cases eq : y = x
    · subst eq
      rw [Function.update_self] at held
      obtain rfl := Option.some.inj held
      dsimp only [pthreadAttrInit]
      rw [Function.update_self]
      exact ⟨⟨fun n set => absurd set (Option.some_ne_none n).symm, .inl rfl, .inl rfl⟩, rfl, some,
        Function.update_self ..⟩
    · rw [Function.update_of_ne eq] at held
      dsimp only [pthreadAttrInit]
      rw [Function.update_of_ne eq, Function.update_of_ne (other y b held)]
      exact rep.holds y b held
  · dsimp only [pthreadAttrInit]
    by_cases eq : y = x
    · subst eq
      rw [Function.update_of_ne ne.symm] at second ⊢
      rw [Function.update_self]
      exact (other z d second).symm
    · rw [Function.update_of_ne eq] at first ⊢
      by_cases eq' : z = x
      · subst eq'
        rw [Function.update_self]
        exact other y b first
      · rw [Function.update_of_ne eq'] at second ⊢
        exact rep.apart y z b d ne first second

lemma represents_change (rep : Represents s st) (held : st x = some a) {objects : α → MacosAttr}
    (others : ∀ y, y ≠ x → objects y = s.objects y) {g : Option GlibcAttr} {b : Option Attr}
    (new : ∀ b', b = some b' → b'.Proper ∧ objects x = s.objects x ∧ g = some b'.glibc) :
    Represents ⟨objects, Function.update s.heap (s.objects x).pointer g⟩ (Function.update st x b) := by
  refine ⟨fun y d has => ?_, fun y z d d' ne first second => ?_, bounded_update rep.bounded⟩
  · by_cases eq : y = x
    · subst eq
      rw [Function.update_self] at has
      obtain ⟨proper, same, rfl⟩ := new d has
      obtain ⟨-, sig, some, -⟩ := rep.holds y a held
      dsimp only
      rw [same]
      exact ⟨proper, sig, some, Function.update_self ..⟩
    · rw [Function.update_of_ne eq] at has
      dsimp only
      rw [others y eq, Function.update_of_ne (rep.apart y x d a eq has held)]
      exact rep.holds y d has
  · have at_x : ∀ d, Function.update st x b x = some d → objects x = s.objects x := by
      intro d has
      rw [Function.update_self] at has
      exact (new d has).2.1
    have old : ∀ y d, Function.update st x b y = some d → objects y = s.objects y ∧ ∃ d, st y = some d := by
      intro y d has
      by_cases eq : y = x
      · subst eq
        exact ⟨at_x d has, a, held⟩
      · rw [Function.update_of_ne eq] at has
        exact ⟨others y eq, d, has⟩
    obtain ⟨sameY, e, hasY⟩ := old y d first
    obtain ⟨sameZ, e', hasZ⟩ := old z d' second
    dsimp only
    rw [sameY, sameZ]
    exact rep.apart y z e e' ne hasY hasZ

lemma onGlibc_refines (rep : Represents s st) (held : st x = some a) (proper : (f' a).1.Proper)
    (commutes : f a.glibc = ((f' a).1.glibc, (f' a).2)) :
    Represents (onGlibc env x s f).1 (specStep.on st x f').1 ∧ (onGlibc env x s f).2 = (specStep.on st x f').2 := by
  obtain ⟨-, sig, some, attrs⟩ := rep.holds x a held
  have known : getGlibcAttr env x s = s := if_neg (not_or.mpr ⟨not_not.mpr sig, some⟩)
  dsimp only [onGlibc]
  rw [known, attrs, on_eq held]
  dsimp only
  rw [commutes]
  refine ⟨represents_change rep held (fun _ _ => rfl) fun b eq => ?_, rfl⟩
  obtain rfl := Option.some.inj eq
  exact ⟨proper, rfl, rfl⟩

lemma toMacos_toLinux {v : ℤ} (two : v = 1 ∨ v = 2) : toMacos (toLinux v) = v := by
  rcases two with rfl | rfl <;> rfl

lemma toLinux_accepted {v : ℤ} (two : v = 1 ∨ v = 2) : ¬(toLinux v ≠ 0 ∧ toLinux v ≠ 1) := by
  rcases two with rfl | rfl <;> decide

lemma specSet_setSize {n : ℕ} {g : Attr → Attr} : specSet (fun a => setSize n (g a)) a =
    if n < PTHREAD_STACK_MIN then (a, .code EINVAL) else ({ g a with stackSize := some n }, .code 0) := by
  rw [specSet, setSize]
  split_ifs <;> rfl

lemma setSize_refines {n : ℕ} {g : Attr → Attr} {g' : GlibcAttr} (rep : Represents s st) (held : st x = some a)
    (proper : ∀ a : Attr, a.Proper → (g a).Proper)
    (sets : f a.glibc = if n < PTHREAD_STACK_MIN then (a.glibc, .code EINVAL) else (g', .code 0))
    (same : g' = { g a with stackSize := some n }.glibc) :
    Represents (onGlibc env x s f).1 (specStep.on st x (specSet fun a => setSize n (g a))).1 ∧
      (onGlibc env x s f).2 = (specStep.on st x (specSet fun a => setSize n (g a))).2 := by
  have old := (rep.holds x a held).1
  refine onGlibc_refines rep held ?_ ?_
  · rw [specSet_setSize]
    split
    next => exact old
    next large =>
      refine ⟨fun m eq zero => large ?_, (proper a old).detachState, (proper a old).inheritSched⟩
      rw [Option.some.inj eq, zero]
      decide
  · rw [sets, specSet_setSize, same]
    split <;> rfl

lemma step_refines (rep : Represents s st) (ok : Allowed st c) :
    Represents (step env s c).1 (specStep env st c).1 ∧ (step env s c).2 = (specStep env st c).2 := by
  cases c with
  | init x => exact ⟨represents_init rep, rfl⟩
  | destroy x =>
    obtain ⟨a, held⟩ := Option.isSome_iff_exists.mp ok
    obtain ⟨-, sig, some, -⟩ := rep.holds x a held
    refine ⟨?_, rfl⟩
    dsimp only [step, specStep, pthreadAttrDestroy]
    rw [if_pos ⟨sig, some⟩]
    exact represents_change rep held (fun y ne => Function.update_of_ne ne ..) fun b eq =>
      absurd eq (Option.some_ne_none b).symm
  | setstacksize x n =>
    obtain ⟨a, held⟩ := Option.isSome_iff_exists.mp ok
    exact setSize_refines (g := id) rep held (fun _ => id) rfl rfl
  | setstack x addr n =>
    obtain ⟨a, held⟩ := Option.isSome_iff_exists.mp ok
    exact setSize_refines (g := fun a => { a with stackEnd := some (addr + n) }) rep held
      (fun a proper => ⟨proper.size, proper.detachState, proper.inheritSched⟩) rfl rfl
  | setdetachstate x v =>
    obtain ⟨a, held⟩ := Option.isSome_iff_exists.mp ok.1
    have old := (rep.holds x a held).1
    exact onGlibc_refines rep held ⟨old.size, ok.2, old.inheritSched⟩ (if_neg (toLinux_accepted ok.2))
  | setinheritsched x v =>
    obtain ⟨a, held⟩ := Option.isSome_iff_exists.mp ok.1
    have old := (rep.holds x a held).1
    exact onGlibc_refines rep held ⟨old.size, old.detachState, ok.2⟩ (if_neg (toLinux_accepted ok.2))
  | getstacksize x =>
    obtain ⟨a, held⟩ := Option.isSome_iff_exists.mp ok
    have old := (rep.holds x a held).1
    refine onGlibc_refines rep held old (congrArg (fun n : ℕ => (a.glibc, Reply.value n)) ?_)
    rw [GlibcAttr.size, Attr.glibc]
    cases set : a.stackSize with
    | none => rfl
    | some n => exact if_neg (old.size n set)
  | getdetachstate x =>
    obtain ⟨a, held⟩ := Option.isSome_iff_exists.mp ok
    have old := (rep.holds x a held).1
    exact onGlibc_refines rep held old (congrArg (fun v => (a.glibc, Reply.value v)) (toMacos_toLinux old.detachState))
  | getinheritsched x =>
    obtain ⟨a, held⟩ := Option.isSome_iff_exists.mp ok
    have old := (rep.holds x a held).1
    exact onGlibc_refines rep held old (congrArg (fun v => (a.glibc, Reply.value v)) (toMacos_toLinux old.inheritSched))
  | create x =>
    obtain ⟨a, held⟩ := Option.isSome_iff_exists.mp ok
    obtain ⟨-, sig, -, attrs⟩ := rep.holds x a held
    have same : Function.update st x (some a) = st := by
      rw [← held, Function.update_eq_self]
    dsimp only [step, specStep, createAttr]
    rw [on_eq held, if_pos sig, attrs, same]
    exact ⟨rep, rfl⟩

lemma results_refine (rep : Represents s st) (ok : AllAllowed env st cs) :
    results env s cs = specResults env st cs := by
  induction cs generalizing s st with
  | nil => rfl
  | cons c cs ih =>
    obtain ⟨next, reply⟩ := step_refines rep ok.1
    rw [results, specResults, reply, ih next ok.2]

end Refinement

/-- From any memory in which no object is initialised yet, the results of all calls are those of the store. -/
theorem attributes_refine (env : Env) (s : State α) (cs : List (Call α)) (memory : Bounded s.heap)
    (ok : AllAllowed env (fun _ => none) cs) : results env s cs = specResults env (fun _ => none) cs :=
  results_refine ⟨fun _ a held => absurd held (Option.some_ne_none a).symm,
    fun _ _ a _ _ held => absurd held (Option.some_ne_none a).symm, memory⟩ ok

theorem attributes_refine_two : ∃ (env : Env) (s : State Bool), Bounded s.heap ∧
    results env s [.init true, .init false, .setdetachstate true 2, .getdetachstate false, .create true] =
      [.code 0, .code 0, .code 0, .value 1, .passed ⟨0, none, 1, 0⟩] := by
  let env : Env := ⟨fun heap => Classical.epsilon fun p => p ≠ 0 ∧ heap p = none, fun heap bounded => by
    obtain ⟨b, none⟩ := bounded
    exact @Classical.epsilon_spec _ (fun p => p ≠ 0 ∧ heap p = Option.none) ⟨b + 1, b.succ_ne_zero, none _ b.le_succ⟩,
    0x800000⟩
  have memory : Bounded fun _ => none := ⟨0, fun _ _ => rfl⟩
  have ok : AllAllowed env (fun _ => none)
      [.init true, .init false, .setdetachstate true 2, .getdetachstate false, .create true] :=
    ⟨trivial, trivial, ⟨rfl, .inr rfl⟩, rfl, rfl, trivial⟩
  exact ⟨env, ⟨fun _ => ⟨0, 0⟩, fun _ => none⟩, memory, (attributes_refine env _ _ memory ok).trans rfl⟩

end Macify.Threads.Attributes
