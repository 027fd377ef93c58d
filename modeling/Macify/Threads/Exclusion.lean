import Macify.Lib.CStrings
import Macify.Lib.Loop
import Macify.Threads.Mutex

/-!
# Mutual exclusion across the conversion

`convert_macos_mutex` reads the signature of a mutex and then overwrites it, with nothing to keep other threads out in
between. Main result: `mutex_exclusion`. The C library works as documented on an initialised mutex (`GlibcSpec`).
-/

namespace Macify.Threads
open Lib

inductive Op where
  | lock
  | unlock
  deriving DecidableEq

inductive Pc where
  | idle
  | read (op : Op)
  | copy (op : Op) (kind : MutexKind)
  | real (op : Op)
  deriving DecidableEq

def Pc.op : Pc → Option Op
  | idle => none
  | read op => some op
  | copy op _ => some op
  | real op => some op

/-- A `lock` that has to wait has no result yet; the second part of a result is whether the call has succeeded. -/
structure Glibc where
  lock : ℕ → Mem → Option (Mem × Bool)
  unlock : ℕ → Mem → Mem × Bool

structure Machine where
  mem : Mem
  pc : ℕ → Pc
  depth : ℕ → ℕ

inductive Event where
  | call (t : ℕ) (op : Op)
  | run (t : ℕ)
  deriving DecidableEq

def Machine.put (s : Machine) (t : ℕ) (mem : Mem) (pc : Pc) (depth : ℕ) : Machine :=
  ⟨mem, Function.update s.pc t pc, Function.update s.depth t depth⟩

section Put

variable {s : Machine} {t u : ℕ} {mem : Mem} {pc : Pc} {depth : ℕ}

@[simp] lemma put_pc_self : (s.put t mem pc depth).pc t = pc := Function.update_self ..

@[simp] lemma put_pc_other (ne : u ≠ t) : (s.put t mem pc depth).pc u = s.pc u := Function.update_of_ne ne ..

@[simp] lemma put_depth_self : (s.put t mem pc depth).depth t = depth := Function.update_self ..

@[simp] lemma put_depth_other (ne : u ≠ t) : (s.put t mem pc depth).depth u = s.depth u :=
  Function.update_of_ne ne ..

lemma put_depth_same : (s.put t mem pc (s.depth t)).depth = s.depth := Function.update_eq_self ..

end Put

def step (glibc : Glibc) (m : W64) (s : Machine) : Event → Machine
  | .call t op =>
    if s.pc t = .idle ∧ (op = .lock ∨ 0 < s.depth t) then s.put t s.mem (.read op) (s.depth t) else s
  | .run t =>
    match s.pc t with
    | .idle => s
    | .read op =>
      match macosMutexKind (s.mem.read32 m) with
      | some kind => s.put t s.mem (.copy op kind) (s.depth t)
      | none => s.put t s.mem (.real op) (s.depth t)
    | .copy op kind => s.put t (s.mem.store m kind.initializer) (.real op) (s.depth t)
    | .real .lock =>
      match glibc.lock t s.mem with
      | none => s
      | some (mem, ok) => s.put t mem .idle (if ok then s.depth t + 1 else s.depth t)
    | .real .unlock =>
      let (mem, ok) := glibc.unlock t s.mem
      s.put t mem .idle (if ok then s.depth t - 1 else s.depth t)

def start (mem : Mem) : Machine := ⟨mem, fun _ => .idle, fun _ => 0⟩

def Exclusive (s : Machine) : Prop := ∀ t u, 0 < s.depth t → 0 < s.depth u → t = u

/-- A mutex is overwritten only while nobody has it. -/
def Allowed (s : Machine) : Event → Prop
  | .call _ _ => True
  | .run t => ∀ op kind, s.pc t = .copy op kind → ∀ u, s.depth u = 0

/-- The locks of each thread, for the thread that has the mutex and how often it has locked it. -/
def depthOf : Option (ℕ × ℕ) → ℕ → ℕ
  | none, _ => 0
  | some (u, n), t => if t = u then n else 0

/-- `has mem owner`: the mutex is initialised, and who has it how often. Its first word is no macOS signature; a
    taken mutex can be locked by its owner only, who can give it back. -/
structure GlibcSpec (glibc : Glibc) (m : W64) (has : Mem → Option (ℕ × ℕ) → Prop) : Prop where
  word : ∀ {mem owner}, has mem owner → macosMutexKind (mem.read32 m) = none
  init : ∀ (mem : Mem) (kind : MutexKind), has (mem.store m kind.initializer) none
  lock_free : ∀ {mem} t, has mem none →
    ∃ mem', glibc.lock t mem = some (mem', true) ∧ has mem' (some (t, 1))
  lock_taken : ∀ {mem u n t mem' ok}, has mem (some (u, n)) → glibc.lock t mem = some (mem', ok) →
    if ok then t = u ∧ has mem' (some (t, n + 1)) else has mem' (some (u, n))
  unlock : ∀ {mem t n}, has mem (some (t, n + 1)) →
    ∃ mem', glibc.unlock t mem = (mem', true) ∧ has mem' (if n = 0 then none else some (t, n))

/-- The mutex is as the program has initialised it, and nobody has got to the C library. -/
structure Untouched (m : W64) (s : Machine) : Prop where
  sig : (macosMutexKind (s.mem.read32 m)).isSome = true
  depth : ∀ t, s.depth t = 0
  before : ∀ t op, s.pc t ≠ .real op

def Converted (has : Mem → Option (ℕ × ℕ) → Prop) (s : Machine) : Prop :=
  ∃ owner, has s.mem owner ∧ s.depth = depthOf owner

structure ThreadOk (pc : Pc) (depth : ℕ) : Prop where
  unlocking : pc.op = some .unlock → 0 < depth
  copying : ∀ op kind, pc = .copy op kind → op = .lock ∧ depth = 0

structure Inv (m : W64) (has : Mem → Option (ℕ × ℕ) → Prop) (s : Machine) : Prop where
  mutex : Untouched m s ∨ Converted has s
  threads : ∀ t, ThreadOk (s.pc t) (s.depth t)

inductive Move (glibc : Glibc) (m : W64) (s : Machine) : Event → Machine → Prop
  | stay {e} : Move glibc m s e s
  | call {t op} :
    s.pc t = .idle →
    op = .lock ∨ 0 < s.depth t →
    Move glibc m s (.call t op) (s.put t s.mem (.read op) (s.depth t))
  | signed {t op kind} :
    s.pc t = .read op →
    macosMutexKind (s.mem.read32 m) = some kind →
    Move glibc m s (.run t) (s.put t s.mem (.copy op kind) (s.depth t))
  | unsigned {t op} :
    s.pc t = .read op →
    macosMutexKind (s.mem.read32 m) = none →
    Move glibc m s (.run t) (s.put t s.mem (.real op) (s.depth t))
  | copy {t op kind} :
    s.pc t = .copy op kind →
    Move glibc m s (.run t) (s.put t (s.mem.store m kind.initializer) (.real op) (s.depth t))
  | lock {t mem ok} :
    s.pc t = .real .lock →
    glibc.lock t s.mem = some (mem, ok) →
    Move glibc m s (.run t) (s.put t mem .idle (if ok then s.depth t + 1 else s.depth t))
  | unlock {t mem ok} :
    s.pc t = .real .unlock →
    glibc.unlock t s.mem = (mem, ok) →
    Move glibc m s (.run t) (s.put t mem .idle (if ok then s.depth t - 1 else s.depth t))

section Steps

variable {glibc : Glibc} {m : W64} {has : Mem → Option (ℕ × ℕ) → Prop} {s : Machine} {e : Event}
  {t : ℕ} {op : Op} {kind : MutexKind}

lemma step_move : Move glibc m s e (step glibc m s e) := by
  cases e with
  | call t op =>
    rw [step]
    split
    · next can => exact .call can.1 can.2
    · exact .stay
  | run t =>
    unfold step
    dsimp only
    split
    · exact .stay
    · next here =>
      split
      · next signed => exact .signed here signed
      · next unsigned => exact .unsigned here unsigned
    · next here => exact .copy here
    · next here =>
      split
      · exact .stay
      · next result => exact .lock here result
    · next here => exact .unlock here rfl

lemma step_call (idle : s.pc t = .idle) (can : op = .lock ∨ 0 < s.depth t) :
    step glibc m s (.call t op) = s.put t s.mem (.read op) (s.depth t) := if_pos ⟨idle, can⟩

lemma step_signed (here : s.pc t = .read op) (sig : macosMutexKind (s.mem.read32 m) = some kind) :
    step glibc m s (.run t) = s.put t s.mem (.copy op kind) (s.depth t) := by
  simp only [step, here, sig]

lemma step_copy (here : s.pc t = .copy op kind) :
    step glibc m s (.run t) = s.put t (s.mem.store m kind.initializer) (.real op) (s.depth t) := by
  simp only [step, here]

lemma threads_put {mem : Mem} {pc : Pc} {depth : ℕ} (threads : ∀ u, ThreadOk (s.pc u) (s.depth u))
    (one : ThreadOk pc depth) : ∀ u, ThreadOk ((s.put t mem pc depth).pc u) ((s.put t mem pc depth).depth u) := by
  intro u
  by_cases eq : u = t
  · subst eq
    rw [put_pc_self, put_depth_self]
    exact one
  · rw [put_pc_other eq, put_depth_other eq]
    exact threads u

lemma Untouched.put {pc : Pc} (untouched : Untouched m s) (before : ∀ op, pc ≠ .real op) :
    Untouched m (s.put t s.mem pc (s.depth t)) where
  sig := untouched.sig
  depth u := by rw [put_depth_same, untouched.depth]
  before u op := by
    by_cases eq : u = t
    · rw [eq, put_pc_self]
      exact before op
    · rw [put_pc_other eq]
      exact untouched.before u op

lemma Converted.put {pc : Pc} (converted : Converted has s) : Converted has (s.put t s.mem pc (s.depth t)) := by
  obtain ⟨owner, holds, depth⟩ := converted
  refine ⟨owner, holds, ?_⟩
  rw [put_depth_same, depth]

lemma Inv.converted (inv : Inv m has s) (here : s.pc t = .real op) : Converted has s :=
  inv.mutex.resolve_left fun untouched => untouched.before t op here

lemma depthOf_pos {owner : Option (ℕ × ℕ)} (held : 0 < depthOf owner t) : ∃ n, owner = some (t, n + 1) := by
  cases owner with
  | none => exact absurd held (lt_irrefl 0)
  | some owner =>
    obtain ⟨u, n⟩ := owner
    by_cases eq : t = u
    · subst eq
      rw [depthOf, if_pos rfl] at held
      obtain ⟨n, rfl⟩ := Nat.exists_eq_succ_of_ne_zero held.ne'
      exact ⟨n, rfl⟩
    · rw [depthOf, if_neg eq] at held
      exact absurd held (lt_irrefl 0)

lemma update_depthOf_owner {n k : ℕ} : Function.update (depthOf (some (t, n))) t k = depthOf (some (t, k)) := by
  funext u
  by_cases eq : u = t
  · rw [eq, Function.update_self, depthOf, if_pos rfl]
  · rw [Function.update_of_ne eq, depthOf, depthOf, if_neg eq, if_neg eq]

lemma update_depthOf_none {k : ℕ} : Function.update (depthOf none) t k = depthOf (some (t, k)) := by
  funext u
  by_cases eq : u = t
  · rw [eq, Function.update_self, depthOf, if_pos rfl]
  · rw [Function.update_of_ne eq, depthOf, depthOf, if_neg eq]

lemma depthOf_zero : depthOf (some (t, 0)) = depthOf none := by
  funext u
  rw [depthOf, depthOf, ite_self]

lemma converted_lock (spec : GlibcSpec glibc m has) (converted : Converted has s) {mem : Mem} {ok : Bool}
    (result : glibc.lock t s.mem = some (mem, ok)) :
    Converted has (s.put t mem .idle (if ok then s.depth t + 1 else s.depth t)) := by
  obtain ⟨owner, holds, depth⟩ := converted
  unfold Converted Machine.put
  rw [depth]
  cases owner with
  | none =>
    obtain ⟨mem', locked, taken⟩ := spec.lock_free t holds
    rw [result] at locked
    cases locked
    exact ⟨some (t, 1), taken, update_depthOf_none⟩
  | some owner =>
    obtain ⟨u, n⟩ := owner
    have kept := spec.lock_taken holds result
    cases ok with
    | false =>
      rw [if_neg Bool.false_ne_true] at kept ⊢
      exact ⟨some (u, n), kept, Function.update_eq_self _ _⟩
    | true =>
      obtain ⟨rfl, again⟩ := kept
      refine ⟨some (t, n + 1), again, ?_⟩
      rw [if_pos rfl, update_depthOf_owner, depthOf, if_pos rfl]

lemma converted_unlock (spec : GlibcSpec glibc m has) (converted : Converted has s) (held : 0 < s.depth t)
    {mem : Mem} {ok : Bool} (result : glibc.unlock t s.mem = (mem, ok)) :
    Converted has (s.put t mem .idle (if ok then s.depth t - 1 else s.depth t)) := by
  obtain ⟨owner, holds, depth⟩ := converted
  rw [depth] at held
  obtain ⟨n, rfl⟩ := depthOf_pos held
  obtain ⟨mem', given, left⟩ := spec.unlock holds
  rw [result] at given
  cases given
  refine ⟨_, left, ?_⟩
  have count : depthOf (some (t, n + 1)) t = n + 1 := if_pos rfl
  unfold Machine.put
  rw [depth, if_pos rfl, count, Nat.add_sub_cancel, update_depthOf_owner]
  split
  · next zero => rw [zero, depthOf_zero]
  · rfl

lemma inv_step (spec : GlibcSpec glibc m has) (inv : Inv m has s) (allowed : Allowed s e) :
    Inv m has (step glibc m s e) := by
  have idleOk : ∀ depth, ThreadOk .idle depth := fun depth => ⟨nofun, nofun⟩
  generalize next : step glibc m s e = s'
  have move := @step_move glibc m s e
  rw [next] at move
  cases move with
  | stay => exact inv
  | @call t op idle can =>
    refine ⟨inv.mutex.imp (·.put nofun) (·.put), threads_put inv.threads ⟨fun unlocks => ?_, nofun⟩⟩
    cases unlocks
    exact can.resolve_left nofun
  | @signed t op kind here sig =>
    have untouched : Untouched m s := by
      refine inv.mutex.resolve_right fun ⟨owner, holds, _⟩ => ?_
      rw [spec.word holds] at sig
      cases sig
    refine ⟨.inl (untouched.put nofun), threads_put inv.threads ⟨fun unlocks => ?_, ?_⟩⟩
    · refine (inv.threads t).unlocking ?_
      rw [here]
      exact unlocks
    · intro op' kind' eq
      cases eq
      refine ⟨?_, untouched.depth t⟩
      cases op with
      | lock => rfl
      | unlock =>
        have held := (inv.threads t).unlocking (by rw [here]; rfl)
        rw [untouched.depth] at held
        exact absurd held (lt_irrefl 0)
  | @unsigned t op here sig =>
    have converted : Converted has s := by
      refine inv.mutex.resolve_left fun untouched => ?_
      have signed := untouched.sig
      rw [sig] at signed
      cases signed
    refine ⟨.inr converted.put, threads_put inv.threads ⟨fun unlocks => ?_, nofun⟩⟩
    refine (inv.threads t).unlocking ?_
    rw [here]
    exact unlocks
  | @copy t op kind here =>
    have free := allowed op kind here
    refine ⟨.inr ⟨none, spec.init _ kind, ?_⟩, threads_put inv.threads ⟨fun unlocks => ?_, nofun⟩⟩
    · rw [put_depth_same]
      exact funext free
    · rw [((inv.threads t).copying op kind here).1] at unlocks
      cases unlocks
  | @lock t mem ok here result =>
    exact ⟨.inr (converted_lock spec (inv.converted here) result), threads_put inv.threads (idleOk _)⟩
  | @unlock t mem ok here result =>
    have held := (inv.threads t).unlocking (by rw [here]; rfl)
    exact ⟨.inr (converted_unlock spec (inv.converted here) held result), threads_put inv.threads (idleOk _)⟩

lemma exclusive_of_inv (inv : Inv m has s) : Exclusive s := by
  intro t u tHas uHas
  rcases inv.mutex with untouched | ⟨owner, -, depth⟩
  · rw [untouched.depth t] at tHas
    exact absurd tHas (lt_irrefl 0)
  · rw [depth] at tHas uHas
    obtain ⟨n, tOwns⟩ := depthOf_pos tHas
    obtain ⟨k, uOwns⟩ := depthOf_pos uHas
    rw [tOwns] at uOwns
    cases uOwns
    rfl

lemma broken_of_not_allowed (spec : GlibcSpec glibc m has) (inv : Inv m has s) (not : ¬ Allowed s e) :
    ¬ Exclusive (step glibc m (step glibc m s e) e) := by
  cases e with
  | call t op => exact absurd trivial not
  | run t =>
    rw [Allowed] at not
    push Not at not
    obtain ⟨op, kind, here, u, held⟩ := not
    obtain ⟨rfl, none⟩ := (inv.threads t).copying op kind here
    have other : u ≠ t := fun eq => held (eq ▸ none)
    have copied := @step_copy glibc m s t .lock kind here
    obtain ⟨mem, locked, -⟩ := spec.lock_free t (spec.init s.mem kind)
    have taken : step glibc m (step glibc m s (.run t)) (.run t) =
        (step glibc m s (.run t)).put t mem .idle ((step glibc m s (.run t)).depth t + 1) := by
      rw [copied]
      unfold step
      simp only [put_pc_self]
      rw [show (s.put t (s.mem.store m kind.initializer) (.real .lock) (s.depth t)).mem =
        s.mem.store m kind.initializer from rfl, locked]
      rfl
    intro exclusive
    refine other (exclusive u t ?_ ?_)
    · rw [taken, put_depth_other other, copied, put_depth_other other]
      exact Nat.pos_of_ne_zero held
    · rw [taken, put_depth_self]
      exact Nat.succ_pos _

end Steps

section Runs

variable {glibc : Glibc} {m : W64} {has : Mem → Option (ℕ × ℕ) → Prop} {mem : Mem}

lemma inv_start (sig : (macosMutexKind (mem.read32 m)).isSome = true) : Inv m has (start mem) where
  mutex := .inl ⟨sig, fun _ => rfl, nofun⟩
  threads _ := ⟨nofun, nofun⟩

lemma inv_run (spec : GlibcSpec glibc m has) (sig : (macosMutexKind (mem.read32 m)).isSome = true)
    {events : List Event} (allowed : Along (step glibc m) Allowed (start mem) events) :
    Inv m has (events.foldl (step glibc m) (start mem)) :=
  allowed.foldl (Inv m has) (fun _ _ inv may => inv_step spec inv may) (inv_start sig)

/-- As long as nobody overwrites the mutex while it is taken, at most one thread has it; the first that does so
    is let in. -/
theorem mutex_exclusion (spec : GlibcSpec glibc m has)
    (sig : (macosMutexKind (mem.read32 m)).isSome = true) (events : List Event)
    (allowed : Along (step glibc m) Allowed (start mem) events) :
    (∀ k, Exclusive ((events.take k).foldl (step glibc m) (start mem))) ∧
      ∀ e, ¬ Allowed (events.foldl (step glibc m) (start mem)) e →
        ¬ Exclusive ((events ++ [e, e]).foldl (step glibc m) (start mem)) := by
  constructor
  · intro k
    exact exclusive_of_inv (inv_run spec sig (allowed.take k))
  · intro e not
    rw [List.foldl_append]
    exact broken_of_not_allowed spec (inv_run spec sig allowed) not

end Runs

def wordGlibc (m : W64) : Glibc where
  lock _ mem := if mem.read32 m = 0 then some (mem.write32 m 1, true) else none
  unlock _ mem := (mem.write32 m 0, true)

def wordHas (m : W64) (mem : Mem) : Option (ℕ × ℕ) → Prop
  | none => mem.read32 m = 0
  | some (_, n) => mem.read32 m = 1 ∧ n = 1

lemma read32_initializer {m : W64} {mem : Mem} (kind : MutexKind) :
    (mem.store m kind.initializer).read32 m = 0 := by
  have split : kind.initializer = Mem.leBytes 4 0 ++ kind.initializer.drop 4 := by cases kind <;> rfl
  have stored : (mem.store m kind.initializer).Holds m kind.initializer :=
    Mem.holds_store_self (by cases kind <;> decide)
  have first : (mem.store m kind.initializer).load m 4 = Mem.leBytes 4 0 := by
    rw [split, Mem.holds_append, ← split] at stored
    exact stored.1
  rw [Mem.read32, first]
  rfl

lemma wordGlibc_spec (m : W64) : GlibcSpec (wordGlibc m) m (wordHas m) where
  word {mem owner} holds := by
    cases owner with
    | none => rw [show mem.read32 m = 0 from holds]; rfl
    | some owner => rw [holds.1]; rfl
  init mem kind := read32_initializer kind
  lock_free {mem} t free := ⟨mem.write32 m 1, if_pos free, Mem.read32_write32_self, rfl⟩
  lock_taken {mem u n t mem' ok} taken result := by
    have waits : (wordGlibc m).lock t mem = none := by
      rw [wordGlibc]
      dsimp only
      rw [taken.1]
      rfl
    rw [waits] at result
    cases result
  unlock {mem t n} taken := by
    obtain ⟨-, one⟩ := taken
    cases one
    exact ⟨mem.write32 m 0, rfl, Mem.read32_write32_self⟩

def signedMem : Mem := Mem.write32 (fun _ => 0) 0x1000 MACOS_PTHREAD_MUTEX_SIG

lemma signedMem_sig : (macosMutexKind (signedMem.read32 0x1000)).isSome = true := by
  rw [signedMem, Mem.read32_write32_self]
  rfl

/-- The second thread calls as well, but looks at the mutex only after the first has locked it. -/
def inTurn : List Event := [.call 0 .lock, .call 1 .lock, .run 0, .run 0, .run 0, .run 1, .run 1]

lemma allowed_of_pc {s : Machine} {t : ℕ} (pc : Pc) (other : ∀ op kind, pc ≠ .copy op kind) (here : s.pc t = pc) :
    Allowed s (.run t) := fun op kind copies => absurd (here.symm.trans copies) (other op kind)

lemma inTurn_allowed : Along (step (wordGlibc 0x1000) 0x1000) Allowed (start signedMem) inTurn := by
  have reads := fun s t => @allowed_of_pc s t (.read .lock) (by simp)
  have locks := fun s t => @allowed_of_pc s t (.real .lock) (by simp)
  refine ⟨trivial, trivial, reads _ _ ?_, fun _ _ _ u => ?_, locks _ _ ?_, reads _ _ ?_, locks _ _ ?_, trivial⟩
  · decide +kernel
  · rw [@step_signed _ _ _ _ .lock .normal, put_depth_same, step_call, put_depth_same, step_call rfl (.inl rfl),
      put_depth_same]
    · rfl
    all_goals decide +kernel
  all_goals decide +kernel

theorem mutex_exclusion_in_turn :
    Exclusive (inTurn.foldl (step (wordGlibc 0x1000) 0x1000) (start signedMem)) :=
  (mutex_exclusion (wordGlibc_spec 0x1000) signedMem_sig _ inTurn_allowed).1 7

/-- Both threads read the signature before either has copied the initialiser. -/
def overlapping : List Event :=
  [.call 0 .lock, .call 1 .lock, .run 0, .run 1, .run 0, .run 0, .run 1, .run 1]

/-- The second copy frees the mutex that the first thread has locked. -/
theorem mutex_exclusion_lost :
    (macosMutexKind (signedMem.read32 0x1000)).isSome = true ∧
      GlibcSpec (wordGlibc 0x1000) 0x1000 (wordHas 0x1000) ∧
      (overlapping.foldl (step (wordGlibc 0x1000) 0x1000) (start signedMem)).depth 0 = 1 ∧
      (overlapping.foldl (step (wordGlibc 0x1000) 0x1000) (start signedMem)).depth 1 = 1 :=
  ⟨signedMem_sig, wordGlibc_spec 0x1000, by decide +kernel, by decide +kernel⟩

end Macify.Threads
