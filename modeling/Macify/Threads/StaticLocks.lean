import Macify.Threads.Mutex

/-!
# Statically initialised locks

The wrappers of `shim/pthread/sync.c` on one mutex or read-write lock of a macOS static initialiser, called by one
thread, against the C library on an object of its own initialiser. Some wrappers convert an object with a signature,
those that destroy one do not, and `tryrdlock` and `trywrlock` have no wrapper. Main result: `static_locks_iff`.
-/

namespace Macify.Threads.StaticLocks

inductive Ret where
  | ok
  | EAGAIN
  | EBUSY
  | EDEADLK
  | EINVAL
  | EPERM
  deriving DecidableEq

def run {σ ω : Type*} (step : ω → σ → Option Ret × σ) : List ω → σ → List (Option Ret)
  | [], _ => []
  | op :: ops, s => (step op s).1 :: if (step op s).1 = none then [] else run step ops (step op s).2

section Runs

variable {σ τ ω : Type*} {step step' : ω → σ → Option Ret × σ} {other : ω → τ → Option Ret × τ} {op : ω} {ops : List ω}
  {s : σ} {t : τ}

lemma run_cons_eq_iff {r : Ret} (fst : (step op s).1 = some r) (snd : (other op t).1 = some r) :
    run step (op :: ops) s = run other (op :: ops) t ↔ run step ops (step op s).2 = run other ops (other op t).2 := by
  rw [run, run, fst, snd, if_neg (Option.some_ne_none r), if_neg (Option.some_ne_none r), List.cons.injEq,
    and_iff_right rfl]

lemma run_cons_ne (ne : (step op s).1 ≠ (other op t).1) : run step (op :: ops) s ≠ run other (op :: ops) t :=
  fun eq => ne (List.cons.inj eq).1

lemma run_blocked (fst : (step op s).1 = none) (snd : (other op t).1 = none) :
    run step (op :: ops) s = run other (op :: ops) t := by
  rw [run, run, fst, snd, if_pos rfl, if_pos rfl]

lemma run_cons_congr {s' : σ} (eq : step op s = step' op s')
    (rest : run step ops (step op s).2 = run step' ops (step op s).2) :
    run step (op :: ops) s = run step' (op :: ops) s' := by
  rw [run, run, ← eq, rest]

lemma run_eq_of_invariant {inv : σ → Prop} (same : ∀ op s, inv s → step op s = step' op s)
    (keeps : ∀ op s, inv s → inv (step op s).2) (here : inv s) : run step ops s = run step' ops s := by
  induction ops generalizing s with
  | nil => rfl
  | cons op ops ih => exact run_cons_congr (same op s here) (ih (keeps op s here))

end Runs

inductive MutexOp where
  | lock
  | trylock
  | unlock
  | destroy
  deriving DecidableEq

/-- `pthread_mutex_t`. A destroyed mutex has no kind; `owner` says whether the thread has it. -/
structure MutexObj where
  lock : BitVec 32
  count : BitVec 32
  owner : Bool
  nusers : BitVec 32
  kind : Option MutexKind
  deriving DecidableEq

namespace MutexObj

variable (m : MutexObj)

def take : MutexObj := { m with lock := 1, owner := true, nusers := m.nusers + 1 }

def release : MutexObj := { m with lock := 0, owner := false, nusers := m.nusers - 1 }

def again : Option Ret × MutexObj :=
  if m.count + 1 = 0 then (some .EAGAIN, m) else (some .ok, { m with count := m.count + 1 })

def acquire (other : Option Ret) : Option Ret × MutexObj := if m.lock = 0 then (some .ok, m.take) else (other, m)

def acquireRecursive (other : Option Ret) : Option Ret × MutexObj :=
  if m.owner then m.again else { m with count := 1 }.acquire other

def glibc (op : MutexOp) (m : MutexObj) : Option Ret × MutexObj :=
  match op, m.kind with
  | .destroy, kind =>
    -- the kind of a destroyed mutex passes for a robust one, which is not asked for its users
    if kind.isSome ∧ m.nusers ≠ 0 then (some .EBUSY, m) else (some .ok, { m with kind := none })
  | _, none => (some .EINVAL, m)
  | .lock, some .recursive => m.acquireRecursive none
  | .lock, some .errorcheck => if m.owner then (some .EDEADLK, m) else m.acquire none
  | .lock, some _ => m.acquire none
  | .trylock, some .recursive => m.acquireRecursive (some .EBUSY)
  | .trylock, some _ => m.acquire (some .EBUSY)
  | .unlock, some .recursive =>
    if !m.owner then (some .EPERM, m)
    else if m.count - 1 = 0 then (some .ok, { m with count := 0 }.release)
    else (some .ok, { m with count := m.count - 1 })
  | .unlock, some .errorcheck => if !m.owner || m.lock = 0 then (some .EPERM, m) else (some .ok, m.release)
  | .unlock, some _ => (some .ok, m.release)

end MutexObj

def mutexInit (kind : MutexKind) : MutexObj := ⟨0, 0, false, 0, some kind⟩

def macosSig : MutexKind → BitVec 32
  | .normal => MACOS_PTHREAD_MUTEX_SIG
  | .recursive => MACOS_PTHREAD_RECURSIVE_SIG
  | .errorcheck => MACOS_PTHREAD_ERRORCHECK_SIG
  | .adaptive => MACOS_PTHREAD_FIRSTFIT_SIG

def macosMutex (kind : MutexKind) : MutexObj := ⟨macosSig kind, 0, false, 0, some .normal⟩

def convertMutex (m : MutexObj) : MutexObj := (macosMutexKind m.lock).elim m mutexInit

def shimMutex (op : MutexOp) (m : MutexObj) : Option Ret × MutexObj :=
  if op = .destroy then if m.lock = MACOS_PTHREAD_MUTEX_SIG then (some .ok, m) else m.glibc .destroy
  else (convertMutex m).glibc op

section Mutexes

variable {m r : MutexObj} {op : MutexOp} {ops : List MutexOp} {kind : MutexKind} {other : Option Ret}

def Converted (m : MutexObj) : Prop := m.lock = 0 ∨ m.lock = 1

lemma converted_acquire (conv : Converted m) : Converted (m.acquire other).2 := by
  unfold MutexObj.acquire
  split
  · exact .inr rfl
  · exact conv

lemma converted_recursive (conv : Converted m) : Converted (m.acquireRecursive other).2 := by
  unfold MutexObj.acquireRecursive MutexObj.again
  split_ifs
  · exact conv
  · exact conv
  · exact converted_acquire conv

lemma converted_glibc (conv : Converted m) : Converted (m.glibc op).2 := by
  unfold MutexObj.glibc
  split
  · split_ifs <;> exact conv
  · exact conv
  · exact converted_recursive conv
  · split_ifs
    · exact conv
    · exact converted_acquire conv
  · exact converted_acquire conv
  · exact converted_recursive conv
  · exact converted_acquire conv
  · split_ifs
    · exact conv
    · exact .inl rfl
    · exact conv
  · split_ifs
    · exact conv
    · exact .inl rfl
  · exact .inl rfl

lemma shimMutex_converted (conv : Converted m) : shimMutex op m = m.glibc op := by
  have none : macosMutexKind m.lock = none := by
    rcases conv with eq | eq <;>
    · rw [eq]
      decide
  have ne : m.lock ≠ MACOS_PTHREAD_MUTEX_SIG := by
    rcases conv with eq | eq <;>
    · rw [eq]
      decide
  rw [shimMutex, convertMutex, none, if_neg ne]
  split
  next eq => rw [eq]
  next => rfl

lemma run_converted (conv : Converted m) : run shimMutex ops m = run MutexObj.glibc ops m :=
  run_eq_of_invariant (fun _ _ => shimMutex_converted)
    (fun op m conv => by rw [shimMutex_converted conv]; exact converted_glibc conv) conv

lemma shimMutex_converts (sig : m.lock = macosSig kind) (ne : op ≠ .destroy) :
    shimMutex op m = (mutexInit kind).glibc op := by
  have known : macosMutexKind (macosSig kind) = some kind := by
    cases kind <;> decide
  rw [shimMutex, if_neg ne, convertMutex, sig, known, Option.elim_some]

/-- After the mutex was destroyed: the C library refuses all further calls, and the shim converts it. -/
lemma run_destroyed (sig : m.lock = macosSig kind) (unused : m.nusers = 0) (gone : r.kind = none) :
    run shimMutex ops m = run MutexObj.glibc ops r ↔ ∀ op ∈ ops, op = .destroy := by
  induction ops generalizing m r with
  | nil => exact iff_of_true rfl fun _ mem => absurd mem List.not_mem_nil
  | cons op ops ih =>
    rw [List.forall_mem_cons]
    have refuses : r.glibc op = if op = .destroy then (some .ok, { r with kind := none }) else (some .EINVAL, r) := by
      unfold MutexObj.glibc
      rw [gone]
      cases op <;> rfl
    by_cases eq : op = .destroy
    · subst eq
      have ok : (shimMutex .destroy m).1 = some .ok ∧ (shimMutex .destroy m).2.lock = macosSig kind ∧
          (shimMutex .destroy m).2.nusers = 0 := by
        rw [shimMutex, if_pos rfl]
        split
        · exact ⟨rfl, sig, unused⟩
        · rw [MutexObj.glibc, if_neg (fun both => both.2 unused)]
          exact ⟨rfl, sig, unused⟩
      rw [if_pos rfl] at refuses
      rw [run_cons_eq_iff ok.1 (by rw [refuses]), ih ok.2.1 ok.2.2 (by rw [refuses]), and_iff_right rfl]
    · rw [if_neg eq] at refuses
      refine iff_of_false (run_cons_ne ?_) fun all => eq all.1
      have works : ((mutexInit kind).glibc op).1 ≠ some .EINVAL := by
        cases kind <;> cases op <;> decide
      rw [shimMutex_converts sig eq, refuses]
      exact works

lemma mutex_iff : run shimMutex ops (macosMutex kind) = run MutexObj.glibc ops (mutexInit kind) ↔
    ops.head? ≠ some .destroy ∨ ∀ op ∈ ops, op = .destroy := by
  cases ops with
  | nil => exact iff_of_true rfl (.inr fun _ mem => absurd mem List.not_mem_nil)
  | cons op ops =>
    rw [List.head?_cons, List.forall_mem_cons]
    by_cases eq : op = .destroy
    · subst eq
      have ok : (shimMutex .destroy (macosMutex kind)).1 = some .ok ∧
          (shimMutex .destroy (macosMutex kind)).2.lock = macosSig kind ∧
          (shimMutex .destroy (macosMutex kind)).2.nusers = 0 := by
        cases kind <;> decide
      rw [run_cons_eq_iff ok.1 rfl, run_destroyed ok.2.1 ok.2.2 rfl, or_iff_right (not_not.mpr rfl), and_iff_right rfl]
    · refine iff_of_true ?_ (.inl fun same => eq (Option.some.inj same))
      have same := @shimMutex_converts (macosMutex kind) op kind rfl eq
      refine run_cons_congr same ?_
      rw [same]
      exact run_converted (converted_glibc (.inl rfl))

end Mutexes

inductive RwOp where
  | rdlock
  | wrlock
  | tryrdlock
  | trywrlock
  | unlock
  | destroy
  deriving DecidableEq

/-- The readers above the bits `RWAITING`, `WRLOCKED` and `WRPHASE`; `writer` says whether the thread is
    `__cur_writer`. -/
structure RwObj where
  readers : BitVec 29
  waiting : Bool
  wrlocked : Bool
  wrphase : Bool
  writer : Bool
  deriving DecidableEq

namespace RwObj

variable (s : RwObj)

def addReader : Option Ret × RwObj :=
  if 2 ^ 28 ≤ (s.readers + 1).toNat then (some .EAGAIN, s)
  else (some .ok, { s with readers := s.readers + 1, wrphase := false })

def takeWriter : Option Ret × RwObj := (some .ok, { s with wrlocked := true, wrphase := true, writer := true })

def glibc (op : RwOp) (s : RwObj) : Option Ret × RwObj :=
  match op with
  | .rdlock => if s.writer then (some .EDEADLK, s) else if s.wrphase && s.wrlocked then (none, s) else s.addReader
  | .tryrdlock => if s.wrphase && s.wrlocked then (some .EBUSY, s) else s.addReader
  | .wrlock =>
    if s.writer then (some .EDEADLK, s)
    else if s.wrlocked || !(s.wrphase || s.readers = 0) then (none, s)
    else s.takeWriter
  | .trywrlock => if s.wrlocked || s.readers ≠ 0 then (some .EBUSY, s) else s.takeWriter
  | .unlock =>
    if s.writer then
      (some .ok, { s with wrlocked := !s.wrlocked, wrphase := s.wrphase ^^ s.readers ≠ 0, writer := false })
    else if s.readers - 1 = 0 then
      (some .ok, { s with readers := 0, wrphase := s.wrphase || s.wrlocked, waiting := false })
    else (some .ok, { s with readers := s.readers - 1 })
  | .destroy => (some .ok, s)

end RwObj

/-- `0x2DA8B3B4`: so many readers and `RWAITING`. -/
def sigReaders : ℕ := 0x5B51676

def rwInit : RwObj := ⟨0, false, false, false, false⟩

def rawRw (n : ℕ) : RwObj := ⟨BitVec.ofNat 29 (sigReaders + n), true, false, false, false⟩

def hasSig (s : RwObj) : Bool := s.readers == BitVec.ofNat 29 sigReaders && s.waiting && !s.wrlocked && !s.wrphase

def convertRw (s : RwObj) : RwObj := if hasSig s then rwInit else s

def shimRw (op : RwOp) (s : RwObj) : Option Ret × RwObj :=
  match op with
  | .rdlock | .wrlock | .unlock => (convertRw s).glibc op
  | .tryrdlock | .trywrlock => s.glibc op
  | .destroy => if hasSig s then (some .ok, s) else s.glibc .destroy

/-- `trywrlock` does not come while there are no readers, and no read lock finds as many as there can be. -/
def NotMisled : ℕ → List RwOp → Prop
  | _, [] => True
  | n, .destroy :: ops => NotMisled n ops
  | n, .tryrdlock :: ops => sigReaders + n + 1 < 2 ^ 28 ∧ NotMisled (n + 1) ops
  | 0, .trywrlock :: _ => False
  | 0, _ :: _ => True
  | n + 1, .trywrlock :: ops => NotMisled (n + 1) ops
  | n + 1, .rdlock :: ops => sigReaders + n + 2 < 2 ^ 28 ∧ NotMisled (n + 2) ops
  | n + 1, .unlock :: ops => NotMisled n ops
  | _ + 1, .wrlock :: _ => True

section RwLocks

variable {s : RwObj} {op : RwOp} {ops : List RwOp} {n : ℕ}

lemma waiting_addReader : s.addReader.2.waiting = s.waiting := by
  unfold RwObj.addReader
  split <;> rfl

lemma waiting_glibc (none : s.waiting = false) : (s.glibc op).2.waiting = false := by
  unfold RwObj.glibc RwObj.takeWriter
  cases op with
  | rdlock | tryrdlock =>
    dsimp only
    split_ifs
    all_goals first | exact none | exact waiting_addReader.trans none
  | wrlock | trywrlock | unlock =>
    dsimp only
    split_ifs
    all_goals first | exact none | rfl
  | destroy => exact none

lemma shimRw_converted (none : s.waiting = false) : shimRw op s = s.glibc op := by
  have plain : hasSig s = false := by
    rw [hasSig, none, Bool.and_false]
    rfl
  unfold shimRw convertRw
  rw [plain]
  cases op <;> rfl

lemma runRw_converted (none : s.waiting = false) : run shimRw ops s = run RwObj.glibc ops s :=
  run_eq_of_invariant (fun _ _ => shimRw_converted)
    (fun op s none => by rw [shimRw_converted none]; exact waiting_glibc none) none

def readersRw (n : ℕ) : RwObj := ⟨BitVec.ofNat 29 n, false, false, false, false⟩

lemma ofNat_add_one : BitVec.ofNat 29 n + 1 = BitVec.ofNat 29 (n + 1) := (BitVec.ofNat_add ..).symm

lemma toNat_readers (lt : n < 2 ^ 28) : (BitVec.ofNat 29 (n + 1)).toNat = n + 1 := by
  rw [BitVec.toNat_ofNat, Nat.mod_eq_of_lt (by omega)]

lemma addReader_raw (lt : sigReaders + n < 2 ^ 28) :
    (rawRw n).addReader =
      if sigReaders + n + 1 < 2 ^ 28 then (some .ok, rawRw (n + 1)) else (some .EAGAIN, rawRw n) := by
  rw [RwObj.addReader, rawRw, ofNat_add_one, toNat_readers lt]
  by_cases fits : sigReaders + n + 1 < 2 ^ 28
  · rw [if_neg (Nat.not_le.mpr fits), if_pos fits]
    rfl
  · rw [if_pos (Nat.not_lt.mp fits), if_neg fits]

lemma addReader_readers (lt : sigReaders + n < 2 ^ 28) : (readersRw n).addReader = (some .ok, readersRw (n + 1)) := by
  have small : n < 2 ^ 28 - sigReaders := by omega
  rw [RwObj.addReader, readersRw, ofNat_add_one, toNat_readers (by omega),
    if_neg (by unfold sigReaders at small; omega)]
  rfl

lemma ofNat_sub_one : BitVec.ofNat 29 (n + 1) - 1 = BitVec.ofNat 29 n := by
  rw [← ofNat_add_one, BitVec.add_sub_cancel]

lemma ofNat_ne_zero (pos : 0 < n) (lt : n < 2 ^ 28) : BitVec.ofNat 29 n ≠ 0 := by
  intro zero
  have none := congrArg BitVec.toNat zero
  rw [BitVec.toNat_ofNat, Nat.mod_eq_of_lt (by omega)] at none
  exact pos.ne' none

lemma raw_ne_zero (lt : sigReaders + n < 2 ^ 28) : (rawRw n).readers ≠ 0 :=
  ofNat_ne_zero (Nat.add_pos_left (by decide) n) lt

lemma shimRw_raw (lt : sigReaders + (n + 1) < 2 ^ 28) : shimRw op (rawRw (n + 1)) = (rawRw (n + 1)).glibc op := by
  have plain : hasSig (rawRw (n + 1)) = false := by
    have ne : BitVec.ofNat 29 (sigReaders + (n + 1)) ≠ BitVec.ofNat 29 sigReaders := by
      intro same
      have eq := congrArg BitVec.toNat same
      rw [BitVec.toNat_ofNat, BitVec.toNat_ofNat, Nat.mod_eq_of_lt (by omega), Nat.mod_eq_of_lt (by decide)] at eq
      omega
    rw [hasSig, rawRw, beq_eq_false_iff_ne.mpr ne]
    rfl
  unfold shimRw convertRw
  rw [plain]
  cases op <;> rfl

lemma glibc_unlock (lt : sigReaders + (n + 1) < 2 ^ 28) :
    (rawRw (n + 1)).glibc .unlock = (some .ok, rawRw n) ∧
      (readersRw (n + 1)).glibc .unlock = (some .ok, readersRw n) := by
  have some : BitVec.ofNat 29 (sigReaders + n) ≠ 0 := raw_ne_zero (by omega)
  dsimp only [RwObj.glibc, rawRw, readersRw]
  rw [← Nat.add_assoc, ofNat_sub_one, ofNat_sub_one]
  constructor
  · rw [if_neg Bool.false_ne_true, if_neg some]
  · rw [if_neg Bool.false_ne_true]
    split
    next zero => rw [zero]; rfl
    next => rfl

lemma rw_iff (lt : sigReaders + n < 2 ^ 28) :
    run shimRw ops (rawRw n) = run RwObj.glibc ops (readersRw n) ↔ NotMisled n ops := by
  induction ops generalizing n with
  | nil => exact iff_of_true rfl trivial
  | cons op ops ih =>
    have reads : ∀ op, shimRw op (rawRw n) = (rawRw n).addReader → (readersRw n).glibc op = (readersRw n).addReader →
        (run shimRw (op :: ops) (rawRw n) = run RwObj.glibc (op :: ops) (readersRw n) ↔
          sigReaders + n + 1 < 2 ^ 28 ∧ NotMisled (n + 1) ops) := by
      intro op raw ref
      rw [addReader_raw lt] at raw
      rw [addReader_readers lt] at ref
      by_cases fits : sigReaders + n + 1 < 2 ^ 28
      · rw [if_pos fits] at raw
        rw [run_cons_eq_iff (by rw [raw]) (by rw [ref]), raw, ref, ih fits, and_iff_right fits]
      · rw [if_neg fits] at raw
        refine iff_of_false (run_cons_ne ?_) fun both => fits both.1
        rw [raw, ref]
        exact fun eq => Ret.noConfusion (Option.some.inj eq)
    -- the object is converted, and from here on the two are the same
    have converts : ∀ op, n = 0 → shimRw op (rawRw 0) = rwInit.glibc op →
        run shimRw (op :: ops) (rawRw n) = run RwObj.glibc (op :: ops) (readersRw n) := by
      rintro op rfl same
      refine run_cons_congr same ?_
      rw [same]
      exact runRw_converted (waiting_glibc rfl)
    cases op with
    | destroy =>
      have same : shimRw .destroy (rawRw n) = (some .ok, rawRw n) := ite_self _
      rw [run_cons_eq_iff (by rw [same]) rfl, same]
      exact ih lt
    | tryrdlock => exact reads _ rfl rfl
    | trywrlock =>
      have raw : shimRw .trywrlock (rawRw n) = (some .EBUSY, rawRw n) :=
        if_pos (by rw [Bool.or_eq_true]; exact .inr (decide_eq_true (raw_ne_zero lt)))
      cases n with
      | zero =>
        refine iff_of_false (run_cons_ne ?_) id
        rw [raw]
        exact fun eq => Ret.noConfusion (Option.some.inj eq)
      | succ n =>
        have ref : (readersRw (n + 1)).glibc .trywrlock = (some .EBUSY, readersRw (n + 1)) :=
          if_pos (by rw [Bool.or_eq_true]; exact .inr (decide_eq_true (ofNat_ne_zero n.succ_pos (by omega))))
        rw [run_cons_eq_iff (by rw [raw]) (by rw [ref]), raw, ref]
        exact ih lt
    | rdlock =>
      cases n with
      | zero => exact iff_of_true (converts _ rfl rfl) trivial
      | succ n => exact reads _ (shimRw_raw lt) rfl
    | wrlock =>
      cases n with
      | zero => exact iff_of_true (converts _ rfl rfl) trivial
      | succ n =>
        have waits : ∀ s : RwObj, s.readers ≠ 0 → s.writer = false → s.wrphase = false →
            (s.glibc .wrlock).1 = none := by
          intro s some own phase
          rw [RwObj.glibc, own, phase, decide_eq_false some, if_neg Bool.false_ne_true, Bool.or_false, Bool.not_false,
            Bool.or_true, if_pos rfl]
        refine iff_of_true (run_blocked ?_ (waits _ (ofNat_ne_zero n.succ_pos (by omega)) rfl rfl)) trivial
        rw [shimRw_raw lt]
        exact waits _ (raw_ne_zero lt) rfl rfl
    | unlock =>
      cases n with
      | zero => exact iff_of_true (converts _ rfl rfl) trivial
      | succ n =>
        obtain ⟨raw, ref⟩ := glibc_unlock lt
        rw [run_cons_eq_iff (by rw [shimRw_raw lt, raw]) (by rw [ref]), shimRw_raw lt, raw, ref]
        exact ih (by omega)

end RwLocks

/-- A mutex works just if it is not destroyed first, or nothing else is done to it; a read-write lock if no call
    takes the signature for readers. -/
theorem static_locks_iff (kind : MutexKind) (ops : List MutexOp) (rwOps : List RwOp) :
    (run shimMutex ops (macosMutex kind) = run MutexObj.glibc ops (mutexInit kind) ↔
      ops.head? ≠ some .destroy ∨ ∀ op ∈ ops, op = .destroy) ∧
    (run shimRw rwOps (rawRw 0) = run RwObj.glibc rwOps rwInit ↔ NotMisled 0 rwOps) :=
  ⟨mutex_iff, rw_iff (by decide)⟩

/-- `trywrlock` finds a lock busy that nobody has, and a mutex can be locked after it was destroyed. -/
theorem static_locks_misled :
    run shimRw [.trywrlock] (rawRw 0) = [some .EBUSY] ∧ run RwObj.glibc [.trywrlock] rwInit = [some .ok] ∧
      run shimMutex [.destroy, .lock] (macosMutex .normal) = [some .ok, some .ok] ∧
      run MutexObj.glibc [.destroy, .lock] (mutexInit .normal) = [some .ok, some .EINVAL] := by
  decide

end Macify.Threads.StaticLocks
