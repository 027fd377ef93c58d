import Macify.Lib.Bytes
import Macify.Lib.Interleaving
import Macify.Lib.SwapTable

/-!
# Streams and their processes

Threads that call `macify_popen` and `macify_pclose` (`shim/io/process.c`). `popen_table`, guarded by `popen_lock`, says
which process was forked for which stream; it grows by `realloc` and loses an entry by writing the last one into its
place. The address of a stream and the id of a process may be used again, so neither names anything on its own.

A process that has not been waited for is known to the table, or to the one thread that has forked it or taken it
from the table (`PopenRight`), so `pclose` waits for the process of its stream (`pclose_waits_for_own_process`).
-/

namespace Macify.Threads
open Lib

inductive StreamKind where
  | process (p : ℕ)
  | other
  deriving DecidableEq

/-- An open stream. `user` is the thread that is in `popen` or `pclose` with it. -/
structure Stream (ι : Type*) where
  kind : StreamKind
  user : Option ι

structure PcloseCall where
  stream : W64
  kind : StreamKind
  interrupts : ℕ
  deriving DecidableEq

inductive PopenEvent (ι : Type*) where
  | reaped (p : ℕ)
  | pclosed (t : ι) (x : PcloseCall) (waited : Option ℕ) (value : ℤ)
  deriving DecidableEq

/-- `table` is `popen_table` up to `popen_count`. `pids` have not been waited for. The last event comes first. -/
structure PopenState (ι : Type*) where
  table : List (W64 × ℤ)
  cap : ℕ
  lock : Option ι
  streams : W64 → Option (Stream ι)
  pids : ℕ → Option ℤ
  next : ℕ
  log : List (PopenEvent ι)

namespace PopenState

variable {ι : Type*} (s : PopenState ι)

def fork (pid : ℤ) : PopenState ι :=
  { s with pids := Function.update s.pids s.next (some pid), next := s.next + 1 }

def reap (p : ℕ) : PopenState ι := { s with pids := Function.update s.pids p none, log := .reaped p :: s.log }

def setStream (f : W64) (stream : Option (Stream ι)) : PopenState ι :=
  { s with streams := Function.update s.streams f stream }

def note (event : PopenEvent ι) : PopenState ι := { s with log := event :: s.log }

variable {s} {p : ℕ} {pid : ℤ} {f f' : W64} {stream : Option (Stream ι)}

@[simp] lemma fork_self : (s.fork pid).pids s.next = some pid := Function.update_self ..

@[simp] lemma fork_other (ne : p ≠ s.next) : (s.fork pid).pids p = s.pids p := Function.update_of_ne ne ..

@[simp] lemma reap_self : (s.reap p).pids p = none := Function.update_self ..

@[simp] lemma reap_other {q : ℕ} (ne : q ≠ p) : (s.reap p).pids q = s.pids q := Function.update_of_ne ne ..

@[simp] lemma setStream_self : (s.setStream f stream).streams f = stream := Function.update_self ..

@[simp] lemma setStream_other (ne : f' ≠ f) : (s.setStream f stream).streams f' = s.streams f' :=
  Function.update_of_ne ne ..

end PopenState

/-- What a thread does next: `popen` from `fork` to `discard`, `pclose` from `search` to `wait`. -/
inductive PopenPc where
  | idle
  | fork
  | fdopen (p : ℕ) (pid : ℤ)
  | kill (p : ℕ) (pid : ℤ)
  | enter (p : ℕ) (pid : ℤ) (f : W64)
  | grow (p : ℕ) (pid : ℤ) (f : W64)
  | store (p : ℕ) (pid : ℤ) (f : W64)
  | leave (p : ℕ) (f : W64)
  | opened (p : ℕ) (f : W64)
  | giveUp (p : ℕ) (pid : ℤ) (f : W64)
  | abandon (p : ℕ) (pid : ℤ) (f : W64)
  | discard (f : W64)
  | search (x : PcloseCall)
  | take (x : PcloseCall)
  | release (x : PcloseCall) (pid : ℤ)
  | close (x : PcloseCall) (pid : ℤ)
  | wait (x : PcloseCall) (pid : ℤ) (left : ℕ)

section Calls

variable {ι : Type*} (status : ℕ → Option ℤ)

/-- `status` has that of each process that ends by itself. A thread may also open and close other streams. -/
inductive popenCalls (t : ι) : PopenState ι → PopenPc → PopenState ι → PopenPc → Prop
  | noPipe {s} :
    popenCalls t s .idle s .idle
  | pipe {s} :
    popenCalls t s .idle s .fork
  | noProcess {s} :
    popenCalls t s .fork s .idle
  | fork {s : PopenState ι} {pid : ℤ} :
    0 < pid →
    (∀ p, s.pids p ≠ some pid) →
    popenCalls t s .fork (s.fork pid) (.fdopen s.next pid)
  | noStream {s p pid} :
    popenCalls t s (.fdopen p pid) s (.kill p pid)
  | fdopen {s : PopenState ι} {p pid f} :
    f ≠ 0 →
    s.streams f = none →
    popenCalls t s (.fdopen p pid) (s.setStream f (some ⟨.process p, some t⟩)) (.enter p pid f)
  | killed {s : PopenState ι} {p pid q} :
    s.pids q = some pid →
    popenCalls t s (.kill p pid) (s.reap q) .idle
  | killInterrupted {s p pid} :
    popenCalls t s (.kill p pid) s .idle
  | enter {s : PopenState ι} {p pid f} :
    s.lock = none →
    popenCalls t s (.enter p pid f) { s with lock := some t } (.grow p pid f)
  | hasRoom {s : PopenState ι} {p pid f} :
    s.table.length ≠ s.cap →
    popenCalls t s (.grow p pid f) s (.store p pid f)
  | grow {s : PopenState ι} {p pid f} :
    s.table.length = s.cap →
    popenCalls t s (.grow p pid f) { s with cap := if s.cap ≠ 0 then s.cap * 2 else 16 } (.store p pid f)
  | noMemory {s : PopenState ι} {p pid f} :
    s.table.length = s.cap →
    popenCalls t s (.grow p pid f) s (.giveUp p pid f)
  | store {s p pid f} :
    popenCalls t s (.store p pid f) { s with table := s.table ++ [(f, pid)] } (.leave p f)
  | leave {s p f} :
    popenCalls t s (.leave p f) { s with lock := none } (.opened p f)
  | opened {s p f} :
    popenCalls t s (.opened p f) (s.setStream f (some ⟨.process p, none⟩)) .idle
  | giveUp {s p pid f} :
    popenCalls t s (.giveUp p pid f) { s with lock := none } (.abandon p pid f)
  | abandoned {s : PopenState ι} {p pid f q} :
    s.pids q = some pid →
    popenCalls t s (.abandon p pid f) (s.reap q) (.discard f)
  | abandonInterrupted {s p pid f} :
    popenCalls t s (.abandon p pid f) s (.discard f)
  | discard {s f} :
    popenCalls t s (.discard f) (s.setStream f none) .idle
  | fopen {s : PopenState ι} {f} :
    f ≠ 0 →
    s.streams f = none →
    popenCalls t s .idle (s.setStream f (some ⟨.other, none⟩)) .idle
  | fclose {s : PopenState ι} {f} :
    s.streams f = some ⟨.other, none⟩ →
    popenCalls t s .idle (s.setStream f none) .idle
  | pclose {s : PopenState ι} {x : PcloseCall} :
    s.streams x.stream = some ⟨x.kind, none⟩ →
    popenCalls t s .idle (s.setStream x.stream (some ⟨x.kind, some t⟩)) (.search x)
  | search {s : PopenState ι} {x} :
    s.lock = none →
    popenCalls t s (.search x) { s with lock := some t } (.take x)
  | take {s x} :
    popenCalls t s (.take x) { s with table := (swapTake x.stream s.table).2 }
      (.release x ((swapTake x.stream s.table).1.getD (-1)))
  | release {s x pid} :
    popenCalls t s (.release x pid) { s with lock := none } (.close x pid)
  -- What `fclose` returns makes no difference.
  | notPopen {s : PopenState ι} {x : PcloseCall} {pid} :
    pid < 0 →
    popenCalls t s (.close x pid) ((s.setStream x.stream none).note (.pclosed t x none (-1))) .idle
  | close {s : PopenState ι} {x : PcloseCall} {pid} :
    ¬pid < 0 →
    popenCalls t s (.close x pid) (s.setStream x.stream none) (.wait x pid x.interrupts)
  | interrupted {s x pid left} :
    popenCalls t s (.wait x pid (left + 1)) s (.wait x pid left)
  | wait {s : PopenState ι} {x pid q value} :
    s.pids q = some pid →
    status q = some value →
    popenCalls t s (.wait x pid 0) ((s.reap q).note (.pclosed t x (some q) value)) .idle
  | noChild {s : PopenState ι} {x pid} {value : ℤ} :
    (∀ q, s.pids q ≠ some pid) →
    popenCalls t s (.wait x pid 0) (s.note (.pclosed t x none value)) .idle

def popenStart (files : W64 → Bool) : Config ι (PopenState ι) PopenPc where
  shared := ⟨[], 0, none, fun f => if files f then some ⟨.other, none⟩ else none, fun _ => none, 0, []⟩
  thread _ := .idle

/-- `pclose` waits for the process of its stream and returns its status; for another stream it returns -1. -/
def PopenEvent.Right : PopenEvent ι → Prop
  | .reaped _ => True
  | .pclosed _ x waited value =>
    match x.kind with
    | .process p => waited = some p ∧ status p = some value
    | .other => waited = none ∧ value = -1

end Calls

section Events

variable {ι : Type*} {status : ℕ → Option ℤ} {t : ι} {x : PcloseCall}

lemma PopenEvent.right_process {p : ℕ} {value : ℤ} (kind : x.kind = .process p) (ended : status p = some value) :
    PopenEvent.Right status (.pclosed t x (some p) value) := by
  rw [Right, kind]
  exact ⟨rfl, ended⟩

lemma PopenEvent.right_other (kind : x.kind = .other) : PopenEvent.Right status (.pclosed t x none (-1)) := by
  rw [Right, kind]
  exact ⟨rfl, rfl⟩

end Events

inductive Holder (ι : Type*) where
  | thread (t : ι)
  | table (f : W64)

structure PopenStage (ι : Type*) where
  state : PopenState ι
  holder : ℕ → Option (Holder ι)

namespace PopenStage

variable {ι : Type*} (g : PopenStage ι)

structure Held (t : ι) (p : ℕ) (pid : ℤ) : Prop where
  holder : g.holder p = some (.thread t)
  pid : g.state.pids p = some pid

def Owned (t : ι) (f : W64) (k : StreamKind) : Prop := g.state.streams f = some ⟨k, some t⟩

def Registered (f : W64) : Prop := ∃ pid, (f, pid) ∈ g.state.table

end PopenStage

section Invariant

variable {ι : Type*} [DecidableEq ι] (status : ℕ → Option ℤ)

structure PopenRight (g : PopenStage ι) : Prop where
  pid_pos {p pid} : g.state.pids p = some pid → 0 < pid
  pid_inj {p q pid} : g.state.pids p = some pid → g.state.pids q = some pid → p = q
  fresh {p} : g.state.next ≤ p → g.state.pids p = none
  keys : (g.state.table.map Prod.fst).Nodup
  room : g.state.table.length ≤ g.state.cap
  entry {f pid} : (f, pid) ∈ g.state.table →
    ∃ p u, g.holder p = some (.table f) ∧ g.state.pids p = some pid ∧ g.state.streams f = some ⟨.process p, u⟩
  usable {f p} : g.state.streams f = some ⟨.process p, none⟩ → g.Registered f
  once (p) : g.state.log.count (.reaped p) ≤ 1
  gone {p} : .reaped p ∈ g.state.log → p < g.state.next ∧ g.state.pids p = none
  right {e} : e ∈ g.state.log → e.Right status

structure PopenOthers (t : ι) (g g' : PopenStage ι) : Prop where
  held {u p pid} : u ≠ t → g.Held u p pid → g'.Held u p pid
  owned {u f k} : u ≠ t → g.Owned u f k → g'.Owned u f k
  entries {u f k pid} : u ≠ t → g.Owned u f k → ((f, pid) ∈ g'.state.table ↔ (f, pid) ∈ g.state.table)
  lock {u} : u ≠ t → (g'.state.lock = some u ↔ g.state.lock = some u)
  locked {u} : u ≠ t → g.state.lock = some u → g'.state.table = g.state.table ∧ g'.state.cap = g.state.cap

def PopenPc.locked : PopenPc → Bool
  | .grow .. | .store .. | .leave .. | .giveUp .. | .take _ | .release .. => true
  | _ => false

inductive Taken (g : PopenStage ι) (t : ι) : StreamKind → ℤ → Prop
  | process {p pid} :
    g.Held t p pid →
    Taken g t (.process p) pid
  | other :
    Taken g t .other (-1)

inductive PopenAt (g : PopenStage ι) (t : ι) : PopenPc → Prop
  | idle :
    PopenAt g t .idle
  | fork :
    PopenAt g t .fork
  | fdopen {p pid} :
    g.Held t p pid →
    PopenAt g t (.fdopen p pid)
  | kill {p pid} :
    g.Held t p pid →
    PopenAt g t (.kill p pid)
  | enter {p pid f} :
    g.Held t p pid →
    g.Owned t f (.process p) →
    PopenAt g t (.enter p pid f)
  | grow {p pid f} :
    g.Held t p pid →
    g.Owned t f (.process p) →
    PopenAt g t (.grow p pid f)
  | store {p pid f} :
    g.Held t p pid →
    g.Owned t f (.process p) →
    g.state.table.length < g.state.cap →
    PopenAt g t (.store p pid f)
  | leave {p f} :
    g.Owned t f (.process p) →
    g.Registered f →
    PopenAt g t (.leave p f)
  | opened {p f} :
    g.Owned t f (.process p) →
    g.Registered f →
    PopenAt g t (.opened p f)
  | giveUp {p pid f} :
    g.Held t p pid →
    g.Owned t f (.process p) →
    PopenAt g t (.giveUp p pid f)
  | abandon {p pid f} :
    g.Held t p pid →
    g.Owned t f (.process p) →
    PopenAt g t (.abandon p pid f)
  | discard {k f} :
    g.Owned t f k →
    ¬g.Registered f →
    PopenAt g t (.discard f)
  | search {x} :
    g.Owned t x.stream x.kind →
    (∀ p, x.kind = .process p → g.Registered x.stream) →
    PopenAt g t (.search x)
  | take {x} :
    g.Owned t x.stream x.kind →
    (∀ p, x.kind = .process p → g.Registered x.stream) →
    PopenAt g t (.take x)
  | release {x pid} :
    g.Owned t x.stream x.kind →
    ¬g.Registered x.stream →
    Taken g t x.kind pid →
    PopenAt g t (.release x pid)
  | close {x pid} :
    g.Owned t x.stream x.kind →
    ¬g.Registered x.stream →
    Taken g t x.kind pid →
    PopenAt g t (.close x pid)
  | wait {x pid p left} :
    g.Held t p pid →
    x.kind = .process p →
    PopenAt g t (.wait x pid left)

structure PopenPlace (g : PopenStage ι) (t : ι) (pc : PopenPc) : Prop where
  lock : g.state.lock = some t ↔ pc.locked = true
  place : PopenAt g t pc

structure PopenMove (t : ι) (g g' : PopenStage ι) : Prop where
  others : PopenOthers t g g'
  right : PopenRight status g'

end Invariant

section Moves

variable {ι : Type*} {t u : ι} {s : PopenState ι} {h : ℕ → Option (Holder ι)} {g g' g'' : PopenStage ι}
  {f : W64} {k : StreamKind} {p : ℕ} {pid : ℤ} {pc pc' : PopenPc}

lemma PopenStage.Held.ne_of_ne {q : ℕ} {pid' : ℤ} (held : g.Held t p pid) (other : g.Held u q pid') (ne : u ≠ t) :
    q ≠ p := by
  rintro rfl
  cases held.holder.symm.trans other.holder
  exact ne rfl

lemma PopenStage.Held.ne_of_table {q : ℕ} (held : g.Held t p pid) (holder : g.holder q = some (.table f)) : q ≠ p := by
  rintro rfl
  cases held.holder.symm.trans holder

lemma PopenStage.Owned.only (owned : g.Owned t f k) : ∀ k' u, g.state.streams f = some ⟨k', some u⟩ → u = t := by
  intro k' u here
  cases owned.symm.trans here
  rfl

lemma PopenOthers.of_eq (table : g'.state.table = g.state.table) (cap : g'.state.cap = g.state.cap)
    (lock : g'.state.lock = g.state.lock) (held : ∀ u ≠ t, ∀ p pid, g.Held u p pid → g'.Held u p pid)
    (owned : ∀ u ≠ t, ∀ f k, g.Owned u f k → g'.Owned u f k) : PopenOthers t g g' where
  held ne := held _ ne _ _
  owned ne := owned _ ne _ _
  entries _ _ := by rw [table]
  lock _ := by rw [lock]
  locked _ _ := ⟨table, cap⟩

lemma PopenOthers.refl : PopenOthers t g g := .of_eq rfl rfl rfl (fun _ _ _ _ => id) fun _ _ _ _ => id

lemma PopenOthers.trans (first : PopenOthers t g g') (second : PopenOthers t g' g'') : PopenOthers t g g'' where
  held ne held := second.held ne (first.held ne held)
  owned ne owned := second.owned ne (first.owned ne owned)
  entries ne owned := (second.entries ne (first.owned ne owned)).trans (first.entries ne owned)
  lock ne := (second.lock ne).trans (first.lock ne)
  locked ne locked := by
    obtain ⟨table, cap⟩ := first.locked ne locked
    obtain ⟨table', cap'⟩ := second.locked ne ((first.lock ne).mpr locked)
    exact ⟨table'.trans table, cap'.trans cap⟩

lemma PopenOthers.registered (others : PopenOthers t g g') (ne : u ≠ t) (owned : g.Owned u f k) :
    g'.Registered f ↔ g.Registered f := exists_congr fun _ => others.entries ne owned

lemma Taken.keep (taken : Taken g u k pid) (others : PopenOthers t g g') (ne : u ≠ t) : Taken g' u k pid := by
  cases taken with
  | process held => exact .process (others.held ne held)
  | other => exact .other

lemma Taken.held (taken : Taken g t k pid) (natural : ¬pid < 0) : ∃ p, k = .process p ∧ g.Held t p pid := by
  cases taken with
  | process held => exact ⟨_, rfl, held⟩
  | other => exact absurd (by decide) natural

lemma Taken.of_pids {s' : PopenState ι} (taken : Taken ⟨s, h⟩ t k pid) (same : s'.pids = s.pids) :
    Taken ⟨s', h⟩ t k pid := by
  cases taken with
  | process held => exact .process ⟨held.holder, (congrFun same _).trans held.pid⟩
  | other => exact .other

lemma PopenPlace.other (here : PopenPlace g u pc) (others : PopenOthers t g g') (ne : u ≠ t) : PopenPlace g' u pc where
  lock := (others.lock ne).trans here.lock
  place := by
    have lock := here.lock
    cases here.place with
    | idle => exact .idle
    | fork => exact .fork
    | fdopen held => exact .fdopen (others.held ne held)
    | kill held => exact .kill (others.held ne held)
    | enter held owned => exact .enter (others.held ne held) (others.owned ne owned)
    | grow held owned => exact .grow (others.held ne held) (others.owned ne owned)
    | store held owned room =>
      obtain ⟨table, cap⟩ := others.locked ne (lock.mpr rfl)
      refine .store (others.held ne held) (others.owned ne owned) ?_
      rw [table, cap]
      exact room
    | leave owned known => exact .leave (others.owned ne owned) ((others.registered ne owned).mpr known)
    | opened owned known => exact .opened (others.owned ne owned) ((others.registered ne owned).mpr known)
    | giveUp held owned => exact .giveUp (others.held ne held) (others.owned ne owned)
    | abandon held owned => exact .abandon (others.held ne held) (others.owned ne owned)
    | discard owned unknown =>
      exact .discard (others.owned ne owned) fun known => unknown ((others.registered ne owned).mp known)
    | search owned known =>
      exact .search (others.owned ne owned) fun p kind => (others.registered ne owned).mpr (known p kind)
    | take owned known =>
      exact .take (others.owned ne owned) fun p kind => (others.registered ne owned).mpr (known p kind)
    | release owned unknown taken =>
      exact .release (others.owned ne owned) (fun known => unknown ((others.registered ne owned).mp known))
        (taken.keep others ne)
    | close owned unknown taken =>
      exact .close (others.owned ne owned) (fun known => unknown ((others.registered ne owned).mp known))
        (taken.keep others ne)
    | wait held kind => exact .wait (others.held ne held) kind

variable [DecidableEq ι] {status : ℕ → Option ℤ}

lemma PopenRight.refl_move (right : PopenRight status g) : PopenMove status t g g := ⟨.refl, right⟩

lemma PopenRight.not_registered_of_other (right : PopenRight status g) {w : Option ι}
    (stream : g.state.streams f = some ⟨.other, w⟩) : ¬g.Registered f := by
  rintro ⟨pid, mem⟩
  obtain ⟨p, u, -, -, stream'⟩ := right.entry mem
  cases stream.symm.trans stream'

lemma PopenRight.not_registered_of_held (right : PopenRight status g) (held : g.Held t p pid)
    (owned : g.Owned u f (.process p)) : ¬g.Registered f := by
  rintro ⟨pid', mem⟩
  obtain ⟨q, w, holder, -, stream⟩ := right.entry mem
  cases owned.symm.trans stream
  cases held.holder.symm.trans holder

lemma PopenRight.other_of_taken (right : PopenRight status g) (taken : Taken g t k pid) (negative : pid < 0) :
    k = .other := by
  cases taken with
  | process held => exact absurd negative (right.pid_pos held.pid).asymm
  | other => rfl

section

variable (right : PopenRight status ⟨s, h⟩)
include right

lemma PopenRight.fork (pos : 0 < pid) (unused : ∀ p, s.pids p ≠ some pid) :
    PopenMove status t ⟨s, h⟩ ⟨s.fork pid, Function.update h s.next (some (.thread t))⟩ := by
  have old {p pid} (here : s.pids p = some pid) : p ≠ s.next := by
    rintro rfl
    cases here.symm.trans (right.fresh (le_refl _))
  have new {p pid'} (here : (s.fork pid).pids p = some pid') :
      p = s.next ∧ pid' = pid ∨ s.pids p = some pid' := by
    by_cases eq : p = s.next
    · subst eq
      cases PopenState.fork_self.symm.trans here
      exact .inl ⟨rfl, rfl⟩
    · exact .inr ((PopenState.fork_other eq).symm.trans here)
  constructor
  · refine .of_eq rfl rfl rfl ?_ ?_
    · intro u _ p pid' held
      exact ⟨(Function.update_of_ne (old held.pid) _ _).trans held.holder,
        (PopenState.fork_other (old held.pid)).trans held.pid⟩
    · intro _ _ _ _ owned
      exact owned
  · exact
      { pid_pos := by
          intro p pid' here
          rcases new here with ⟨-, rfl⟩ | here
          · exact pos
          · exact right.pid_pos here
        pid_inj := by
          intro p q pid' here there
          rcases new here with ⟨rfl, rfl⟩ | here <;> rcases new there with ⟨rfl, eq⟩ | there
          · rfl
          · exact absurd there (unused q)
          · exact absurd (eq ▸ here) (unused p)
          · exact right.pid_inj here there
        fresh := by
          intro p le
          exact (PopenState.fork_other (Nat.ne_of_gt le)).trans (right.fresh (Nat.le_of_succ_le le))
        keys := right.keys
        room := right.room
        entry := by
          intro f pid' mem
          obtain ⟨p, u, holder, here, stream⟩ := right.entry mem
          exact ⟨p, u, (Function.update_of_ne (old here) _ _).trans holder,
            (PopenState.fork_other (old here)).trans here, stream⟩
        usable := right.usable
        once := right.once
        gone := by
          intro p mem
          obtain ⟨lt, none⟩ := right.gone mem
          exact ⟨Nat.lt_succ_of_lt lt, (PopenState.fork_other (Nat.ne_of_lt lt)).trans none⟩
        right := right.right }

lemma PopenRight.setStream (stream : Option (Stream ι)) (free : ∀ k u, s.streams f = some ⟨k, some u⟩ → u = t)
    (entry : ∀ pid, (f, pid) ∈ s.table → ∀ p u, s.streams f = some ⟨.process p, u⟩ →
      ∃ u', stream = some ⟨.process p, u'⟩)
    (usable : ∀ p, stream = some ⟨.process p, none⟩ → PopenStage.Registered ⟨s, h⟩ f) :
    PopenMove status t ⟨s, h⟩ ⟨s.setStream f stream, h⟩ := by
  constructor
  · refine .of_eq rfl rfl rfl ?_ ?_
    · intro _ _ _ _ held
      exact ⟨held.holder, held.pid⟩
    · intro u ne f' k owned
      have other : f' ≠ f := by
        rintro rfl
        exact ne (free k u owned)
      exact (PopenState.setStream_other other).trans owned
  · exact
      { right with
        entry := by
          intro f' pid mem
          obtain ⟨p, u, holder, here, before⟩ := right.entry mem
          by_cases eq : f' = f
          · subst eq
            obtain ⟨u', after⟩ := entry pid mem p u before
            exact ⟨p, u', holder, here, PopenState.setStream_self.trans after⟩
          · exact ⟨p, u, holder, here, (PopenState.setStream_other eq).trans before⟩
        usable := by
          intro f' p after
          by_cases eq : f' = f
          · subst eq
            exact usable p (PopenState.setStream_self.symm.trans after)
          · exact right.usable ((PopenState.setStream_other eq).symm.trans after) }

lemma PopenRight.openStream (unused : s.streams f = none) {stream : Stream ι}
    (kind : ∀ p, stream ≠ ⟨.process p, none⟩) : PopenMove status t ⟨s, h⟩ ⟨s.setStream f (some stream), h⟩ := by
  apply right.setStream
  · intro k u here
    cases unused.symm.trans here
  · intro pid _ p u here
    cases unused.symm.trans here
  · intro p eq
    exact absurd (Option.some.inj eq) (kind p)

lemma PopenRight.closeStream (free : ∀ k u, s.streams f = some ⟨k, some u⟩ → u = t)
    (unknown : ¬PopenStage.Registered ⟨s, h⟩ f) : PopenMove status t ⟨s, h⟩ ⟨s.setStream f none, h⟩ := by
  apply right.setStream _ free
  · intro pid mem
    exact absurd ⟨pid, mem⟩ unknown
  · intro p eq
    cases eq

lemma PopenRight.passStream {u u' : Option ι} (stream : s.streams f = some ⟨k, u⟩)
    (own : ∀ v, u = some v → v = t) (usable : ∀ p, k = .process p → PopenStage.Registered ⟨s, h⟩ f) :
    PopenMove status t ⟨s, h⟩ ⟨s.setStream f (some ⟨k, u'⟩), h⟩ := by
  apply right.setStream
  · intro k' v here
    cases stream.symm.trans here
    exact own v rfl
  · intro pid _ p v here
    cases stream.symm.trans here
    exact ⟨u', rfl⟩
  · intro p eq
    cases eq
    exact usable p rfl

lemma PopenRight.reap (held : PopenStage.Held ⟨s, h⟩ t p pid) : PopenMove status t ⟨s, h⟩ ⟨s.reap p, h⟩ := by
  have old {q pid'} (here : (s.reap p).pids q = some pid') : s.pids q = some pid' := by
    by_cases eq : q = p
    · subst eq
      cases PopenState.reap_self.symm.trans here
    · exact (PopenState.reap_other eq).symm.trans here
  have unreaped : .reaped p ∉ s.log := by
    intro mem
    cases held.pid.symm.trans (right.gone mem).2
  have lt : p < s.next := by
    by_contra le
    cases held.pid.symm.trans (right.fresh (Nat.le_of_not_lt le))
  constructor
  · refine .of_eq rfl rfl rfl ?_ ?_
    · intro u ne q pid' held'
      exact ⟨held'.holder, (PopenState.reap_other (held.ne_of_ne held' ne)).trans held'.pid⟩
    · intro _ _ _ _ owned
      exact owned
  · exact
      { pid_pos := fun here => right.pid_pos (old here)
        pid_inj := fun here there => right.pid_inj (old here) (old there)
        fresh := by
          intro q le
          exact (PopenState.reap_other (lt.trans_le le).ne').trans (right.fresh le)
        keys := right.keys
        room := right.room
        entry := by
          intro f pid' mem
          obtain ⟨q, u, holder, here, stream⟩ := right.entry mem
          exact ⟨q, u, holder, (PopenState.reap_other (held.ne_of_table holder)).trans here, stream⟩
        usable := right.usable
        once := by
          intro q
          show (PopenEvent.reaped p :: s.log).count (.reaped q) ≤ 1
          by_cases eq : p = q
          · subst eq
            rw [List.count_cons_self, List.count_eq_zero_of_not_mem unreaped]
          · rw [List.count_cons_of_ne fun same => eq (PopenEvent.reaped.inj same)]
            exact right.once q
        gone := by
          intro q mem
          rcases List.mem_cons.mp mem with eq | mem
          · cases eq
            exact ⟨lt, PopenState.reap_self⟩
          · obtain ⟨lt, none⟩ := right.gone mem
            refine ⟨lt, ?_⟩
            by_cases eq : q = p
            · subst eq
              exact PopenState.reap_self
            · exact (PopenState.reap_other eq).trans none
        right := by
          intro e mem
          rcases List.mem_cons.mp mem with rfl | mem
          · trivial
          · exact right.right mem }

lemma PopenRight.note {x : PcloseCall} {waited : Option ℕ} {value : ℤ}
    (good : PopenEvent.Right status (.pclosed t x waited value)) :
    PopenMove status t ⟨s, h⟩ ⟨s.note (.pclosed t x waited value), h⟩ := by
  constructor
  · exact .of_eq rfl rfl rfl (fun _ _ _ _ held => ⟨held.holder, held.pid⟩) fun _ _ _ _ => id
  · exact
      { right with
        once := by
          intro p
          show (PopenEvent.pclosed t x waited value :: s.log).count (.reaped p) ≤ 1
          have other : PopenEvent.pclosed t x waited value ≠ .reaped p := nofun
          rw [List.count_cons_of_ne other]
          exact right.once p
        gone := by
          intro p mem
          rcases List.mem_cons.mp mem with eq | mem
          · cases eq
          · exact right.gone mem
        right := by
          intro e mem
          rcases List.mem_cons.mp mem with rfl | mem
          · exact good
          · exact right.right mem }

lemma PopenRight.setLock (lock : Option ι) (own : ∀ u ≠ t, lock ≠ some u ∧ s.lock ≠ some u) :
    PopenMove status t ⟨s, h⟩ ⟨{ s with lock := lock }, h⟩ := by
  constructor
  · exact
      { held := fun _ held => ⟨held.holder, held.pid⟩
        owned := fun _ owned => owned
        entries := fun _ _ => .rfl
        lock := fun ne => iff_of_false (own _ ne).1 (own _ ne).2
        locked := fun _ _ => ⟨rfl, rfl⟩ }
  · exact { right with }

lemma PopenRight.enter (free : s.lock = none) : PopenMove status t ⟨s, h⟩ ⟨{ s with lock := some t }, h⟩ := by
  apply right.setLock
  intro u ne
  rw [free]
  exact ⟨fun eq => ne (Option.some.inj eq).symm, nofun⟩

lemma PopenRight.leave (mine : s.lock = some t) : PopenMove status t ⟨s, h⟩ ⟨{ s with lock := none }, h⟩ := by
  apply right.setLock
  intro u ne
  rw [mine]
  exact ⟨nofun, fun eq => ne (Option.some.inj eq).symm⟩

lemma PopenRight.grow (mine : s.lock = some t) {cap : ℕ}
    (le : s.table.length ≤ cap) : PopenMove status t ⟨s, h⟩ ⟨{ s with cap := cap }, h⟩ := by
  constructor
  · exact
      { held := fun _ held => ⟨held.holder, held.pid⟩
        owned := fun _ owned => owned
        entries := fun _ _ => .rfl
        lock := fun _ => .rfl
        locked := fun ne locked => absurd (Option.some.inj (locked.symm.trans mine)) ne }
  · exact { right with room := le }

lemma PopenRight.store (mine : s.lock = some t)
    (held : PopenStage.Held ⟨s, h⟩ t p pid) (owned : PopenStage.Owned ⟨s, h⟩ t f (.process p))
    (room : s.table.length < s.cap) :
    PopenMove status t ⟨s, h⟩ ⟨{ s with table := s.table ++ [(f, pid)] }, Function.update h p (some (.table f))⟩ := by
  have unknown := right.not_registered_of_held held owned
  constructor
  · exact
      { held := by
          intro u q pid' ne held'
          exact ⟨(Function.update_of_ne (held.ne_of_ne held' ne) _ _).trans held'.holder, held'.pid⟩
        owned := fun _ owned => owned
        entries := by
          intro u f' k pid' ne owned'
          have other : f' ≠ f := by
            rintro rfl
            cases owned.symm.trans owned'
            exact ne rfl
          rw [List.mem_append, List.mem_singleton]
          exact or_iff_left fun eq => other (congrArg Prod.fst eq)
        lock := fun _ => .rfl
        locked := fun ne locked => absurd (Option.some.inj (locked.symm.trans mine)) ne }
  · exact
      { right with
        keys := nodup_keys_append right.keys fun pid' mem => unknown ⟨pid', mem⟩
        room := by
          rw [List.length_append, List.length_singleton]
          exact room
        entry := by
          intro f' pid' mem
          rcases List.mem_append.mp mem with mem | mem
          · obtain ⟨q, u, holder, here, stream⟩ := right.entry mem
            exact ⟨q, u, (Function.update_of_ne (held.ne_of_table holder) _ _).trans holder, here, stream⟩
          · cases List.mem_singleton.mp mem
            exact ⟨p, some t, Function.update_self .., held.pid, owned⟩
        usable := by
          intro f' q stream
          obtain ⟨pid', mem⟩ := right.usable stream
          exact ⟨pid', List.mem_append_left _ mem⟩ }

lemma PopenRight.take (mine : s.lock = some t)
    (owned : PopenStage.Owned ⟨s, h⟩ t f (.process p)) (known : PopenStage.Registered ⟨s, h⟩ f) :
    ∃ pid, (swapTake f s.table).1 = some pid ∧
      PopenStage.Held ⟨{ s with table := (swapTake f s.table).2 }, Function.update h p (some (.thread t))⟩ t p pid ∧
      (∀ pid', (f, pid') ∉ (swapTake f s.table).2) ∧
      PopenMove status t ⟨s, h⟩
        ⟨{ s with table := (swapTake f s.table).2 }, Function.update h p (some (.thread t))⟩ := by
  obtain ⟨pid, mem⟩ := known
  obtain ⟨q, u, holder, here, stream⟩ := right.entry mem
  cases owned.symm.trans stream
  have unknown pid' : (f, pid') ∉ (swapTake f s.table).2 := not_mem_swapTake right.keys mem
  have others {f' pid'} (ne : f' ≠ f) : (f', pid') ∈ (swapTake f s.table).2 ↔ (f', pid') ∈ s.table :=
    mem_swapTake_of_ne right.keys mem ne
  refine ⟨pid, (swapTake_of_mem right.keys mem).1, ⟨Function.update_self .., here⟩, unknown, ?_, ?_⟩
  · exact
      { held := by
          intro u q pid' ne held
          have other : q ≠ p := by
            rintro rfl
            cases holder.symm.trans held.holder
          exact ⟨(Function.update_of_ne other _ _).trans held.holder, held.pid⟩
        owned := fun _ owned => owned
        entries := by
          intro u f' k pid' ne owned'
          apply others
          rintro rfl
          cases owned.symm.trans owned'
          exact ne rfl
        lock := fun _ => .rfl
        locked := fun ne locked => absurd (Option.some.inj (locked.symm.trans mine)) ne }
  · exact
      { right with
        keys := (swapTake_keys right.keys mem).2
        room := (length_swapTake_le right.keys mem).trans right.room
        entry := by
          intro f' pid' mem'
          have ne : f' ≠ f := by
            rintro rfl
            exact unknown pid' mem'
          obtain ⟨q, u, holder', here', stream'⟩ := right.entry ((others ne).mp mem')
          have other : q ≠ p := by
            rintro rfl
            cases holder.symm.trans holder'
            exact ne rfl
          exact ⟨q, u, (Function.update_of_ne other _ _).trans holder', here', stream'⟩
        usable := by
          intro f' q stream'
          have ne : f' ≠ f := by
            rintro rfl
            cases owned.symm.trans stream'
          obtain ⟨pid', mem'⟩ := right.usable stream'
          exact ⟨pid', (others ne).mpr mem'⟩ }

lemma PopenRight.pclose_take (mine : s.lock = some t)
    (owned : PopenStage.Owned ⟨s, h⟩ t f k) (known : ∀ p, k = .process p → PopenStage.Registered ⟨s, h⟩ f) :
    ∃ h', PopenMove status t ⟨s, h⟩ ⟨{ s with table := (swapTake f s.table).2 }, h'⟩ ∧
      (∀ pid, (f, pid) ∉ (swapTake f s.table).2) ∧
      Taken ⟨{ s with table := (swapTake f s.table).2 }, h'⟩ t k ((swapTake f s.table).1.getD (-1)) := by
  cases k with
  | process p =>
    obtain ⟨pid, found, held, unknown, move⟩ := right.take mine owned (known p rfl)
    refine ⟨_, move, unknown, ?_⟩
    rw [found]
    exact .process held
  | other =>
    have unknown := right.not_registered_of_other owned
    have same : swapTake f s.table = (none, s.table) := by
      apply swapTake_of_forall
      rintro ⟨_, pid⟩ mem rfl
      exact unknown ⟨pid, mem⟩
    rw [same]
    exact ⟨h, right.refl_move, fun pid mem => unknown ⟨pid, mem⟩, .other⟩

lemma PopenRight.same_process (held : PopenStage.Held ⟨s, h⟩ t p pid) {q : ℕ}
    (child : s.pids q = some pid) : q = p := right.pid_inj child held.pid

lemma popenCalls_next {s' : PopenState ι} (here : PopenPlace ⟨s, h⟩ t pc) (step : popenCalls status t s pc s' pc') :
    ∃ h', PopenMove status t ⟨s, h⟩ ⟨s', h'⟩ ∧ PopenPlace ⟨s', h'⟩ t pc' := by
  obtain ⟨lock, place⟩ := here
  cases step with
  | noPipe => exact ⟨h, right.refl_move, lock, .idle⟩
  | pipe => exact ⟨h, right.refl_move, lock, .fork⟩
  | noProcess => exact ⟨h, right.refl_move, lock, .idle⟩
  | fork pos unused =>
    exact ⟨_, right.fork pos unused, lock, .fdopen ⟨Function.update_self .., PopenState.fork_self⟩⟩
  | noStream =>
    cases place with
    | fdopen held => exact ⟨h, right.refl_move, lock, .kill held⟩
  | fdopen _ unused =>
    cases place with
    | fdopen held =>
      refine ⟨h, right.openStream unused (fun _ => nofun), lock, .enter ⟨held.holder, held.pid⟩ ?_⟩
      exact PopenState.setStream_self
  | killed child =>
    cases place with
    | kill held =>
      cases right.same_process held child
      exact ⟨h, right.reap held, lock, .idle⟩
  | killInterrupted => exact ⟨h, right.refl_move, lock, .idle⟩
  | enter free =>
    cases place with
    | enter held owned =>
      exact ⟨h, right.enter free, ⟨fun _ => rfl, fun _ => rfl⟩, .grow ⟨held.holder, held.pid⟩ owned⟩
  | hasRoom ne =>
    cases place with
    | grow held owned => exact ⟨h, right.refl_move, lock, .store held owned (lt_of_le_of_ne right.room ne)⟩
  | grow full =>
    cases place with
    | grow held owned =>
      have room : s.table.length < if s.cap ≠ 0 then s.cap * 2 else 16 := by
        rw [full]
        split <;> omega
      exact ⟨h, right.grow (lock.mpr rfl) room.le, lock, .store ⟨held.holder, held.pid⟩ owned room⟩
  | noMemory _ =>
    cases place with
    | grow held owned => exact ⟨h, right.refl_move, lock, .giveUp held owned⟩
  | @store p pid f =>
    cases place with
    | store held owned room =>
      have known : (f, pid) ∈ s.table ++ [(f, pid)] := List.mem_append_right _ (List.mem_singleton_self _)
      exact ⟨_, right.store (lock.mpr rfl) held owned room, lock, .leave owned ⟨_, known⟩⟩
  | leave =>
    cases place with
    | leave owned known => exact ⟨h, right.leave (lock.mpr rfl), ⟨nofun, nofun⟩, .opened owned known⟩
  | opened =>
    cases place with
    | opened owned known =>
      refine ⟨h, right.passStream owned ?_ fun _ _ => known, lock, .idle⟩
      intro v eq
      exact (Option.some.inj eq).symm
  | giveUp =>
    cases place with
    | giveUp held owned =>
      exact ⟨h, right.leave (lock.mpr rfl), ⟨nofun, nofun⟩, .abandon ⟨held.holder, held.pid⟩ owned⟩
  | abandoned child =>
    cases place with
    | abandon held owned =>
      cases right.same_process held child
      exact ⟨h, right.reap held, lock, .discard owned (right.not_registered_of_held held owned)⟩
  | abandonInterrupted =>
    cases place with
    | abandon held owned =>
      exact ⟨h, right.refl_move, lock, .discard owned (right.not_registered_of_held held owned)⟩
  | discard =>
    cases place with
    | discard owned unknown => exact ⟨h, right.closeStream owned.only unknown, lock, .idle⟩
  | fopen _ unused => exact ⟨h, right.openStream unused (fun _ => nofun), lock, .idle⟩
  | fclose stream =>
    refine ⟨h, right.closeStream ?_ (right.not_registered_of_other stream), lock, .idle⟩
    intro k u here
    cases stream.symm.trans here
  | @pclose x stream =>
    have known : ∀ p, x.kind = .process p → PopenStage.Registered ⟨s, h⟩ x.stream := by
      intro p kind
      rw [kind] at stream
      exact right.usable stream
    exact ⟨h, right.passStream stream nofun known, lock, .search PopenState.setStream_self known⟩
  | search free =>
    cases place with
    | search owned known => exact ⟨h, right.enter free, ⟨fun _ => rfl, fun _ => rfl⟩, .take owned known⟩
  | take =>
    cases place with
    | take owned known =>
      obtain ⟨h', move, unknown, taken⟩ := right.pclose_take (lock.mpr rfl) owned known
      exact ⟨h', move, lock, .release owned (fun known => unknown _ known.choose_spec) taken⟩
  | release =>
    cases place with
    | release owned unknown taken =>
      exact ⟨h, right.leave (lock.mpr rfl), ⟨nofun, nofun⟩, .close owned unknown (taken.of_pids rfl)⟩
  | notPopen negative =>
    cases place with
    | close owned unknown taken =>
      have closed := right.closeStream owned.only unknown
      have noted := closed.right.note (t := t) (PopenEvent.right_other (right.other_of_taken taken negative))
      exact ⟨h, ⟨closed.others.trans noted.others, noted.right⟩, lock, .idle⟩
  | close natural =>
    cases place with
    | close owned unknown taken =>
      obtain ⟨p, kind, held⟩ := taken.held natural
      exact ⟨h, right.closeStream owned.only unknown, lock, .wait ⟨held.holder, held.pid⟩ kind⟩
  | interrupted =>
    cases place with
    | wait held kind => exact ⟨h, right.refl_move, lock, .wait held kind⟩
  | wait child ended =>
    cases place with
    | wait held kind =>
      cases right.same_process held child
      have reaped := right.reap held
      have noted := reaped.right.note (t := t) (PopenEvent.right_process kind ended)
      exact ⟨h, ⟨reaped.others.trans noted.others, noted.right⟩, lock, .idle⟩
  | noChild none =>
    cases place with
    | wait held kind => exact absurd held.pid (none _)

end

lemma popen_keeps :
    Program.Keeps (popenCalls status) (fun g s => s = g.state ∧ PopenRight status g) PopenPlace
      (PopenOthers (ι := ι)) where
  own := by
    rintro ⟨s, h⟩ t _ pc s' pc' ⟨rfl, right⟩ here step
    obtain ⟨h', move, there⟩ := popenCalls_next right here step
    exact ⟨⟨s', h'⟩, move.others, ⟨rfl, move.right⟩, there⟩
  other others ne here := here.other others ne

end Moves

section Steps

variable {ι : Type*} {status : ℕ → Option ℤ} {t : ι} {s s' : PopenState ι} {pc pc' : PopenPc} {x : PcloseCall}

/-- How many steps a thread that has the lock is from leaving it. -/
def PopenPc.lockRank : PopenPc → ℕ
  | .grow .. => 2
  | .store .. | .take _ => 1
  | _ => 0

lemma locked_can_step (locked : pc.locked = true) : ∃ s' pc', popenCalls status t s pc s' pc' := by
  cases pc with
  | grow p pid f =>
    by_cases full : s.table.length = s.cap
    · exact ⟨_, _, .grow full⟩
    · exact ⟨_, _, .hasRoom full⟩
  | store => exact ⟨_, _, .store⟩
  | leave => exact ⟨_, _, .leave⟩
  | giveUp => exact ⟨_, _, .giveUp⟩
  | take => exact ⟨_, _, .take⟩
  | release => exact ⟨_, _, .release⟩
  | _ => cases locked

lemma locked_step (locked : pc.locked = true) (step : popenCalls status t s pc s' pc') :
    s'.lock = none ∨ s'.lock = s.lock ∧ pc'.lockRank < pc.lockRank := by
  cases step with
  | hasRoom | grow => exact .inr ⟨rfl, Nat.lt_succ_self 1⟩
  | noMemory => exact .inr ⟨rfl, Nat.zero_lt_two⟩
  | store | take => exact .inr ⟨rfl, Nat.zero_lt_one⟩
  | leave | giveUp | release => exact .inl rfl
  | _ => cases locked

inductive Closing (x : PcloseCall) : PopenPc → Prop
  | take :
    Closing x (.take x)
  | release {pid} :
    Closing x (.release x pid)
  | close {pid} :
    Closing x (.close x pid)
  | wait {pid left} :
    Closing x (.wait x pid left)

def PopenPc.closeRank : PopenPc → ℕ
  | .take x => x.interrupts + 4
  | .release x _ => x.interrupts + 3
  | .close x _ => x.interrupts + 2
  | .wait _ _ left => left + 1
  | _ => 0

def PcloseReturned (t : ι) (x : PcloseCall) (s : PopenState ι) (pc : PopenPc) : Prop :=
  pc = .idle ∧ ∃ waited value, s.log.head? = some (.pclosed t x waited value)

lemma closing_step (closing : Closing x pc) (step : popenCalls status t s pc s' pc') :
    PcloseReturned t x s' pc' ∨ Closing x pc' ∧ pc'.closeRank < pc.closeRank := by
  cases closing with
  | take =>
    cases step with
    | take => exact .inr ⟨.release, Nat.lt_succ_self _⟩
  | release =>
    cases step with
    | release => exact .inr ⟨.close, Nat.lt_succ_self _⟩
  | close =>
    cases step with
    | notPopen => exact .inl ⟨rfl, _, _, rfl⟩
    | close => exact .inr ⟨.wait, Nat.lt_succ_self _⟩
  | wait =>
    cases step with
    | interrupted => exact .inr ⟨.wait, Nat.lt_succ_self _⟩
    | wait | noChild => exact .inl ⟨rfl, _, _, rfl⟩

lemma closing_can_step {h : ℕ → Option (Holder ι)} (place : PopenAt ⟨s, h⟩ t pc) (closing : Closing x pc)
    (ends : ∀ p, x.kind = .process p → status p ≠ none) : ∃ s' pc', popenCalls status t s pc s' pc' := by
  cases closing with
  | take => exact ⟨_, _, .take⟩
  | release => exact ⟨_, _, .release⟩
  | @close pid =>
    by_cases negative : pid < 0
    · exact ⟨_, _, .notPopen negative⟩
    · exact ⟨_, _, .close negative⟩
  | @wait pid left =>
    cases left with
    | succ left => exact ⟨_, _, .interrupted⟩
    | zero =>
      cases place with
      | wait held kind =>
        obtain ⟨value, ended⟩ := Option.ne_none_iff_exists'.mp (ends _ kind)
        exact ⟨_, _, .wait held.pid ended⟩

lemma search_step (step : popenCalls status t s (.search x) s' pc') : Closing x pc' := by
  cases step with
  | search => exact .take

end Steps

section Runs

variable {ι : Type*} [DecidableEq ι] {status : ℕ → Option ℤ} {files : W64 → Bool}
  {c c' : Config ι (PopenState ι) PopenPc} {t u : ι}

structure PopenHolds (status : ℕ → Option ℤ) (c : Config ι (PopenState ι) PopenPc) (h : ℕ → Option (Holder ι)) :
    Prop where
  right : PopenRight status ⟨c.shared, h⟩
  place t : PopenPlace ⟨c.shared, h⟩ t (c.thread t)

lemma popenStart_right : PopenRight status ⟨(popenStart (ι := ι) files).shared, fun _ => none⟩ where
  pid_pos := nofun
  pid_inj := nofun
  fresh _ := rfl
  keys := List.nodup_nil
  room := le_refl 0
  entry := nofun
  usable {f p} stream := by
    rw [popenStart] at stream
    dsimp only at stream
    split at stream
    · cases stream
    · cases stream
  once _ := Nat.zero_le 1
  gone := nofun
  right := nofun

lemma popen_holds (reaches : Program.Reaches (popenCalls status) (popenStart files) c) :
    ∃ h, PopenHolds status c h := by
  have start : Program.Holds (fun g s => s = g.state ∧ PopenRight status g) PopenPlace
      ⟨(popenStart (ι := ι) files).shared, fun _ => none⟩ (popenStart files) :=
    ⟨⟨rfl, popenStart_right⟩, fun _ => ⟨⟨nofun, nofun⟩, .idle⟩⟩
  obtain ⟨⟨s, h⟩, ⟨rfl, right⟩, place⟩ := Program.holds_of_reaches popen_keeps start reaches
  exact ⟨h, right, place⟩

lemma lock_of_other (reaches : Program.Reaches (popenCalls status) (popenStart files) c)
    (step : Program.Step (popenCalls status) c u c') (ne : t ≠ u) :
    c'.shared.lock = some t ↔ c.shared.lock = some t := by
  obtain ⟨h, right, place⟩ := popen_holds reaches
  obtain ⟨h', move, -⟩ := popenCalls_next right (place u) step.own
  exact move.others.lock ne

section Fairness

variable {run : ℕ → Config ι (PopenState ι) PopenPc} {x : PcloseCall}
  (isRun : Program.Run (popenCalls status) run) (start : run 0 = popenStart files)
include isRun start

lemma popen_run_holds (n : ℕ) : ∃ h, PopenHolds status (run n) h := by
  have reaches := isRun.reaches n
  rw [start] at reaches
  exact popen_holds reaches

lemma lock_released (fair : Program.Fair (popenCalls status) run) (u : ι) :
    LeadsTo run (fun c => c.shared.lock = some u) fun c => c.shared.lock = none := by
  have locked n (mine : (run n).shared.lock = some u) : ((run n).thread u).locked = true := by
    obtain ⟨h, holds⟩ := popen_run_holds isRun start n
    exact (holds.place u).lock.mp mine
  apply isRun.progress fair u PopenPc.lockRank
  · intro n mine
    obtain ⟨s', pc', step⟩ := locked_can_step (locked n mine)
    exact Program.canStep_of step
  · intro n mine step
    rcases locked_step (locked n mine) step.own with free | ⟨same, less⟩
    · exact .inl free
    · exact .inr ⟨same.trans mine, less⟩
  · intro n v ne mine step
    have reaches := isRun.reaches n
    rw [start] at reaches
    exact .inl ((lock_of_other reaches step ne.symm).mpr mine)

lemma search_locks (fair : Program.StrongFair (popenCalls status) run) (t : ι) (x : PcloseCall) :
    LeadsTo run (fun c => c.thread t = .search x) fun c => Closing x (c.thread t) := by
  apply isRun.ensures_strong (t := t) ?_ ?_ fair ?_
  · intro n here step
    have own := step.own
    rw [here] at own
    exact search_step own
  · intro n u ne here step
    exact .inl ((step.other ne.symm).trans here)
  · intro n always
    have can m (ge : n ≤ m) (free : (run m).shared.lock = none) : Program.CanStep (popenCalls status) (run m) t := by
      apply Program.canStep_of
      rw [always m ge]
      exact .search free
    cases lock : (run n).shared.lock with
    | none => exact ⟨n, le_refl n, can n (le_refl n) lock⟩
    | some u =>
      obtain ⟨m, ge, free⟩ := lock_released isRun start fair.fair u n lock
      exact ⟨m, ge, can m ge free⟩

lemma closing_returns (fair : Program.Fair (popenCalls status) run) (t : ι)
    (ends : ∀ p, x.kind = .process p → status p ≠ none) :
    LeadsTo run (fun c => Closing x (c.thread t)) fun c => PcloseReturned t x c.shared (c.thread t) := by
  apply isRun.progress fair t PopenPc.closeRank
  · intro n closing
    obtain ⟨h, holds⟩ := popen_run_holds isRun start n
    obtain ⟨s', pc', step⟩ := closing_can_step (holds.place t).place closing ends
    exact Program.canStep_of step
  · intro n closing step
    exact closing_step closing step.own
  · intro n u ne closing step
    rw [step.other ne.symm]
    exact .inl closing

end Fairness

end Runs

section Alone

variable {ι : Type*} [DecidableEq ι] {status : ℕ → Option ℤ} {c c' : Config ι (PopenState ι) PopenPc} {t : ι}
  {s : PopenState ι} {x : PcloseCall} {f : W64} {p : ℕ} {pid value : ℤ}

lemma popen_alone (reaches : Program.Reaches (popenCalls status) c (c'.put t s .idle)) (free : s.lock = none)
    (pos : 0 < pid) (unused : ∀ p, s.pids p ≠ some pid) (ne : f ≠ 0) (closed : s.streams f = none) :
    ∃ s', Program.Reaches (popenCalls status) c (c'.put t s' .idle) ∧ s'.lock = none ∧
      s'.table = s.table ++ [(f, pid)] ∧ s'.streams f = some ⟨.process s.next, none⟩ ∧ s'.pids s.next = some pid ∧
      s'.log = s.log := by
  have forked := (reaches.again .pipe).again (.fork pos unused)
  have entered := (forked.again (.fdopen ne closed)).again (.enter free)
  have room : ∃ cap, Program.Reaches (popenCalls status) c (c'.put t
      { (s.fork pid).setStream f (some ⟨.process s.next, some t⟩) with lock := some t, cap := cap }
      (.store s.next pid f)) := by
    by_cases full : s.table.length = s.cap
    · exact ⟨_, entered.again (.grow full)⟩
    · exact ⟨s.cap, entered.again (.hasRoom full)⟩
  obtain ⟨cap, room⟩ := room
  have opened := ((room.again .store).again .leave).again .opened
  exact ⟨_, opened, rfl, rfl, PopenState.setStream_self, PopenState.fork_self, rfl⟩

lemma waits_out {left : ℕ} (reaches : Program.Reaches (popenCalls status) c (c'.put t s (.wait x pid left))) :
    Program.Reaches (popenCalls status) c (c'.put t s (.wait x pid 0)) := by
  induction left with
  | zero => exact reaches
  | succ left ih => exact ih (reaches.again .interrupted)

variable (status) in
lemma pclose_alone (reaches : Program.Reaches (popenCalls status) c (c'.put t s (.search x))) (free : s.lock = none)
    (found : (swapTake x.stream s.table).1 = some pid) (pos : 0 < pid) (child : s.pids p = some pid)
    (ended : status p = some value) :
    ∃ s', Program.Reaches (popenCalls status) c (c'.put t s' .idle) ∧
      s'.log = .pclosed t x (some p) value :: .reaped p :: s.log := by
  have taken := ((reaches.again (.search free)).again .take).again .release
  rw [found] at taken
  have waiting := waits_out (taken.again (.close pos.asymm))
  exact ⟨_, waiting.again (.wait child ended), rfl⟩

end Alone

def firstPclose : PcloseCall := ⟨0x1000, .process 0, 1⟩

/-- One thread opens a stream, and another one closes it. -/
lemma popen_then_pclose :
    ∃ c c' : Config Bool (PopenState Bool) PopenPc,
      Program.Reaches (popenCalls fun _ => some 256) (popenStart fun _ => false) c ∧
      c.thread true = .search firstPclose ∧ Program.Reaches (popenCalls fun _ => some 256) c c' ∧
      (∀ t, c'.thread t = .idle) ∧ c'.shared.log = [.pclosed true firstPclose (some 0) 256, .reaped 0] := by
  have start : Program.Reaches (popenCalls fun _ => some 256) (popenStart fun _ => false) _ :=
    .step .refl (.noPipe (t := false))
  obtain ⟨s, opened, free, table, stream, child, log⟩ :=
    popen_alone start rfl (show (0 : ℤ) < 42 by decide) (fun _ => nofun) (show (0x1000 : W64) ≠ 0 by decide) rfl
  have called := opened.step (t := true) (.pclose (x := firstPclose) stream)
  have found : (swapTake firstPclose.stream s.table).1 = some 42 := by
    rw [table]
    rfl
  obtain ⟨s', returned, log'⟩ := pclose_alone (s := s.setStream firstPclose.stream (some ⟨firstPclose.kind, some true⟩))
    (fun _ => some 256) .refl free found (by decide) child rfl
  refine ⟨_, _, called, Config.put_self, returned, fun t => ?_, log'.trans (congrArg _ (congrArg _ log))⟩
  cases t <;> rfl

lemma idle_loops {ι : Type*} [DecidableEq ι] {status : ℕ → Option ℤ} {c : Config ι (PopenState ι) PopenPc} {t : ι}
    (idle : c.thread t = .idle) : Program.Step (popenCalls status) c t c := by
  have moves : popenCalls status t c.shared (c.thread t) c.shared (c.thread t) := by
    rw [idle]
    exact .noPipe
  have step := Program.Step.intro (c := c) moves
  rw [Config.put_same] at step
  exact step

/-- Each call of `pclose` waits for the process of its stream and returns its status, or -1 for another stream;
    no process is waited for twice. A call returns if the process ends. -/
theorem pclose_waits_for_own_process {ι : Type*} [DecidableEq ι] (status : ℕ → Option ℤ) (files : W64 → Bool) :
    (∀ c, Program.Reaches (popenCalls status) (popenStart (ι := ι) files) c →
      (∀ e ∈ c.shared.log, e.Right status) ∧ ∀ p, c.shared.log.count (.reaped p) ≤ 1) ∧
    ∀ run, Program.Run (popenCalls status) run → run 0 = popenStart (ι := ι) files →
      Program.StrongFair (popenCalls status) run → ∀ t x, (∀ p, x.kind = .process p → status p ≠ none) →
        LeadsTo run (fun c => c.thread t = .search x) fun c => PcloseReturned t x c.shared (c.thread t) := by
  constructor
  · intro c reaches
    obtain ⟨h, right, -⟩ := popen_holds reaches
    exact ⟨fun e mem => right.right mem, right.once⟩
  · intro run isRun start fair t x ends
    exact (search_locks isRun start fair t x).trans (closing_returns isRun start fair.fair t ends)

theorem pclose_returns_status :
    (∃ c, Program.Reaches (popenCalls fun _ => some 256) (popenStart (ι := Bool) fun _ => false) c ∧
      c.shared.log = [.pclosed true firstPclose (some 0) 256, .reaped 0] ∧
      ∀ e ∈ c.shared.log, e.Right fun _ => some 256) ∧
    ∃ run, Program.Run (popenCalls fun _ => some 256) run ∧ run 0 = popenStart (ι := Bool) (fun _ => false) ∧
      Program.StrongFair (popenCalls fun _ => some 256) run ∧
      ∃ n, (run n).thread true = .search firstPclose ∧
        ∃ m ≥ n, PcloseReturned true firstPclose (run m).shared ((run m).thread true) := by
  obtain ⟨c, c', called, searching, returned, idle, log⟩ := popen_then_pclose
  have whole := pclose_waits_for_own_process (ι := Bool) (fun _ => some 256) fun _ => false
  refine ⟨⟨c', called.trans returned, log, (whole.1 c' (called.trans returned)).1⟩, ?_⟩
  obtain ⟨rest, isRest, rfl, k, ends⟩ := Program.exists_run returned
  obtain ⟨run, isRun, start, n, after⟩ := isRest.prepend called
  have fair : Program.StrongFair (popenCalls fun _ => some 256) run := by
    refine Program.strongFair_of_loop (c := c') (n := n + k) (fun t => idle_loops (idle t)) fun m ge => ?_
    obtain ⟨j, rfl⟩ := Nat.exists_eq_add_of_le ge
    rw [Nat.add_assoc, after]
    exact ends _ (Nat.le_add_right k j)
  have here : (run n).thread true = .search firstPclose := by
    rw [← Nat.add_zero n, after]
    exact searching
  have status : ∀ p, firstPclose.kind = .process p → (some 256 : Option ℤ) ≠ none := fun _ _ => nofun
  exact ⟨run, isRun, start, fair, n, here, whole.2 run isRun start fair true firstPclose status n here⟩

end Macify.Threads
