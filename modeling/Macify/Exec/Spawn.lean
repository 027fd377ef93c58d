import Macify.Lib.Descriptors
import Macify.Exec.Vectors
import Macify.Shim.Flags

/-!
# Spawned processes

`posix_spawn` takes a list of recorded file actions and an environment. A Mach-O file is started by `fork` and
`execve` of the loader, and any other file by glibc, to which the actions are handed on one by one; glibc drops those
with a descriptor that is out of range. Main result: `posix_spawn_honoured_iff`.
-/

namespace Macify.Exec.Spawn
open Lib Lib.FileAction Image Paths Exec.Vectors

structure SpawnAction where
  type : ℕ
  fd : ℤ := 0
  newfd : ℤ := 0
  oflag : W32 := 0
  mode : ℕ := 0
  path : Option Buf := none

abbrev FileActions := List SpawnAction

section Recording

variable (fa : FileActions)

def macifyPosixSpawnFileActionsAdddup2 (fd newfd : ℤ) : FileActions :=
  fa ++ [{ type := 1, fd := fd, newfd := newfd }]

def macifyPosixSpawnFileActionsAddclose (fd : ℤ) : FileActions := fa ++ [{ type := 0, fd := fd }]

def macifyPosixSpawnFileActionsAddopen (fd : ℤ) (path : Buf) (oflag : W32) (mode : ℕ) : FileActions :=
  fa ++ [{ type := 2, fd := fd, oflag := oflag, mode := mode, path := some path }]

def macifyPosixSpawnFileActionsAddchdirNp (path : Buf) : FileActions :=
  fa ++ [{ type := 3, path := some path }]

def macifyPosixSpawnFileActionsAddfchdirNp (fd : ℤ) : FileActions := fa ++ [{ type := 4, fd := fd }]

def record : FileAction → FileActions
  | addclose fd => macifyPosixSpawnFileActionsAddclose fa fd
  | adddup2 fd newfd => macifyPosixSpawnFileActionsAdddup2 fa fd newfd
  | addopen fd path oflag mode => macifyPosixSpawnFileActionsAddopen fa fd path oflag mode
  | addchdir path => macifyPosixSpawnFileActionsAddchdirNp fa path
  | addfchdir fd => macifyPosixSpawnFileActionsAddfchdirNp fa fd

end Recording

def recorded (actions : List FileAction) : FileActions := actions.foldl record []

def linuxAction (act : SpawnAction) : Option FileAction :=
  match act.type, act.path with
  | 0, _ => some (addclose act.fd)
  | 1, _ => some (adddup2 act.fd act.newfd)
  | 2, some path => some (addopen act.fd path act.oflag act.mode)
  | _, _ => none

def linuxFa (openMax : ℕ) (fa : FileActions) : List FileAction :=
  (fa.filterMap linuxAction).filter (inRange openMax)

def setenv (name value : Buf) : List Buf → List Buf
  | [] => [name ++ value]
  | entry :: environ =>
    if name.isPrefixOf entry then (name ++ value) :: environ else entry :: setenv name value environ

def isSet (name : Buf) (environ : List Buf) : Bool := environ.any name.isPrefixOf

def forkedEnviron (root macifyBin : Buf) (environ : List Buf) : List Buf :=
  let libpath := (directoryOf macifyBin).getD (snprintf PATH_MAX macifyBin)
  let environ :=
    if isSet Variable.LD_LIBRARY_PATH.name environ then environ
    else setenv Variable.LD_LIBRARY_PATH.name libpath environ
  let environ := setenv (ascii "MACIFY_BINARY=") macifyBin environ
  if isSet Variable.MACIFY_PREFIX.name environ then environ
  else setenv Variable.MACIFY_PREFIX.name root environ

inductive Spawned
  | nothing
  | forked (macifyBin : Buf) (argv : Cells Buf) (environ : List Buf)
  | spawned (path : Buf) (fa : List FileAction) (argv envp : Option (List Buf))

/-- What the process that calls `posix_spawn` has. `alloc` says whether the array for the arguments is allocated. -/
structure Caller where
  host : Host
  alloc : Bool
  pathEnv : Option Buf
  environ : List Buf
  openMax : ℕ

def Caller.effPath (c : Caller) (usePath : Bool) (path : Buf) : Buf :=
  if usePath then (resolveInPrefixPath c.host c.pathEnv path).getD path
  else kernelPath c.host.env path PATH_MAX

def Caller.loader (c : Caller) (effPath : Buf) : Option Buf :=
  if isMachoBinary c.host effPath && c.alloc then c.host.macifyBinary else none

def doPosixSpawn (c : Caller) (path : Option Buf) (fileActions : Option FileActions)
    (argv envp : Option (List Buf)) (usePath : Bool) : Spawned :=
  match path with
  | none => .nothing
  | some path =>
    let effPath := c.effPath usePath path
    match c.loader effPath with
    | some macifyBin =>
      .forked macifyBin (buildMacifyArgv effPath argv) (forkedEnviron c.host.env.macifyRoot macifyBin c.environ)
    | none => .spawned effPath (linuxFa c.openMax (fileActions.getD [])) argv envp

section Child

variable {Dir File Disk : Type*}

def Spawned.child (openMax : ℕ) (k : Kernel Dir File Disk) (p : Process Dir File Disk) :
    Spawned → Option (Process Dir File Disk × List Buf)
  | .nothing => none
  | .forked _ _ environ => some (p.exec, environ)
  | .spawned _ fa _ envp => (performAll openMax k p fa).map fun q => (q.exec, envp.getD [])

def translated (env : PathEnv) : FileAction → FileAction
  | addopen fd path oflag mode =>
    addopen fd (kernelPath env path PATH_MAX) (Shim.translateOpenFlags oflag) mode
  | addchdir path => addchdir (kernelPath env path PATH_MAX)
  | a => a

/-- The child, if there is one, has the descriptors, the working directory and the environment that it was to have. -/
def Honours (c : Caller) (k : Kernel Dir File Disk) (p : Process Dir File Disk) (actions : List FileAction)
    (envp : Option (List Buf)) (s : Spawned) : Prop :=
  ∀ child environ, s.child c.openMax k p = some (child, environ) →
    (∃ q, performAll c.openMax k p (actions.map (translated c.host.env)) = some q ∧
      child.fds = q.exec.fds ∧ child.cwd = q.cwd) ∧
    ∀ entry ∈ envp.getD [], entry ∈ environ

end Child

structure Same (c : Caller) (a : FileAction) : Prop where
  stays : a.stays = true
  range : a.inRange c.openMax = true
  fixed : translated c.host.env a = a

def Hopeless (c : Caller) (actions : List FileAction) : Prop :=
  ∀ (Dir File Disk : Type) (k : Kernel Dir File Disk) (p : Process Dir File Disk),
    performAll c.openMax k p (linuxFa c.openMax (recorded actions)) = none

/-- No actions, and an environment that the process has. For glibc each action is the guest's, or they are hopeless. -/
def Honourable (c : Caller) (actions : List FileAction) (envp : Option (List Buf)) : Option Buf → Prop
  | some macifyBin =>
    actions = [] ∧ ∀ entry ∈ envp.getD [], entry ∈ forkedEnviron c.host.env.macifyRoot macifyBin c.environ
  | none => (∀ a ∈ actions, Same c a) ∨ Hopeless c actions

def recordedAction : FileAction → SpawnAction
  | addclose fd => { type := 0, fd := fd }
  | adddup2 fd newfd => { type := 1, fd := fd, newfd := newfd }
  | addopen fd path oflag mode => { type := 2, fd := fd, oflag := oflag, mode := mode, path := some path }
  | addchdir path => { type := 3, path := some path }
  | addfchdir fd => { type := 4, fd := fd }

section Handing

variable {c : Caller} {a : FileAction} {actions : List FileAction} {openMax : ℕ} {env : PathEnv}
  {call : Buf × W32}

lemma record_eq {fa : FileActions} (a : FileAction) : record fa a = fa ++ [recordedAction a] := by
  cases a <;> rfl

lemma recorded_eq : recorded actions = actions.map recordedAction := by
  have loop : ∀ fa, actions.foldl record fa = fa ++ actions.map recordedAction := by
    induction actions with
    | nil => exact fun fa => (List.append_nil fa).symm
    | cons a actions ih =>
      intro fa
      rw [List.foldl_cons, ih, record_eq, List.append_assoc]
      rfl
  exact loop []

lemma linuxAction_recorded (a : FileAction) : linuxAction (recordedAction a) = if a.stays then some a else none := by
  cases a <;> rfl

def handed (openMax : ℕ) (a : FileAction) : Bool := a.stays && a.inRange openMax

lemma linuxFa_eq : linuxFa openMax (recorded actions) = actions.filter (handed openMax) := by
  rw [recorded_eq, linuxFa, List.filterMap_map]
  induction actions with
  | nil => rfl
  | cons a actions ih =>
    rw [List.filterMap_cons, Function.comp_apply, linuxAction_recorded, List.filter_cons, handed]
    cases stays : a.stays with
    | false => exact ih
    | true => simp only [if_true, Bool.true_and, List.filter_cons, ih]

lemma Same.handed (same : Same c a) : handed c.openMax a = true :=
  Bool.and_eq_true_iff.mpr ⟨same.stays, same.range⟩

lemma filter_of_same (same : ∀ a ∈ actions, Same c a) : actions.filter (handed c.openMax) = actions :=
  List.filter_eq_self.mpr fun a mem => (same a mem).handed

lemma map_of_same (same : ∀ a ∈ actions, Same c a) : actions.map (translated c.host.env) = actions :=
  (List.map_congr_left fun a mem => (same a mem).fixed).trans (List.map_id actions)

lemma inRange_translated : (translated env a).inRange openMax = a.inRange openMax := by
  cases a <;> rfl

lemma addopen_of_changed (stays : a.stays = true) (changed : translated env a ≠ a) :
    ∃ fd path oflag mode, a = addopen fd path oflag mode := by
  cases a with
  | addopen fd path oflag mode => exact ⟨fd, path, oflag, mode, rfl⟩
  | addclose | adddup2 => exact absurd rfl changed
  | addchdir | addfchdir => cases stays

lemma stays_translated : (translated env a).stays = a.stays := by
  cases a <;> rfl

lemma opened_translated (meant : opened (translated env a) = some call) :
    a.stays = true ∧ ∃ raw, opened a = some raw := by
  cases a with
  | addopen fd path oflag mode => exact ⟨rfl, _, rfl⟩
  | _ => cases meant

lemma fixed_of_opened (raw : opened a = some call)
    (meant : opened (translated env a) = some call) : translated env a = a := by
  cases a with
  | addopen fd path oflag mode =>
    rw [← raw, translated, opened, opened, Option.some.injEq, Prod.mk.injEq] at meant
    rw [translated, meant.1, meant.2]
  | _ => cases raw

end Handing

section Wrong

variable {c : Caller} {a : FileAction} {actions before after : List FileAction} {envp : Option (List Buf)}
  {call : Buf × W32}

def allOpen (cloexec : Bool) : Process Unit Unit ℕ := ⟨fun _ => some ⟨(), cloexec⟩, (), 0⟩

lemma nil_of_forked {macifyBin : Buf} {argv' : Cells Buf} {environ : List Buf}
    (honours : ∀ (k : Kernel Unit Unit ℕ) (p : Process Unit Unit ℕ),
      Honours c k p actions envp (.forked macifyBin argv' environ)) : actions = [] := by
  rcases List.eq_nil_or_concat actions with empty | ⟨before, a, rfl⟩
  · exact empty
  exfalso
  have result : ∀ cloexec, ∃ q r, perform c.openMax (fussy fun _ _ => true) q (translated c.host.env a) = some r ∧
      r.exec.fds = (allOpen cloexec).exec.fds := by
    intro cloexec
    obtain ⟨⟨r, done, fds, -⟩, -⟩ := honours (fussy fun _ _ => true) (allOpen cloexec) _ _ rfl
    rw [List.concat_eq_append, List.map_append, List.map_singleton, performAll_concat] at done
    obtain ⟨q, -, last⟩ := Option.bind_eq_some_iff.mp done
    exact ⟨q, r, last, fds.symm⟩
  cases a with
  | addclose fd =>
    obtain ⟨q, r, last, fds⟩ := result false
    have closed := congrFun fds fd
    rw [Process.exec_fds, fds_of_addclose last] at closed
    cases closed
  | adddup2 fd newfd =>
    obtain ⟨q, r, last, fds⟩ := result true
    obtain ⟨file, is⟩ := fds_of_adddup2 last
    have opened := congrFun fds newfd
    rw [Process.exec_fds, is] at opened
    cases opened
  | addopen fd path oflag mode =>
    obtain ⟨q, r, last, -⟩ := result true
    have accepted := (fussy_inv last).2.1 _ rfl
    cases accepted
  | addchdir path | addfchdir fd =>
    obtain ⟨q, r, last, -⟩ := result true
    have stays := (fussy_inv last).1
    cases stays

/-- The one call that is refused: the open of `a` as the guest means it, after those of `before`. -/
def refusal (c : Caller) (before : List FileAction) (a : FileAction) (n : ℕ) (call : Buf × W32) : Bool :=
  decide (n = (before.filterMap opened).length) && a.inRange c.openMax &&
    decide (opened (translated c.host.env a) = some call)

lemma refusal_iff {n : ℕ} :
    refusal c before a n call = true ↔
      n = (before.filterMap opened).length ∧ a.inRange c.openMax = true ∧
        opened (translated c.host.env a) = some call := by
  rw [refusal, Bool.and_eq_true, Bool.and_eq_true, decide_eq_true_eq, decide_eq_true_eq, and_assoc]

lemma refusal_handed (same : ∀ b ∈ before, Same c b) (differs : ¬ Same c a) {i : ℕ}
    (is : (((before ++ a :: after).filter (handed c.openMax)).filterMap opened)[i]? = some call) :
    refusal c before a i call = false := by
  refine Bool.eq_false_iff.mpr fun refused => ?_
  obtain ⟨place, range, meant⟩ := refusal_iff.mp refused
  obtain ⟨stays, raw, opens⟩ := opened_translated meant
  have goes : handed c.openMax a = true := Bool.and_eq_true_iff.mpr ⟨stays, range⟩
  rw [List.filter_append, filter_of_same same, List.filter_cons_of_pos goes, List.filterMap_append,
    List.getElem?_append_right place.ge, place, Nat.sub_self, List.filterMap_cons_some opens] at is
  cases is
  exact differs ⟨stays, range, fixed_of_opened opens meant⟩

lemma refusal_meant (same : ∀ b ∈ before, Same c b) (differs : ¬ Same c a) :
    performAll c.openMax (fussy (refusal c before a)) (allOpen false)
      ((before ++ a :: after).map (translated c.host.env)) = none := by
  refine Option.eq_none_iff_forall_ne_some.mpr fun r wanted => ?_
  rw [List.map_append, map_of_same same, performAll_append] at wanted
  obtain ⟨q₁, first, rest⟩ := Option.bind_eq_some_iff.mp wanted
  rw [List.map_cons, performAll_cons] at rest
  obtain ⟨q₂, last, -⟩ := Option.bind_eq_some_iff.mp rest
  obtain ⟨stays, granted, -⟩ := fussy_inv last
  have range := inRange_of_perform last
  rw [stays_translated] at stays
  rw [inRange_translated] at range
  obtain ⟨fd, name, oflag, mode, rfl⟩ := addopen_of_changed stays fun fixed => differs ⟨stays, range, fixed⟩
  have refused := refusal_iff.mpr ⟨(performAll_disk first).trans (Nat.zero_add _), range, rfl⟩
  exact Bool.false_ne_true ((granted _ rfl).symm.trans refused)

/-- The first action that is not the same can be refused when it is made for the guest, and only then. -/
lemma same_or_hopeless {path : Buf} {argv : Option (List Buf)}
    (honours : ∀ (k : Kernel Unit Unit ℕ) (p : Process Unit Unit ℕ),
      Honours c k p actions envp (.spawned path (linuxFa c.openMax (recorded actions)) argv envp)) :
    (∀ a ∈ actions, Same c a) ∨ Hopeless c actions := by
  by_contra neither
  obtain ⟨differ, hope⟩ := not_or.mp neither
  obtain ⟨before, a, after, rfl, same, differs⟩ := exists_first_not differ
  rw [Hopeless] at hope
  push Not at hope
  obtain ⟨Dir, File, Disk, k, p, possible⟩ := hope
  obtain ⟨p', done⟩ := Option.ne_none_iff_exists'.mp possible
  rw [linuxFa_eq] at honours done
  have accepted : ∀ i call, (((before ++ a :: after).filter (handed c.openMax)).filterMap opened)[i]? = some call →
      refusal c before a ((allOpen false).disk + i) call = false := by
    intro i call is
    rw [show (allOpen false).disk + i = i from Nat.zero_add i]
    exact refusal_handed same differs is
  obtain ⟨q, child⟩ := performAll_fussy done
    (fun b mem => (Bool.and_eq_true_iff.mp (List.mem_filter.mp mem).2).1) (fun n _ => rfl) accepted
  obtain ⟨⟨r, wanted, -⟩, -⟩ := honours (fussy (refusal c before a)) (allOpen false) q.exec (envp.getD []) (by
    rw [Spawned.child, child]
    rfl)
  rw [refusal_meant same differs] at wanted
  cases wanted

end Wrong

/-- A child starts with what it was given just if what `do_posix_spawn` leaves out or passes on makes no difference. -/
theorem posix_spawn_honoured_iff (c : Caller) (path : Buf) (usePath : Bool) (actions : List FileAction)
    (argv envp : Option (List Buf)) :
    (∀ (Dir File Disk : Type) (k : Kernel Dir File Disk) (p : Process Dir File Disk),
        Honours c k p actions envp (doPosixSpawn c (some path) (some (recorded actions)) argv envp usePath)) ↔
      Honourable c actions envp (c.loader (c.effPath usePath path)) := by
  rw [doPosixSpawn]
  cases c.loader (c.effPath usePath path) with
  | some macifyBin =>
    constructor
    · intro honours
      refine ⟨nil_of_forked fun k p => honours Unit Unit ℕ k p, ?_⟩
      exact (honours Unit Unit ℕ (fussy fun _ _ => true) (allOpen true) _ _ rfl).2
    · rintro ⟨rfl, environ⟩ Dir File Disk k p child _ starts
      cases starts
      exact ⟨⟨p, rfl, rfl, rfl⟩, environ⟩
  | none =>
    constructor
    · exact fun honours => same_or_hopeless fun k p => honours Unit Unit ℕ k p
    · rintro (same | hopeless) Dir File Disk k p child environ starts
      · obtain ⟨q, done, is⟩ := Option.map_eq_some_iff.mp starts
        rw [Option.getD_some, linuxFa_eq, filter_of_same same] at done
        cases is
        exact ⟨⟨q, by rw [map_of_same same, done], rfl, rfl⟩, fun entry mem => mem⟩
      · rw [Spawned.child, Option.getD_some, hopeless] at starts
        cases starts

def smallCaller : Caller := ⟨smallHost (ascii "#!/b"), true, none, [ascii "HOME=/"], 256⟩

def openKernel : Kernel Buf (Buf × W32) Unit where
  openFile _ _ path oflag _ := some (⟨(path, oflag), false⟩, ())
  lookup _ _ path := some path
  dirOf file := some file.1

def pipeProcess : Process Buf (Buf × W32) Unit :=
  ⟨fun n => if n = 5 then some ⟨(ascii "pipe", 1), false⟩ else none, ascii "/", ()⟩

def SmallHonours (path : Buf) (actions : List FileAction) (envp : List Buf) : Prop :=
  Honours smallCaller openKernel pipeProcess actions (some envp)
    (doPosixSpawn smallCaller (some path) (some (recorded actions)) none (some envp) false)

section Small

variable {actions : List FileAction} {envp : List Buf}

lemma smallHonours_macho :
    SmallHonours (ascii "/b") actions envp ↔
      Honours smallCaller openKernel pipeProcess actions (some envp)
        (.forked (ascii "/macify") (buildMacifyArgv (ascii "/p/b") none)
          (forkedEnviron (ascii "/p") (ascii "/macify") [ascii "HOME=/"])) := by
  have loader : smallCaller.loader (smallCaller.effPath false (ascii "/b")) = some (ascii "/macify") := by decide
  have inPrefix : smallCaller.effPath false (ascii "/b") = ascii "/p/b" := by decide
  rw [SmallHonours, doPosixSpawn, loader, inPrefix]
  rfl

lemma smallHonours_script :
    SmallHonours (ascii "/s") actions envp ↔
      Honours smallCaller openKernel pipeProcess actions (some envp)
        (.spawned (ascii "/p/s") (linuxFa 256 (recorded actions)) none (some envp)) := by
  have loader : smallCaller.loader (smallCaller.effPath false (ascii "/s")) = none := by decide
  have inPrefix : smallCaller.effPath false (ascii "/s") = ascii "/p/s" := by decide
  rw [SmallHonours, doPosixSpawn, loader, inPrefix]
  rfl

end Small

/-- A Mach-O file's output is not redirected and its environment is another; a script's directory and flags are
    wrong. -/
theorem posix_spawn_ignores :
    ¬ SmallHonours (ascii "/b") [adddup2 5 1] [] ∧ ¬ SmallHonours (ascii "/b") [] [ascii "A=1"] ∧
      ¬ SmallHonours (ascii "/s") [addchdir (ascii "/d")] [] ∧
      ¬ SmallHonours (ascii "/s") [addopen 1 (ascii "/o") 0x201 0] [] := by
  rw [smallHonours_macho, smallHonours_macho, smallHonours_script, smallHonours_script]
  refine ⟨fun honours => ?_, fun honours => ?_, fun honours => ?_, fun honours => ?_⟩
  · obtain ⟨⟨q, done, fds, -⟩, -⟩ := honours _ _ rfl
    cases done
    cases congrFun fds 1
  · exact absurd ((honours _ _ rfl).2 (ascii "A=1") List.mem_cons_self) (by decide)
  · obtain ⟨⟨q, done, -, cwd⟩, -⟩ := honours _ _ rfl
    cases done
    exact absurd cwd (by decide)
  · obtain ⟨⟨q, done, fds, -⟩, -⟩ := honours _ _ rfl
    cases done
    cases congrFun fds 1

end Macify.Exec.Spawn
