import Macify.Lib.Loop
import Macify.Lib.PointerArrays
import Macify.Exec.Scripts

/-!
# The vectors of a redirected exec

When a Mach-O file is executed, the shim executes the loader in its place. `build_macify_argv` puts the file on the
loader's command line and `macify_build_child_envp` completes an environment; both size their array before they fill
it. Main result: `exec_vectors_iff`.
-/

namespace Macify.Exec.Vectors
open Lib Image Paths

def newArray (n : ℕ) : Cells Buf := (Cells.calloc (n + 3)).guard (decide (n + 3 < 2 ^ 31))

def buildMacifyArgv (target : Buf) (argv : Option (List Buf)) : Cells Buf :=
  let args := argv.getD []
  let argc := args.length
  let newArgv := (newArray argc).store 0 (some (ascii "macify"))
  let newArgv := newArgv.store 1 (some target)
  let newArgv := forUp (fun i a => a.store (i + 1) args[i]?) 1 (argc - 1) newArgv
  newArgv.store (argc + 1) none

inductive Variable
  | MACIFY_PREFIX
  | HOME
  | LD_LIBRARY_PATH
  deriving DecidableEq

def Variable.name : Variable → Buf
  | .MACIFY_PREFIX => ascii "MACIFY_PREFIX="
  | .HOME => ascii "HOME="
  | .LD_LIBRARY_PATH => ascii "LD_LIBRARY_PATH="

structure Heap where
  argv : Bool
  envp : Bool
  entry : Variable → Bool

def homeOf (prefixVal : Buf) : Buf :=
  let suf := ascii "/.macify"
  if suf.length < prefixVal.length ∧ prefixVal.drop (prefixVal.length - suf.length) = suf then
    snprintf PATH_MAX (prefixVal.take (prefixVal.length - suf.length))
  else snprintf PATH_MAX prefixVal

def directoryOf (macifyBin : Buf) : Option Buf :=
  let dir := snprintf PATH_MAX macifyBin
  if dir.contains slash then some ((dir.reverse.dropWhile (· != slash)).drop 1).reverse else none

structure EnvpState where
  out : Cells Buf
  m : ℕ
  hasPrefix : Bool
  hasLdlp : Bool
  hasHome : Bool
  prefixVal : Option Buf

namespace EnvpState

def push (s : EnvpState) (entry : Buf) : EnvpState :=
  { s with out := s.out.store s.m (some entry), m := s.m + 1 }

def copy (s : EnvpState) (entry : Buf) : EnvpState :=
  let s := s.push entry
  if Variable.MACIFY_PREFIX.name.isPrefixOf entry then
    { s with hasPrefix := true, prefixVal := some (entry.drop Variable.MACIFY_PREFIX.name.length) }
  else if Variable.LD_LIBRARY_PATH.name.isPrefixOf entry then { s with hasLdlp := true }
  else if Variable.HOME.name.isPrefixOf entry then { s with hasHome := true }
  else s

def append (s : EnvpState) (heap : Heap) (v : Variable) (value : Buf) : EnvpState :=
  if heap.entry v then s.push (v.name ++ value) else s

def addPrefix (s : EnvpState) (heap : Heap) (root : Buf) : EnvpState :=
  if s.hasPrefix then s
  else
    let s := { s with prefixVal := some root }
    if root = [] then s else s.append heap .MACIFY_PREFIX root

def addHome (s : EnvpState) (heap : Heap) : EnvpState :=
  match s.hasHome, s.prefixVal with
  | false, some prefixVal =>
    if prefixVal = [] then s
    else if homeOf prefixVal = [] ∨ homeOf prefixVal = [slash] then s
    else s.append heap .HOME (homeOf prefixVal)
  | _, _ => s

def addLdlp (s : EnvpState) (heap : Heap) (macifyBin : Buf) : EnvpState :=
  match s.hasLdlp, directoryOf macifyBin with
  | false, some dir => s.append heap .LD_LIBRARY_PATH dir
  | _, _ => s

end EnvpState

def macifyBuildChildEnvp (heap : Heap) (root : Buf) (envp : Option (List Buf)) (macifyBin : Buf) : Cells Buf :=
  let entries := envp.getD []
  let s := entries.foldl EnvpState.copy ⟨newArray entries.length, 0, false, false, false, none⟩
  let s := ((s.addPrefix heap root).addHome heap).addLdlp heap macifyBin
  s.out.store s.m none

structure Place where
  heap : Heap
  macifyBin : Buf
  target : Buf
  argv : Option (List Buf)

inductive Ending
  | redirected (place : Place) (argv envp : Cells Buf)
  | kernel (path : Buf) (argv : Option (List Buf))
  | failed

section Calls

variable (host : Host) (heap : Heap)

/-- The block for a Mach-O file, in `do_execve_inner` and in `macify_do_execvp`; `none` if the call goes
    on after it. -/
def redirect (target : Buf) (argv envp : Option (List Buf)) : Option Ending :=
  match isMachoBinary host target, host.macifyBinary with
  | true, some macifyBin =>
    if heap.argv then
      if heap.envp then
        some (.redirected ⟨heap, macifyBin, target, argv⟩ (buildMacifyArgv target argv)
          (macifyBuildChildEnvp heap host.env.macifyRoot envp macifyBin))
      else some .failed
    else none
  | _, _ => none

/-- `left` is `MACIFY_SHEBANG_MAX_DEPTH - depth`. -/
def doExecveInner (left : ℕ) (path : Option Buf) (argv envp : Option (List Buf)) : Ending :=
  match path with
  | none => .failed
  | some path =>
    let effPath := kernelPath host.env path PATH_MAX
    match redirect host heap effPath argv envp with
    | some ending => ending
    | none =>
      match (host.read effPath).bind parseShebang with
      | none => .kernel effPath argv
      | some (interp, iarg) =>
        let tinterp := kernelPath host.env interp PATH_MAX
        if !host.canExecute tinterp then .failed
        else
          match left with
          | 0 => .failed
          | left + 1 =>
            match (if path.head? = some slash then some (snprintf PATH_MAX path) else host.realpath path) with
            | none => .failed
            | some abspath =>
              doExecveInner left (some tinterp) (some (tinterp :: scriptArgs iarg abspath (argv.getD []))) envp

abbrev COLON : UInt8 := 0x3A

def resolveInPrefixPath (pathEnv : Option Buf) (file : Buf) : Option Buf :=
  if file = [] then none
  else if file.contains slash then some ((host.translate file).getD (snprintf PATH_MAX file))
  else
    let dirs := (snprintf PATH_MAX (pathEnv.getD (ascii "/usr/bin:/bin:/usr/local/bin"))).splitOn COLON
    (dirs.filter (· ≠ [])).findSome? fun dir =>
      let macosPath := snprintf PATH_MAX (dir ++ slash :: file)
      let found := (host.translate macosPath).getD macosPath
      if host.canExecute found then some found else none

/-- `retry` is the heap of `do_execve_inner`, should the first array not be allocated. The `setenv` of
    `LD_LIBRARY_PATH` before the exec is left out: the vectors are passed as they are. -/
def macifyDoExecvp (retry : Heap) (pathEnv file : Option Buf) (argv envp : Option (List Buf)) : Ending :=
  match file.bind (resolveInPrefixPath host pathEnv) with
  | none => .failed
  | some resolved =>
    match redirect host heap resolved argv envp with
    | some ending => ending
    | none => doExecveInner host retry MACIFY_SHEBANG_MAX_DEPTH (some resolved) argv envp

end Calls

def started (n : ℕ) (l : List Buf) : Cells Buf := (Cells.filled (n + 3) l).guard (decide (n + 3 < 2 ^ 31))

section Arrays

variable {n i : ℕ} {l : List Buf} {x : Buf}

lemma newArray_eq : newArray n = started n [] := by
  rw [newArray, Cells.calloc_eq, started]

lemma store_started (next : i = l.length) : (started n l).store i (some x) = started n (l ++ [x]) := by
  rw [next, started, Cells.store_guard, Cells.store_filled, started]

lemma inside_started : ((started n l).store l.length none).inside = true ↔ l.length < n + 3 ∧ n + 3 < 2 ^ 31 := by
  rw [started, Cells.store_guard, Cells.guard, Bool.and_eq_true, Cells.inside_end_iff, decide_eq_true_eq, and_comm]

lemma ends_started (room : l.length < n + 3) : ((started n l).store l.length none).Ends l := by
  rw [started, Cells.store_guard]
  exact Cells.ends_of_lt room

lemma buildMacifyArgv_eq {target : Buf} {argv : Option (List Buf)} (some_args : argv.getD [] ≠ []) :
    buildMacifyArgv target argv =
      (started (argv.getD []).length (ascii "macify" :: target :: (argv.getD []).tail)).store
        ((argv.getD []).length + 1) none := by
  rw [buildMacifyArgv]
  generalize argv.getD [] = args at some_args ⊢
  obtain ⟨name, rest, rfl⟩ := List.exists_cons_of_ne_nil some_args
  -- Before the store for `i` the arguments before it are there.
  have loop := forUp_invariant
    (fun i a => a = started (name :: rest).length (ascii "macify" :: target :: rest.take (i - 1)))
    (f := fun i a => a.store (i + 1) (name :: rest)[i]?) (n := rest.length)
    (show started (name :: rest).length [ascii "macify", target] = _ by rw [Nat.sub_self]; rfl)
    (fun i a ge lt inv => by
      have bound : i - 1 < rest.length := by omega
      have arg : (name :: rest)[i]? = some (rest[i - 1]) := by
        rw [List.getElem?_cons, if_neg (by omega), List.getElem?_eq_getElem bound]
      rw [inv, arg, store_started (by simp only [List.length_cons, List.length_take]; omega),
        show i + 1 - 1 = i - 1 + 1 by omega, List.take_succ_eq_append_getElem bound]
      rfl)
  rw [Nat.add_sub_cancel_left, List.take_length] at loop
  have first : ((newArray (name :: rest).length).store 0 (some (ascii "macify"))).store 1 (some target) =
      started (name :: rest).length [ascii "macify", target] := by
    rw [newArray_eq, @store_started _ 0 [] _ rfl, @store_started _ 1 _ _ rfl]
    rfl
  rw [first]
  exact congrArg (Cells.store · _ none) loop

lemma not_ends_of_nil {target : Buf} {argv : Option (List Buf)} {l : List Buf} (no_args : argv.getD [] = []) :
    ¬ (buildMacifyArgv target argv).Ends (ascii "macify" :: target :: l) := by
  rw [buildMacifyArgv, no_args]
  intro ends
  obtain ⟨-, ends⟩ := List.cons_prefix_cons.mp ends
  obtain ⟨same, -⟩ := List.cons_prefix_cons.mp ends
  cases same

lemma buildMacifyArgv_iff {target : Buf} {argv : Option (List Buf)} :
    ((buildMacifyArgv target argv).Ends (ascii "macify" :: target :: (argv.getD []).tail) ∧
        (buildMacifyArgv target argv).inside = true) ↔
      argv.getD [] ≠ [] ∧ (argv.getD []).length + 3 < 2 ^ 31 := by
  by_cases some_args : argv.getD [] = []
  · exact iff_of_false (fun right => not_ends_of_nil some_args right.1) (fun cond => cond.1 some_args)
  · have len : (ascii "macify" :: target :: (argv.getD []).tail).length = (argv.getD []).length + 1 := by
      have pos := List.length_pos_of_ne_nil some_args
      simp only [List.length_cons, List.length_tail]
      omega
    rw [buildMacifyArgv_eq some_args, ← len, inside_started, len]
    constructor
    · rintro ⟨-, -, fits⟩
      exact ⟨some_args, fits⟩
    · rintro ⟨-, fits⟩
      refine ⟨?_, by omega, fits⟩
      rw [← len]
      exact ends_started (by omega)

end Arrays

def Variable.missing (v : Variable) (entries : List Buf) : Bool := !entries.any v.name.isPrefixOf

/-- The prefix of the child: that of the last entry which sets it, or else that of the process. -/
def childPrefix (root : Buf) (entries : List Buf) : Buf :=
  let prefixes := entries.filter Variable.MACIFY_PREFIX.name.isPrefixOf
  (prefixes.getLast?.map (List.drop Variable.MACIFY_PREFIX.name.length)).getD root

def added (heap : Heap) (root : Buf) (entries : List Buf) (macifyBin : Buf) (v : Variable) : Option Buf :=
  if v.missing entries && heap.entry v then
    match v with
    | .MACIFY_PREFIX => if root = [] then none else some root
    | .HOME =>
      let home := homeOf (childPrefix root entries)
      if home = [] ∨ home = [slash] then none else some home
    | .LD_LIBRARY_PATH => directoryOf macifyBin
  else none

section Entries

variable {heap : Heap} {root macifyBin : Buf} {entries l : List Buf} {n : ℕ} {s : EnvpState}

lemma name_exclusive {v w : Variable} {entry : Buf} (ne : v ≠ w) (sets : v.name.isPrefixOf entry = true) :
    w.name.isPrefixOf entry = false := by
  obtain ⟨value, rfl⟩ := List.isPrefixOf_iff_prefix.mp sets
  cases v <;> cases w <;> first | exact absurd rfl ne | rfl

lemma missing_concat {v : Variable} {entry : Buf} :
    v.missing (entries ++ [entry]) = (v.missing entries && !v.name.isPrefixOf entry) := by
  rw [Variable.missing, Variable.missing, List.any_append, Bool.not_or, List.any_cons, List.any_nil, Bool.or_false]

@[simps]
def copied (n : ℕ) (entries l : List Buf) (prefixVal : Option Buf) : EnvpState :=
  ⟨started n l, l.length, !Variable.missing .MACIFY_PREFIX entries,
    !Variable.missing .LD_LIBRARY_PATH entries, !Variable.missing .HOME entries, prefixVal⟩

lemma copied_with (p q : Option Buf) : { copied n entries l p with prefixVal := q } = copied n entries l q := rfl

def lastPrefix (entries : List Buf) : Option Buf :=
  (entries.filter Variable.MACIFY_PREFIX.name.isPrefixOf).getLast?.map
    (List.drop Variable.MACIFY_PREFIX.name.length)

lemma copy_all (entries : List Buf) :
    entries.foldl EnvpState.copy ⟨newArray n, 0, false, false, false, none⟩ =
      copied n entries entries (lastPrefix entries) := by
  induction entries using List.reverseRecOn with
  | nil =>
    rw [newArray_eq]
    rfl
  | append_singleton entries entry ih =>
    rw [List.foldl_append, ih, List.foldl_cons, List.foldl_nil, EnvpState.copy, EnvpState.push,
      copied, copied, lastPrefix, lastPrefix, store_started rfl, missing_concat, missing_concat, missing_concat,
      List.filter_append, List.length_append]
    dsimp only
    -- The tests exclude each other, so their order makes no difference.
    split_ifs with isPrefix isLdlp isHome
    · rw [isPrefix, name_exclusive (by decide) isPrefix, name_exclusive (by decide) isPrefix,
        List.filter_cons_of_pos isPrefix]
      simp
    · rw [Bool.not_eq_true] at isPrefix
      rw [isPrefix, isLdlp, name_exclusive (by decide) isLdlp, List.filter_cons_of_neg (by rw [isPrefix]; decide)]
      simp
    · rw [Bool.not_eq_true] at isPrefix isLdlp
      rw [isPrefix, isLdlp, isHome, List.filter_cons_of_neg (by rw [isPrefix]; decide)]
      simp
    · rw [Bool.not_eq_true] at isPrefix isLdlp isHome
      rw [isPrefix, isLdlp, isHome, List.filter_cons_of_neg (by rw [isPrefix]; decide)]
      simp

def entryFor (v : Variable) (value : Option Buf) : List Buf := (value.map (v.name ++ ·)).toList

variable {prefixVal : Option Buf}

lemma append_eq {v : Variable} {value : Buf} :
    (copied n entries l prefixVal).append heap v value =
      copied n entries (l ++ entryFor v (if heap.entry v then some value else none)) prefixVal := by
  rw [EnvpState.append, copied, copied]
  split_ifs with room
  · rw [EnvpState.push, store_started rfl]
    simp [entryFor]
  · simp [entryFor]

lemma lastPrefix_of_missing (gone : Variable.missing .MACIFY_PREFIX entries = true) :
    lastPrefix entries = none := by
  rw [Variable.missing, Bool.not_eq_true', List.any_eq_false] at gone
  rw [lastPrefix, List.filter_eq_nil_iff.mpr gone]
  rfl

lemma lastPrefix_of_set (set : Variable.missing .MACIFY_PREFIX entries = false) :
    ∃ value, lastPrefix entries = some value := by
  rw [Variable.missing, Bool.not_eq_false', List.any_eq_true] at set
  obtain ⟨entry, mem, sets⟩ := set
  rw [lastPrefix, List.getLast?_eq_some_getLast (List.ne_nil_of_mem (List.mem_filter.mpr ⟨mem, sets⟩))]
  exact ⟨_, rfl⟩

lemma childPrefix_eq : childPrefix root entries = (lastPrefix entries).getD root := rfl

lemma addPrefix_eq :
    (copied n entries l (lastPrefix entries)).addPrefix heap root =
      copied n entries (l ++ entryFor .MACIFY_PREFIX (added heap root entries macifyBin .MACIFY_PREFIX))
        (some (childPrefix root entries)) := by
  rw [EnvpState.addPrefix, added, childPrefix_eq]
  cases gone : Variable.missing .MACIFY_PREFIX entries with
  | false =>
    obtain ⟨value, last⟩ := lastPrefix_of_set gone
    simp [gone, last, entryFor]
  | true =>
    have unset : ¬ (copied n entries l none).hasPrefix = true := by simp [gone]
    rw [lastPrefix_of_missing gone, if_neg unset, copied_with]
    by_cases empty : root = []
    · simp [entryFor, empty]
    · simp [empty, append_eq]

lemma homeOf_nil : homeOf [] = [] := rfl

lemma addHome_eq :
    (copied n entries l (some (childPrefix root entries))).addHome heap =
      copied n entries (l ++ entryFor .HOME (added heap root entries macifyBin .HOME))
        (some (childPrefix root entries)) := by
  rw [EnvpState.addHome, added]
  generalize childPrefix root entries = value
  cases gone : Variable.missing .HOME entries with
  | false => simp [gone, entryFor]
  | true =>
    by_cases empty : value = []
    · simp [gone, empty, homeOf_nil, entryFor]
    · by_cases useless : homeOf value = [] ∨ homeOf value = [slash]
      · simp [gone, empty, useless, entryFor]
      · simp [gone, empty, useless, append_eq]

lemma addLdlp_eq :
    (copied n entries l prefixVal).addLdlp heap macifyBin =
      copied n entries (l ++ entryFor .LD_LIBRARY_PATH (added heap root entries macifyBin .LD_LIBRARY_PATH))
        prefixVal := by
  rw [EnvpState.addLdlp, added]
  cases gone : Variable.missing .LD_LIBRARY_PATH entries with
  | false => simp [gone, entryFor]
  | true =>
    cases directoryOf macifyBin with
    | none => simp [gone, entryFor]
    | some dir => simp [gone, append_eq]

def Variable.all : List Variable := [.MACIFY_PREFIX, .HOME, .LD_LIBRARY_PATH]

def addedEntries (heap : Heap) (root : Buf) (entries : List Buf) (macifyBin : Buf) : List (Variable × Buf) :=
  Variable.all.filterMap fun v => (added heap root entries macifyBin v).map (v, ·)

def entryText (a : Variable × Buf) : Buf := a.1.name ++ a.2

lemma macifyBuildChildEnvp_eq {envp : Option (List Buf)} :
    macifyBuildChildEnvp heap root envp macifyBin =
      let all := envp.getD [] ++ (addedEntries heap root (envp.getD []) macifyBin).map entryText
      (started (envp.getD []).length all).store all.length none := by
  have flat : ∀ v value, entryFor v value = (value.map (v, ·)).toList.map entryText := by
    intro v value
    cases value <;> rfl
  rw [macifyBuildChildEnvp, copy_all, @addPrefix_eq heap root macifyBin, @addHome_eq heap root macifyBin,
    @addLdlp_eq heap root macifyBin]
  simp only [flat, List.append_assoc, ← List.map_append, addedEntries, Variable.all, List.filterMap_cons,
    List.filterMap_nil]
  cases added heap root (envp.getD []) macifyBin .MACIFY_PREFIX <;>
    cases added heap root (envp.getD []) macifyBin .HOME <;>
    cases added heap root (envp.getD []) macifyBin .LD_LIBRARY_PATH <;> rfl

lemma Variable.mem_all (v : Variable) : v ∈ Variable.all := by
  cases v <;> decide

lemma length_addedEntries_iff :
    (addedEntries heap root entries macifyBin).length < 3 ↔ ∃ v, added heap root entries macifyBin v = none := by
  rw [addedEntries, show 3 = Variable.all.length from rfl, List.length_filterMap_lt_length_iff_exists]
  constructor
  · rintro ⟨v, -, gone⟩
    exact ⟨v, Option.map_eq_none_iff.mp gone⟩
  · rintro ⟨v, gone⟩
    exact ⟨v, v.mem_all, Option.map_eq_none_iff.mpr gone⟩

lemma addedEntries_missing {a : Variable × Buf} (mem : a ∈ addedEntries heap root entries macifyBin) :
    a.1.missing entries = true := by
  obtain ⟨v, -, eq⟩ := List.mem_filterMap.mp mem
  obtain ⟨value, is, rfl⟩ := Option.map_eq_some_iff.mp eq
  rw [added.eq_def] at is
  split at is
  · next gone => exact (Bool.and_eq_true_iff.mp gone).1
  · cases is

lemma addedEntries_nodup : ((addedEntries heap root entries macifyBin).map Prod.fst).Nodup := by
  rw [addedEntries, List.map_filterMap]
  refine List.Nodup.filterMap ?_ (by decide : Variable.all.Nodup)
  intro v w x at_v at_w
  rw [Option.mem_def, Option.map_map, Option.map_eq_some_iff] at at_v at_w
  obtain ⟨_, _, is_v⟩ := at_v
  obtain ⟨_, _, is_w⟩ := at_w
  exact is_v.trans is_w.symm

end Entries

/-- The environment is the caller's, followed by at most one entry for each variable that it lacks. -/
def Completes (entries : List Buf) (envp : Cells Buf) : Prop :=
  ∃ more : List (Variable × Buf), (more.map Prod.fst).Nodup ∧ (∀ a ∈ more, a.1.missing entries = true) ∧
    envp.Ends (entries ++ more.map entryText)

lemma macifyBuildChildEnvp_iff {heap : Heap} {root macifyBin : Buf} {envp : Option (List Buf)} :
    (Completes (envp.getD []) (macifyBuildChildEnvp heap root envp macifyBin) ∧
        (macifyBuildChildEnvp heap root envp macifyBin).inside = true) ↔
      (∃ v, added heap root (envp.getD []) macifyBin v = none) ∧ (envp.getD []).length + 3 < 2 ^ 31 := by
  rw [macifyBuildChildEnvp_eq, inside_started, List.length_append, List.length_map, Nat.add_lt_add_iff_left,
    length_addedEntries_iff]
  constructor
  · exact And.right
  · intro room
    refine ⟨⟨_, addedEntries_nodup, fun a => addedEntries_missing, ends_started ?_⟩, room⟩
    rw [List.length_append, List.length_map, Nat.add_lt_add_iff_left, length_addedEntries_iff]
    exact room.1

def Ending.Right (envp : Option (List Buf)) : Ending → Prop
  | .redirected place argv' envp' =>
    (argv'.Ends (ascii "macify" :: place.target :: (place.argv.getD []).tail) ∧ argv'.inside = true) ∧
      Completes (envp.getD []) envp' ∧ envp'.inside = true
  | _ => True

def Ending.place : Ending → Option Place
  | .redirected place _ _ => some place
  | _ => none

/-- There is an argument zero, a variable is not appended, and both vectors can be counted in an `int`. -/
def Place.Fits (place : Place) (root : Buf) (envp : Option (List Buf)) : Prop :=
  (place.argv.getD [] ≠ [] ∧ (place.argv.getD []).length + 3 < 2 ^ 31) ∧
    (∃ v, added place.heap root (envp.getD []) place.macifyBin v = none) ∧ (envp.getD []).length + 3 < 2 ^ 31

inductive Call
  | execve (left : ℕ) (path : Option Buf)
  | execvp (retry : Heap) (pathEnv file : Option Buf)

def Call.ending (host : Host) (heap : Heap) (argv envp : Option (List Buf)) : Call → Ending
  | .execve left path => doExecveInner host heap left path argv envp
  | .execvp retry pathEnv file => macifyDoExecvp host heap retry pathEnv file argv envp

def Ending.RightIff (root : Buf) (envp : Option (List Buf)) (e : Ending) : Prop :=
  e.Right envp ↔ ∀ place, e.place = some place → place.Fits root envp

section Endings

variable {host : Host} {heap : Heap} {target : Buf} {argv envp : Option (List Buf)}

lemma rightIff_of_no_place {root : Buf} {e : Ending} (nowhere : e.place = none) : e.RightIff root envp := by
  cases e with
  | redirected => cases nowhere
  | kernel | failed => exact iff_of_true trivial nofun

lemma redirect_rightIff {e : Ending} (redirects : redirect host heap target argv envp = some e) :
    e.RightIff host.env.macifyRoot envp := by
  rw [redirect] at redirects
  split at redirects
  · split_ifs at redirects
    · cases redirects
      refine (and_congr buildMacifyArgv_iff macifyBuildChildEnvp_iff).trans
        ⟨fun fits place is => ?_, fun fits => fits _ rfl⟩
      cases is
      exact fits
    · cases redirects
      exact rightIff_of_no_place rfl
  · cases redirects

lemma doExecveInner_cases {left : ℕ} {path : Option Buf} :
    (∃ p, path = some p ∧ redirect host heap (kernelPath host.env p PATH_MAX) argv envp =
        some (doExecveInner host heap left path argv envp)) ∨
      (doExecveInner host heap left path argv envp).place = none ∨
      ∃ less interp args, less < left ∧
        doExecveInner host heap left path argv envp =
          doExecveInner host heap less (some interp) (some (interp :: args)) envp ∧
        Exec.doExecveInner host left path (argv.getD []) =
          Exec.doExecveInner host less (some interp) (interp :: args) := by
  rw [doExecveInner.eq_def]
  cases path with
  | none => exact .inr (.inl rfl)
  | some path =>
    dsimp only
    split
    · next redirects => exact .inl ⟨path, rfl, redirects⟩
    split
    · exact .inr (.inl rfl)
    · next interp iarg parsed =>
      -- A file with a `#!` line is not a Mach-O file, so the other model reads the line as well.
      have other : isMachoBinary host (kernelPath host.env path PATH_MAX) = false := by
        refine Bool.eq_false_iff.mpr fun macho => ?_
        rw [parse_of_macho (by rw [isMachO_eq, macho, Bool.or_true])] at parsed
        cases parsed
      split
      · exact .inr (.inl rfl)
      · next executable =>
        cases left with
        | zero => exact .inr (.inl rfl)
        | succ less =>
          dsimp only
          split
          · exact .inr (.inl rfl)
          · next abspath found =>
            exact .inr (.inr ⟨less, _, _, less.lt_succ_self, rfl,
              Exec.doExecveInner_script other parsed executable found⟩)

lemma doExecveInner_rightIff {left : ℕ} {path : Option Buf} :
    (doExecveInner host heap left path argv envp).RightIff host.env.macifyRoot envp := by
  induction left using Nat.strong_induction_on generalizing path argv with
  | _ left ih =>
    rcases @doExecveInner_cases host heap argv envp left path with
      ⟨_, _, redirects⟩ | nowhere | ⟨less, _, _, lt, eq, _⟩
    · exact redirect_rightIff redirects
    · exact rightIff_of_no_place nowhere
    · rw [eq]
      exact ih less lt

/-- The loader is executed for the file that `Exec.doExecveInner` finds, and its arguments are those. -/
lemma outcome_of_place {left : ℕ} {path : Option Buf} {place : Place}
    (comes : (doExecveInner host heap left path argv envp).place = some place) :
    Exec.doExecveInner host left path (argv.getD []) =
      .macify place.macifyBin place.target (place.argv.getD []).tail := by
  induction left using Nat.strong_induction_on generalizing path argv with
  | _ left ih =>
    rcases @doExecveInner_cases host heap argv envp left path with
      ⟨p, rfl, redirects⟩ | nowhere | ⟨less, _, _, lt, eq, same⟩
    · generalize doExecveInner host heap left (some p) argv envp = e at comes redirects
      rw [redirect] at redirects
      split at redirects
      · next macifyBin macho bin =>
        split_ifs at redirects
        · cases redirects
          cases comes
          rw [Exec.doExecveInner.eq_def]
          dsimp only
          rw [macho, bin]
        · cases redirects
          cases comes
      · cases redirects
    · rw [nowhere] at comes
      cases comes
    · rw [same]
      rw [eq] at comes
      exact ih less lt comes

end Endings

/-- The vectors are right just if there is an argument zero and one of the three variables is not appended. -/
theorem exec_vectors_iff (host : Host) (heap : Heap) (call : Call) (argv envp : Option (List Buf)) :
    (call.ending host heap argv envp).Right envp ↔
      ∀ place, (call.ending host heap argv envp).place = some place → place.Fits host.env.macifyRoot envp := by
  cases call with
  | execve left path => exact doExecveInner_rightIff
  | execvp retry pathEnv file =>
    rw [Call.ending, macifyDoExecvp]
    split
    · exact rightIff_of_no_place rfl
    split
    · next redirects => exact redirect_rightIff redirects
    · exact doExecveInner_rightIff

def roomyHeap : Heap := ⟨true, true, fun _ => true⟩

lemma ending_smallHost {argv envp : Option (List Buf)} :
    (Call.execve MACIFY_SHEBANG_MAX_DEPTH (some (ascii "/b"))).ending (smallHost []) roomyHeap argv envp =
      .redirected ⟨roomyHeap, ascii "/macify", ascii "/p/b", argv⟩ (buildMacifyArgv (ascii "/p/b") argv)
        (macifyBuildChildEnvp roomyHeap (ascii "/p") envp (ascii "/macify")) := by
  have inPrefix : kernelPath (smallHost []).env (ascii "/b") PATH_MAX = ascii "/p/b" := by decide
  have macho : isMachoBinary (smallHost []) (ascii "/p/b") = true := by decide
  rw [Call.ending, doExecveInner.eq_def]
  dsimp only
  rw [inPrefix, redirect, macho]
  rfl

/-- Without `argv[0]` nothing names the file; with an empty `envp` the null pointer is stored behind the array. -/
theorem exec_vectors_wrong :
    let call : Call := .execve MACIFY_SHEBANG_MAX_DEPTH (some (ascii "/b"))
    ¬ (call.ending (smallHost []) roomyHeap (some []) (some [ascii "HOME=/"])).Right
        (some [ascii "HOME=/"]) ∧
      ¬ (call.ending (smallHost []) roomyHeap (some [ascii "b"]) (some [])).Right (some []) := by
  dsimp only
  rw [ending_smallHost, ending_smallHost]
  refine ⟨fun right => ?_, fun right => ?_⟩
  · exact not_ends_of_nil rfl right.1.1
  · exact absurd right.2.2 (by decide)

end Macify.Exec.Vectors
