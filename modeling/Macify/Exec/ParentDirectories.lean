import Macify.Lib.FileTree
import Macify.Shim.ProcessInfo

/-!
# The directories of a mirrored program

`mkdir_parents` (`src/jail.c`) makes the directories above a path in the prefix, outside of the `chroot`, where a link
would lead to the host. It looks at each longer part of the path with `lstat` first. That is enough
(`mkdir_parents_meets_no_link`): a walk along the part looked at last meets no link (`Clear`).
-/

namespace Macify.Exec
open Lib Image Shim.ProcessInfo

abbrev Nodes := Location → Option FileNode

def entryIn (node : Nodes) (dir : Location) (name : Buf) : Option FileNode :=
  if node dir ≠ some .dir then none
  else if name = dot then node dir
  else if name = dotdot then node (if dir = [] then dir else dir.dropLast)
  else node (dir ++ [name])

def lstat (node : Nodes) (path : Buf) : Option FileNode :=
  let cs := pathComponents path
  if PATH_LIMIT ≤ path.length then none
  else cs.getLast?.bind fun name => (walk node [] MAXSYMLINKS [] cs.dropLast).bind fun dir => entryIn node dir name

/-- The place for a directory that `mkdir` makes. Slashes at the end do not matter to it. -/
def mkdirPlace (node : Nodes) (path : Buf) : Option Location :=
  let cs := components SLASH path
  if PATH_LIMIT ≤ path.length then none
  else cs.getLast?.bind fun name => (walk node [] MAXSYMLINKS [] cs.dropLast).bind fun dir =>
    if name ≠ dot ∧ name ≠ dotdot ∧ node dir = some .dir ∧ node (dir ++ [name]) = none then some (dir ++ [name])
    else none

structure Refusals where
  lstat : Buf → Bool
  mkdir : Buf → Bool

structure Creation where
  path : Buf
  place : Location
  before : Nodes

structure Directories where
  node : Nodes
  made : List Creation

inductive ParentsError where
  | eloop
  | mkdir
  deriving DecidableEq

variable (refuses : Refusals)

def ensureDirectory (path : Buf) (s : Directories) : Except ParentsError Directories :=
  match if refuses.lstat path then none else lstat s.node path with
  | some (.link _) => .error .eloop
  | some _ => .ok s
  | none =>
    match if refuses.mkdir path then none else mkdirPlace s.node path with
    | none => .error .mkdir
    | some place => .ok ⟨Function.update s.node place (some .dir), s.made ++ [⟨path, place, s.node⟩]⟩

def parentsFrom (seen : Buf) : Buf → Directories → Option ParentsError × Directories
  | [], s =>
    match ensureDirectory refuses seen s with
    | .error e => (some e, s)
    | .ok s => (none, s)
  | c :: rest, s =>
    if c ≠ SLASH then parentsFrom (seen ++ [c]) rest s
    else
      match ensureDirectory refuses seen s with
      | .error e => (some e, s)
      | .ok s => parentsFrom (seen ++ [c]) rest s

abbrev PARENTS_BUF : ℕ := 8192

def mkdirParents (path : Buf) (node : Nodes) : Option ParentsError × Directories :=
  let buf := path.take (PARENTS_BUF - 1)
  match strrchr SLASH buf with
  | none => (none, ⟨node, []⟩)
  | some slash =>
    match buf.take (buf.length - slash.length) with
    | [] => (none, ⟨node, []⟩)
    | c :: rest => parentsFrom refuses [c] rest ⟨node, []⟩

def Clear (node : Nodes) (cs : List Buf) : Prop := ∃ place, walkToLink node [] [] cs = .done place

def Stop.onward (node : Nodes) (cs : List Buf) : Stop → Stop
  | .done place => walkToLink node [] place cs
  | .link dir target rest => .link dir target (rest ++ cs)
  | .fails => .fails

variable {node node' : Nodes} {place : Location} {cs : List Buf} {c path : Buf}

lemma walkToLink_append {cs' : List Buf} :
    walkToLink node [] place (cs ++ cs') = Stop.onward node cs' (walkToLink node [] place cs) := by
  fun_induction walkToLink node [] place cs with
  | case1 => rfl
  | case2 place c rest no_dir => rw [List.cons_append, walkToLink, if_pos no_dir, Stop.onward]
  | case3 place rest is_dir ih => rw [List.cons_append, walkToLink, if_neg is_dir, if_pos rfl, ih]
  | case4 place rest is_dir other ih =>
    rw [List.cons_append, walkToLink, if_neg is_dir, if_neg other, if_pos rfl, ih]
  | case5 place c rest is_dir no_dot no_dotdot found =>
    rw [List.cons_append, walkToLink, if_neg is_dir, if_neg no_dot, if_neg no_dotdot, found]
    rfl
  | case6 place c rest is_dir no_dot no_dotdot target found =>
    rw [List.cons_append, walkToLink, if_neg is_dir, if_neg no_dot, if_neg no_dotdot, found]
    rfl
  | case7 place c rest is_dir no_dot no_dotdot n no_link found ih =>
    rw [List.cons_append, walkToLink, if_neg is_dir, if_neg no_dot, if_neg no_dotdot, found, ← ih]
    cases n with
    | dir | file => rfl
    | link target => exact absurd rfl (no_link target)

lemma walkToLink_grow {q : Location} (grows : ∀ p n, node p = some n → node' p = some n)
    (here : walkToLink node [] place cs = .done q) : walkToLink node' [] place cs = .done q := by
  fun_induction walkToLink node [] place cs with
  | case1 => exact here
  | case2 => cases here
  | case3 place rest is_dir ih =>
    rw [walkToLink, if_neg (not_not_intro (grows _ _ (not_not.mp is_dir))), if_pos rfl, ih here]
  | case4 place rest is_dir other ih =>
    rw [walkToLink, if_neg (not_not_intro (grows _ _ (not_not.mp is_dir))), if_neg other, if_pos rfl, ih here]
  | case5 | case6 => cases here
  | case7 place c rest is_dir no_dot no_dotdot n no_link found ih =>
    rw [walkToLink, if_neg (not_not_intro (grows _ _ (not_not.mp is_dir))), if_neg no_dot, if_neg no_dotdot,
      grows _ _ found, ← ih here]
    cases n with
    | dir | file => rfl
    | link target => exact absurd rfl (no_link target)

lemma walk_of_done {links : ℕ} (here : walkToLink node [] [] cs = .done place) :
    walk node [] links [] cs = some place := by
  cases links <;> rw [walk, here, Stop.goOn]

lemma Clear.dropLast (clear : Clear node cs) : Clear node cs.dropLast := by
  obtain ⟨place, here⟩ := clear
  induction cs using List.reverseRecOn with
  | nil => exact ⟨place, here⟩
  | append_singleton cs c =>
    rw [List.dropLast_concat]
    rw [walkToLink_append] at here
    cases stop : walkToLink node [] [] cs with
    | done q => exact ⟨q, stop⟩
    | link dir target rest | fails => rw [stop] at here; cases here

lemma clear_of_entryIn {n : FileNode} (here : walkToLink node [] [] cs = .done place)
    (found : entryIn node place c = some n) (no_link : ∀ target, n ≠ .link target) : Clear node (cs ++ [c]) := by
  rw [Clear, walkToLink_append, here]
  rw [entryIn] at found
  rw [Stop.onward, walkToLink]
  split at found
  · cases found
  next is_dir =>
  rw [if_neg is_dir]
  split at found
  · next is_dot => exact ⟨place, by rw [if_pos is_dot, walkToLink]⟩
  next no_dot =>
  rw [if_neg no_dot]
  split at found
  · next is_dotdot => exact ⟨_, by rw [if_pos is_dotdot, walkToLink]⟩
  next no_dotdot =>
  rw [if_neg no_dotdot, found]
  cases n with
  | dir | file => exact ⟨_, rfl⟩
  | link target => exact absurd rfl (no_link target)

/-- The walk along the path of the parent meets no link. -/
def Creation.Safe (m : Creation) : Prop :=
  ∃ parent name, walkToLink m.before [] [] (components SLASH m.path).dropLast = .done parent ∧
    m.place = parent ++ [name]

variable {base name : Buf}

lemma components_part (no_slash : SLASH ∉ name) :
    components SLASH (base ++ SLASH :: name) = components SLASH base ++ if name = [] then [] else [name] := by
  rw [components_append_sep]
  split
  · next empty => rw [empty, components_nil]
  · next nonempty => rw [components_of_no_sep nonempty no_slash]

lemma clear_of_lstat {n : FileNode} (no_slash : SLASH ∉ name) (clear : Clear node (components SLASH base))
    (found : lstat node (base ++ SLASH :: name) = some n) (no_link : ∀ target, n ≠ .link target) :
    Clear node (components SLASH (base ++ SLASH :: name)) := by
  rw [components_part no_slash]
  split
  · rwa [List.append_nil]
  next nonempty =>
  have last : (base ++ SLASH :: name).getLast? ≠ some SLASH := by
    rw [List.getLast?_append, List.getLast?_cons, List.getLast?_eq_getLast_of_ne_nil nonempty]
    intro slash
    exact no_slash (Option.some.inj slash ▸ List.getLast_mem nonempty)
  have parts : pathComponents (base ++ SLASH :: name) = components SLASH base ++ [name] := by
    rw [pathComponents, if_neg last, List.append_nil, components_part no_slash, if_neg nonempty]
  obtain ⟨place, here⟩ := clear
  rw [lstat, parts] at found
  split at found
  · cases found
  rw [List.getLast?_concat, List.dropLast_concat, walk_of_done here] at found
  exact clear_of_entryIn here found no_link

lemma clear_of_mkdir (clear : Clear node (components SLASH path).dropLast) (made : mkdirPlace node path = some place) :
    Creation.Safe ⟨path, place, node⟩ ∧ Clear (Function.update node place (some .dir)) (components SLASH path) := by
  obtain ⟨parent, here⟩ := clear
  rw [mkdirPlace] at made
  split at made
  · cases made
  obtain ⟨name, last, made⟩ := Option.bind_eq_some_iff.mp made
  rw [walk_of_done here, Option.bind_some] at made
  split at made
  · next new =>
    obtain ⟨no_dot, no_dotdot, is_dir, nothing⟩ := new
    cases made
    refine ⟨⟨parent, name, here, rfl⟩, ?_⟩
    have grows : ∀ p n, node p = some n → Function.update node (parent ++ [name]) (some .dir) p = some n := by
      intro p n is
      rw [Function.update_of_ne, is]
      rintro rfl
      exact absurd (nothing.symm.trans is) (Option.some_ne_none n).symm
    have split : components SLASH path = (components SLASH path).dropLast ++ [name] :=
      (List.dropLast_append_getLast? name last).symm
    rw [split]
    refine clear_of_entryIn (n := .dir) (walkToLink_grow grows here) ?_ fun target => FileNode.noConfusion
    rw [entryIn, if_neg (not_not_intro (grows _ _ is_dir)), if_neg no_dot, if_neg no_dotdot, Function.update_self]
  · cases made

lemma ensureDirectory_clear {refuses : Refusals} {s s' : Directories} (no_slash : SLASH ∉ name)
    (clear : Clear s.node (components SLASH base)) (safe : ∀ m ∈ s.made, m.Safe)
    (ok : ensureDirectory refuses (base ++ SLASH :: name) s = .ok s') :
    Clear s'.node (components SLASH (base ++ SLASH :: name)) ∧ ∀ m ∈ s'.made, m.Safe := by
  rw [ensureDirectory] at ok
  split at ok
  · cases ok
  · next n no_link found =>
    cases ok
    split at found
    · cases found
    · exact ⟨clear_of_lstat no_slash clear found no_link, safe⟩
  · split at ok
    · cases ok
    next place made =>
    split at made
    · cases made
    have above : Clear s.node (components SLASH (base ++ SLASH :: name)).dropLast := by
      rw [components_part no_slash]
      split
      · rw [List.append_nil]
        exact clear.dropLast
      · rwa [List.dropLast_concat]
    obtain ⟨new, clear'⟩ := clear_of_mkdir above made
    cases ok
    refine ⟨clear', fun m mem => ?_⟩
    rcases List.mem_append.mp mem with old | is
    · exact safe m old
    · rw [List.mem_singleton.mp is]
      exact new

lemma parentsFrom_clear {refuses : Refusals} {rest : Buf} {s : Directories} (no_slash : SLASH ∉ name)
    (clear : Clear s.node (components SLASH base)) (safe : ∀ m ∈ s.made, m.Safe) :
    (∀ m ∈ (parentsFrom refuses (base ++ SLASH :: name) rest s).2.made, m.Safe) ∧
      ((parentsFrom refuses (base ++ SLASH :: name) rest s).1 = none →
        Clear (parentsFrom refuses (base ++ SLASH :: name) rest s).2.node
          (components SLASH (base ++ SLASH :: name ++ rest))) := by
  -- `base` is the part looked at last, and `name` what has been passed of the component after it
  induction rest generalizing base name s with
  | nil =>
    rw [parentsFrom, List.append_nil]
    split
    · exact ⟨safe, fun no => absurd no (Option.some_ne_none _)⟩
    · next s' ok =>
      obtain ⟨clear', safe'⟩ := ensureDirectory_clear no_slash clear safe ok
      exact ⟨safe', fun _ => clear'⟩
  | cons c rest ih =>
    have longer : base ++ SLASH :: name ++ c :: rest = base ++ SLASH :: name ++ [c] ++ rest := by
      rw [List.append_assoc _ [c], List.singleton_append]
    rw [parentsFrom, longer]
    split
    · next other =>
      rw [List.append_assoc base, List.cons_append]
      refine ih ?_ clear safe
      rw [List.mem_append, List.mem_singleton]
      exact not_or.mpr ⟨no_slash, Ne.symm other⟩
    next slash =>
    split
    · exact ⟨safe, fun no => absurd no (Option.some_ne_none _)⟩
    · next s' ok =>
      obtain ⟨clear', safe'⟩ := ensureDirectory_clear no_slash clear safe ok
      rw [not_not.mp slash]
      exact ih List.not_mem_nil clear' safe'

/-- No directory is made through a symbolic link, and after a success all components are there. -/
theorem mkdir_parents_meets_no_link (refuses : Refusals) (tree : FileTree) (parent last : Buf)
    (no_slash : SLASH ∉ last) (absolute : (parent ++ SLASH :: last).head? = some SLASH)
    (short : (parent ++ SLASH :: last).length < PARENTS_BUF) :
    (∀ m ∈ (mkdirParents refuses (parent ++ SLASH :: last) tree.node).2.made, m.Safe) ∧
      ((mkdirParents refuses (parent ++ SLASH :: last) tree.node).1 = none →
        Clear (mkdirParents refuses (parent ++ SLASH :: last) tree.node).2.node (components SLASH parent)) := by
  have whole : (parent ++ SLASH :: last).take (PARENTS_BUF - 1) = parent ++ SLASH :: last :=
    List.take_of_length_le (Nat.le_sub_one_of_lt short)
  have cut : (parent ++ SLASH :: last).take ((parent ++ SLASH :: last).length - (SLASH :: last).length) = parent := by
    rw [List.length_append, Nat.add_sub_cancel, List.take_left]
  rw [mkdirParents, whole, strrchr_append no_slash]
  dsimp only
  rw [cut]
  cases parent with
  | nil => exact ⟨fun m mem => absurd mem List.not_mem_nil, fun _ => ⟨[], rfl⟩⟩
  | cons c rest =>
    cases Option.some.inj absolute
    exact @parentsFrom_clear [] [] refuses rest ⟨tree.node, []⟩ List.not_mem_nil ⟨[], rfl⟩
      fun m mem => absurd mem List.not_mem_nil

def emptyTree : FileTree := FileTree.ofList [([], .dir)] (by decide) (by decide)

def noRefusals : Refusals := ⟨fun _ => false, fun _ => false⟩

theorem mkdir_parents_meets_no_link_new :
    (mkdirParents noRefusals (ascii "/a//b/c") emptyTree.node).2.made.length = 2 ∧
      (∀ m ∈ (mkdirParents noRefusals (ascii "/a//b/c") emptyTree.node).2.made, m.Safe) ∧
      Clear (mkdirParents noRefusals (ascii "/a//b/c") emptyTree.node).2.node (components SLASH (ascii "/a//b")) := by
  obtain ⟨safe, clear⟩ := mkdir_parents_meets_no_link noRefusals emptyTree (ascii "/a//b") (ascii "c") (by decide)
    (by decide) (by decide)
  exact ⟨by decide +kernel, safe, clear (by decide +kernel)⟩

end Macify.Exec
