import Macify.Lib.Bytes
import Macify.Lib.LexicalPath
import Macify.Lib.Loop

/-!
# File trees

A directory of a file tree is known by the names on the way down to it, and a file by its inode as well.
`walk` looks up a path as the kernel does: `.` stays, `..` goes up but not above the root, a symbolic link
is replaced by its target, and every component is looked up in a directory. The root is a parameter, so
that the same tree can be seen from inside a `chroot`.
-/

namespace Macify.Lib

abbrev SLASH : UInt8 := 0x2F

def dot : Buf := [0x2E]

def dotdot : Buf := [0x2E, 0x2E]

abbrev Location := List Buf

inductive FileNode
  | dir
  | file (inode size : ℕ)
  | link (target : Buf)
  deriving DecidableEq

structure IsName (name : Buf) : Prop where
  nonempty : name ≠ []
  noSlash : SLASH ∉ name
  notDot : name ≠ dot
  notDotdot : name ≠ dotdot

structure FileTree where
  node : Location → Option FileNode
  names : ∀ place, node place ≠ none → ∀ name ∈ place, IsName name
  parents : ∀ place name, node (place ++ [name]) ≠ none → node place = some .dir

/-- The components of a path. What has a slash after it has to be a directory. -/
def pathComponents (path : Buf) : List Buf :=
  components SLASH path ++ if path.getLast? = some SLASH then [dot] else []

inductive Stop
  | done (place : Location)
  | link (dir : Location) (target : Buf) (rest : List Buf)
  | fails

section Walk

variable (node : Location → Option FileNode) (root : Location)

def walkToLink : Location → List Buf → Stop
  | place, [] => .done place
  | place, c :: rest =>
    if node place ≠ some .dir then .fails
    else if c = dot then walkToLink place rest
    else if c = dotdot then walkToLink (if place = root then place else place.dropLast) rest
    else
      match node (place ++ [c]) with
      | none => .fails
      | some (.link target) => .link place target rest
      | some _ => walkToLink (place ++ [c]) rest

def startOf (cwd : Location) (path : Buf) : Location := if path.head? = some SLASH then root else cwd

def Stop.goOn (again : Location → List Buf → Option Location) : Stop → Option Location
  | .done place => some place
  | .link dir target rest => again (startOf root dir target) (pathComponents target ++ rest)
  | .fails => none

/-- Walk along at most `links` symbolic links. -/
def walk : ℕ → Location → List Buf → Option Location
  | 0, place, cs => (walkToLink node root place cs).goOn root fun _ _ => none
  | links + 1, place, cs => (walkToLink node root place cs).goOn root (walk links)

end Walk

section WalkSteps

variable {node : Location → Option FileNode} {root place : Location} {links : ℕ} {c : Buf} {rest : List Buf}

lemma walk_congr {place' : Location} {cs cs' : List Buf}
    (same : walkToLink node root place cs = walkToLink node root place' cs') :
    walk node root links place cs = walk node root links place' cs' := by
  cases links <;> rw [walk, walk, same]

lemma walk_nil : walk node root links place [] = some place := by
  cases links <;> rw [walk, walkToLink, Stop.goOn]

lemma walk_of_not_dir (not_dir : node place ≠ some .dir) : walk node root links place (c :: rest) = none := by
  cases links <;> rw [walk, walkToLink, if_pos not_dir, Stop.goOn]

variable (is_dir : node place = some .dir)
include is_dir

lemma walk_dot : walk node root links place (dot :: rest) = walk node root links place rest :=
  walk_congr (by rw [walkToLink, if_neg (not_not_intro is_dir), if_pos rfl])

lemma walk_dotdot :
    walk node root links place (dotdot :: rest) =
      walk node root links (if place = root then place else place.dropLast) rest :=
  walk_congr (by rw [walkToLink, if_neg (not_not_intro is_dir), if_neg (by decide), if_pos rfl])

variable (not_dot : c ≠ dot) (not_dotdot : c ≠ dotdot)
include not_dot not_dotdot

lemma walk_none (none_here : node (place ++ [c]) = none) : walk node root links place (c :: rest) = none := by
  cases links <;>
    rw [walk, walkToLink, if_neg (not_not_intro is_dir), if_neg not_dot, if_neg not_dotdot, none_here] <;> rfl

lemma walk_link {target : Buf} (is_link : node (place ++ [c]) = some (.link target)) :
    walk node root links place (c :: rest) =
      match links with
      | 0 => none
      | links + 1 => walk node root links (startOf root place target) (pathComponents target ++ rest) := by
  cases links <;>
    rw [walk, walkToLink, if_neg (not_not_intro is_dir), if_neg not_dot, if_neg not_dotdot, is_link] <;> rfl

lemma walk_down {n : FileNode} (found : node (place ++ [c]) = some n) (no_link : ∀ target, n ≠ .link target) :
    walk node root links place (c :: rest) = walk node root links (place ++ [c]) rest := by
  apply walk_congr
  rw [walkToLink, if_neg (not_not_intro is_dir), if_neg not_dot, if_neg not_dotdot, found]
  cases n with
  | dir | file => rfl
  | link target => exact absurd rfl (no_link target)

end WalkSteps

abbrev PATH_LIMIT : ℕ := 4096
abbrev MAXSYMLINKS : ℕ := 40

def lookupPath (node : Location → Option FileNode) (root cwd : Location) (path : Buf) : Option Location :=
  if path = [] ∨ PATH_LIMIT ≤ path.length then none
  else walk node root MAXSYMLINKS (startOf root cwd path) (pathComponents path)

def entryPlace (node : Location → Option FileNode) (root cwd : Location) (path : Buf) : Option Location :=
  let cs := components SLASH path
  match cs.getLast? with
  | none => none
  | some name =>
    if name = dot ∨ name = dotdot ∨ path.getLast? = some SLASH ∨ PATH_LIMIT ≤ path.length then none
    else
      match walk node root MAXSYMLINKS (startOf root cwd path) cs.dropLast with
      | some dir => if node dir = some .dir then some (dir ++ [name]) else none
      | none => none

lemma dir_of_entryPlace {node : Location → Option FileNode} {root cwd place : Location} {path name : Buf}
    (made : entryPlace node root cwd path = some (place ++ [name])) : node place = some .dir := by
  rw [entryPlace] at made
  split at made
  · cases made
  split at made
  · cases made
  split at made
  · next dir _ =>
    split at made
    · next is_dir =>
      rw [← (List.append_inj' (Option.some.inj made) rfl).1]
      exact is_dir
    · cases made
  · cases made

def pathTo (place : Location) : Buf := if place = [] then [SLASH] else place.flatMap (SLASH :: ·)

lemma pathTo_append {place : Location} {name : Buf} {rest : Location} (below : place ≠ []) :
    pathTo (place ++ name :: rest) = pathTo place ++ SLASH :: (name ++ rest.flatMap (SLASH :: ·)) := by
  rw [pathTo, pathTo, if_neg below, if_neg (by simp), List.flatMap_append, List.flatMap_cons, List.cons_append]

lemma pathTo_cons {name : Buf} {rest : Location} :
    pathTo (name :: rest) = SLASH :: (name ++ rest.flatMap (SLASH :: ·)) := by
  rw [pathTo, if_neg (List.cons_ne_nil name rest), List.flatMap_cons, List.cons_append]

lemma components_names {place : Location} (names : ∀ name ∈ place, IsName name) :
    components SLASH (place.flatMap (SLASH :: ·)) = place := by
  induction place with
  | nil => rfl
  | cons name place ih =>
    obtain ⟨here, later⟩ := List.forall_mem_cons.mp names
    rw [List.flatMap_cons, List.cons_append, components_sep_cons]
    cases place with
    | nil =>
      rw [List.flatMap_nil, List.append_nil]
      exact components_of_no_sep here.nonempty here.noSlash
    | cons next place =>
      have rest := ih later
      rw [List.flatMap_cons, List.cons_append, components_sep_cons] at rest
      rw [List.flatMap_cons, List.cons_append, components_append_sep, rest,
        components_of_no_sep here.nonempty here.noSlash]
      rfl

namespace FileTree

variable {t : FileTree} {place : Location}

lemma dir_of_below {rest : Location} (something : t.node (place ++ rest) ≠ none) (below : rest ≠ []) :
    t.node place = some .dir := by
  induction rest using List.reverseRecOn with
  | nil => exact absurd rfl below
  | append_singleton rest name ih =>
    rw [← List.append_assoc] at something
    have above := t.parents _ _ something
    cases rest with
    | nil => rwa [List.append_nil] at above
    | cons c rest => exact ih (by rw [above]; exact Option.some_ne_none _) (List.cons_ne_nil c rest)

instance {name : Buf} : Decidable (IsName name) :=
  decidable_of_iff (name ≠ [] ∧ SLASH ∉ name ∧ name ≠ dot ∧ name ≠ dotdot)
    ⟨fun h => ⟨h.1, h.2.1, h.2.2.1, h.2.2.2⟩, fun h => ⟨h.nonempty, h.noSlash, h.notDot, h.notDotdot⟩⟩

def ofList (l : List (Location × FileNode)) (names : ∀ e ∈ l, ∀ name ∈ e.1, IsName name)
    (parents : ∀ e ∈ l, e.1 ≠ [] → l.lookup e.1.dropLast = some .dir) : FileTree where
  node place := l.lookup place
  names place found := by
    obtain ⟨n, is⟩ := Option.ne_none_iff_exists'.mp found
    exact names _ (mem_of_lookup is)
  parents place name found := by
    obtain ⟨n, is⟩ := Option.ne_none_iff_exists'.mp found
    have above := parents _ (mem_of_lookup is) (by simp)
    rwa [List.dropLast_concat] at above

end FileTree

end Macify.Lib
