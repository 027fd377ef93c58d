import Macify.Lib.FileTree
import Macify.Exec.Shebang

/-!
# The jail

`macify-jail` (`src/jail.c`) runs the loader in a `chroot` of the prefix. The argument that names the guest is looked
up on the host first. A file outside of the prefix is mirrored and its canonical path passed on; for a file inside,
the argument is passed on as it is, and names the same file only if the prefix leads back to the root. The jail
makes one symbolic link for that, `/home/<user>/.macify`. `guest_path_iff` says for which arguments that is enough:
`Jail.Leads` follows the names of the argument from the new root, and `Jail.undone_of_home` has the prefix that the
link is made for.

`Jail.tree` is what the preparations have made of the file tree.
-/

namespace Macify.Exec
open Lib Image Paths

abbrev MINUS : UInt8 := 0x2D

def loaderFlags : List Buf :=
  [ascii "-v", ascii "--verbose", ascii "-q", ascii "--quiet", ascii "--no-fast-path", ascii "-h", ascii "--help"]

def guestPathFrom : ℕ → List Buf → Option ℕ
  | _, [] => none
  | i, arg :: rest =>
    if arg.head? = some MINUS then
      if arg = ascii "--" then if rest = [] then none else some (i + 1)
      else if loaderFlags.contains arg then guestPathFrom (i + 1) rest
      else none
    else some i

def guestPathIndex (argv : List Buf) : Option ℕ := guestPathFrom 2 (argv.drop 2)

/-- The situation of a call. `root` is the jail's root, which has been looked up, and `home` the value of `HOME`. -/
structure Jail where
  host : FileTree
  tree : FileTree
  root : Location
  cwd : Location
  home : Option Buf
  host_root : host.node root = some .dir
  tree_root : tree.node root = some .dir

variable (j : Jail)

def Jail.realpath (arg : Buf) : Option Location :=
  (lookupPath j.host.node [] j.cwd arg).filter fun place => decide ((pathTo place).length < PATH_MAX)

def isInside (root guestHost : Buf) : Bool :=
  root.isPrefixOf guestHost && (root.length == 1 || guestHost[root.length]? == some slash)

/-- What is at the guest's path already is left alone, unless it is the empty file of an earlier mirror. -/
def Jail.present (guest : Location) : Bool :=
  match j.host.node (j.root ++ guest) with
  | some (.file _ size) => size != 0
  | some (.link _) => true
  | _ => false

def Jail.guestArgs (argv : List Buf) : Option (List Buf) :=
  match guestPathIndex argv with
  | none => some argv
  | some i =>
    match (argv[i]?).bind j.realpath with
    | none => some argv
    | some guest =>
      if isInside (pathTo j.root) (pathTo guest) || j.present guest then some argv
      else
        match j.host.node guest with
        | some (.file _ _) => some (argv.set i (pathTo guest))
        | _ => none

def jailedLoader : Buf := ascii "/usr/libexec/macify/macify"

def Jail.loaderArgs (argv : List Buf) : Option (List Buf) :=
  (j.guestArgs argv).map fun argv => (argv.set 1 jailedLoader).drop 1

def Jail.base : Buf :=
  match j.home with
  | some h => if h.contains slash then (h.reverse.takeWhile (· != slash)).reverse else ascii "user"
  | none => ascii "user"

def Jail.linkPath : Buf :=
  let hp := snprintf PATH_MAX (pathTo j.root ++ ascii "/home/" ++ j.base)
  snprintf PATH_MAX (hp ++ ascii "/.macify")

def Jail.alias : Option Location :=
  (entryPlace j.tree.node [] j.cwd j.linkPath).filter fun place => decide (j.tree.node place ≠ some .dir)

def Jail.node : Location → Option FileNode :=
  match j.alias with
  | none => j.tree.node
  | some place => Function.update j.tree.node place (some (.link [slash]))

def Jail.lookup (path : Buf) : Option Location := lookupPath j.node j.root j.root path

def Jail.Starts (argv : List Buf) (i inode : ℕ) : Prop :=
  ∃ args path place size, j.loaderArgs argv = some args ∧ args[i - 1]? = some path ∧
    j.lookup path = some place ∧ j.node place = some (.file inode size)

/-- The names `cs` lead from a place in the jail to `last`, through directories and along `links` symbolic links. The
    place of the alias stands for the root, and any other link for its target, which is looked up in the jail too. -/
inductive Jail.Leads : Location → List Buf → ℕ → Location → Prop
  | here {place} : Leads place [] 0 place
  | dot {place cs links last} (dir : j.tree.node place = some .dir) (rest : Leads place cs links last) :
      Leads place (dot :: cs) links last
  | up {place cs links last} (dir : j.tree.node place = some .dir)
      (rest : Leads (if place = j.root then place else place.dropLast) cs links last) :
      Leads place (dotdot :: cs) links last
  | toRoot {place c cs links last} (dir : j.tree.node place = some .dir) (not_dot : c ≠ Lib.dot)
      (not_dotdot : c ≠ dotdot) (made : j.alias = some (place ++ [c])) (rest : Leads j.root cs links last) :
      Leads place (c :: cs) (links + 1) last
  | link {place c cs links last target} (dir : j.tree.node place = some .dir) (other : j.alias ≠ some (place ++ [c]))
      (is_link : j.tree.node (place ++ [c]) = some (.link target))
      (rest : Leads (startOf j.root place target) (pathComponents target ++ cs) links last) :
      Leads place (c :: cs) (links + 1) last
  | down {place c cs links last n} (dir : j.tree.node place = some .dir) (other : j.alias ≠ some (place ++ [c]))
      (found : j.tree.node (place ++ [c]) = some n) (no_link : ∀ target, n ≠ .link target)
      (rest : Leads (place ++ [c]) cs links last) : Leads place (c :: cs) links last

/-- The names of the argument lead from the jail's root to the file, along no more symbolic links than the kernel
    follows. -/
def Jail.Undone (arg : Buf) (inode : ℕ) : Prop :=
  ∃ links place size, j.Leads j.root (pathComponents arg) links place ∧
    j.tree.node place = some (.file inode size) ∧ links ≤ MAXSYMLINKS

namespace Jail

variable {j} {place : Location} {inode size : ℕ}

lemma alias_not_dir (made : j.alias = some place) : j.tree.node place ≠ some .dir :=
  of_decide_eq_true (Option.filter_eq_some_iff.mp made).2

lemma node_of_alias (made : j.alias = some place) : j.node place = some (.link [slash]) := by
  rw [node, made]
  exact Function.update_self place _ _

lemma node_of_ne (other : j.alias ≠ some place) : j.node place = j.tree.node place := by
  rw [node]
  cases made : j.alias with
  | none => rfl
  | some there => exact Function.update_of_ne (fun eq => other (by rw [made, eq])) _ _

/-- Nothing but the alias is new in the jail. -/
lemma node_eq_iff {n : FileNode} (no_link : ∀ target, n ≠ .link target)
    (kept : j.tree.node place = some n → j.alias ≠ some place) :
    j.node place = some n ↔ j.tree.node place = some n := by
  constructor
  · intro is
    rwa [← node_of_ne]
    intro made
    rw [node_of_alias made] at is
    exact no_link _ (Option.some.inj is).symm
  · intro is
    rwa [node_of_ne (kept is)]

lemma node_dir_iff : j.node place = some .dir ↔ j.tree.node place = some .dir :=
  node_eq_iff nofun fun is made => alias_not_dir made is

lemma isName_of_found {c : Buf} {n : FileNode} (found : j.tree.node (place ++ [c]) = some n) : IsName c :=
  j.tree.names _ (by rw [found]; exact Option.some_ne_none n) c (by simp)

section Walking

variable {last : Location} {c : Buf} {cs : List Buf} {links k : ℕ}

/-- Following the alias takes one of the links, and goes on from the root. -/
lemma walk_alias (is_dir : j.node place = some .dir) (not_dot : c ≠ dot) (not_dotdot : c ≠ dotdot)
    (made : j.alias = some (place ++ [c])) :
    walk j.node j.root (k + 1) place (c :: cs) = walk j.node j.root k j.root cs := by
  rw [walk_link is_dir not_dot not_dotdot (node_of_alias made)]
  exact walk_dot (node_dir_iff.mpr j.tree_root)

/-- The kernel's walk in the jail ends where the names lead. -/
lemma Leads.walk (leads : j.Leads place cs links last) (few : links ≤ k) :
    walk j.node j.root k place cs = some last := by
  induction leads generalizing k with
  | here => exact walk_nil
  | dot dir rest ih =>
    rw [walk_dot (node_dir_iff.mpr dir)]
    exact ih few
  | up dir rest ih =>
    rw [walk_dotdot (node_dir_iff.mpr dir)]
    exact ih few
  | toRoot dir not_dot not_dotdot made rest ih =>
    obtain ⟨k, rfl⟩ := Nat.exists_eq_succ_of_ne_zero (Nat.ne_zero_of_lt few)
    rw [walk_alias (node_dir_iff.mpr dir) not_dot not_dotdot made]
    exact ih (by omega)
  | link dir other is_link rest ih =>
    obtain ⟨k, rfl⟩ := Nat.exists_eq_succ_of_ne_zero (Nat.ne_zero_of_lt few)
    have name := isName_of_found is_link
    rw [walk_link (node_dir_iff.mpr dir) name.notDot name.notDotdot ((node_of_ne other).trans is_link)]
    exact ih (by omega)
  | down dir other found no_link rest ih =>
    have name := isName_of_found found
    rw [walk_down (node_dir_iff.mpr dir) name.notDot name.notDotdot ((node_of_ne other).trans found) no_link]
    exact ih few

/-- The names lead where the kernel's walk in the jail ends. -/
lemma leads_of_walk (walks : Lib.walk j.node j.root k place cs = some last) :
    ∃ links ≤ k, j.Leads place cs links last := by
  -- the walk begins anew at a link, with one link less to follow
  induction k using Nat.strong_induction_on generalizing place cs with
  | _ k again =>
  induction cs generalizing place with
  | nil =>
    rw [walk_nil] at walks
    cases walks
    exact ⟨0, Nat.zero_le k, .here⟩
  | cons c cs ih =>
    by_cases is_dir : j.node place = some .dir
    case neg =>
      rw [walk_of_not_dir is_dir] at walks
      cases walks
    have dir := node_dir_iff.mp is_dir
    by_cases not_dot : c = dot
    · subst not_dot
      rw [walk_dot is_dir] at walks
      obtain ⟨links, few, rest⟩ := ih walks
      exact ⟨links, few, .dot dir rest⟩
    by_cases not_dotdot : c = dotdot
    · subst not_dotdot
      rw [walk_dotdot is_dir] at walks
      obtain ⟨links, few, rest⟩ := ih walks
      exact ⟨links, few, .up dir rest⟩
    cases found : j.node (place ++ [c]) with
    | none =>
      rw [walk_none is_dir not_dot not_dotdot found] at walks
      cases walks
    | some n =>
      by_cases made : j.alias = some (place ++ [c])
      · cases k with
        | zero =>
          rw [walk_link is_dir not_dot not_dotdot (node_of_alias made)] at walks
          cases walks
        | succ k =>
          rw [walk_alias is_dir not_dot not_dotdot made] at walks
          obtain ⟨links, few, rest⟩ := again k (Nat.lt_succ_self k) walks
          exact ⟨links + 1, Nat.succ_le_succ few, .toRoot dir not_dot not_dotdot made rest⟩
      have there := (node_of_ne made).symm.trans found
      cases n with
      | link target =>
        rw [walk_link is_dir not_dot not_dotdot found] at walks
        cases k with
        | zero => cases walks
        | succ k =>
          obtain ⟨links, few, rest⟩ := again k (Nat.lt_succ_self k) walks
          exact ⟨links + 1, Nat.succ_le_succ few, .link dir made there rest⟩
      | dir | file =>
        rw [walk_down is_dir not_dot not_dotdot found (by simp)] at walks
        obtain ⟨links, few, rest⟩ := ih walks
        exact ⟨links, few, .down dir made there (by simp) rest⟩

end Walking

lemma alias_ne_of_dir (dir : j.tree.node place = some .dir) : j.alias ≠ some place :=
  fun made => alias_not_dir made dir

/-- What is reached from elsewhere is not in the place of the alias. -/
lemma Leads.alias_ne {last : Location} {cs : List Buf} {links : ℕ} (leads : j.Leads place cs links last)
    (before : j.alias ≠ some place) : j.alias ≠ some last := by
  induction leads with
  | here => exact before
  | dot dir rest ih => exact ih before
  | @up place cs links last dir rest ih =>
    apply ih
    split
    · exact before
    · rcases List.eq_nil_or_concat' place with top | ⟨above, name, rfl⟩
      · rw [top, List.dropLast_nil, ← top]
        exact before
      · rw [List.dropLast_concat]
        exact alias_ne_of_dir (j.tree.parents above name (by rw [dir]; exact Option.some_ne_none _))
  | toRoot dir not_dot not_dotdot made rest ih => exact ih (alias_ne_of_dir j.tree_root)
  | link dir other is_link rest ih =>
    apply ih
    rw [startOf]
    split
    · exact alias_ne_of_dir j.tree_root
    · exact before
  | down dir other found no_link rest ih => exact ih other

section Guest

variable {arg : Buf} {inode : ℕ}

/-- The lookup in the jail finds the file just if the names of the argument lead there. -/
lemma lookup_iff (nonempty : arg ≠ []) (short : arg.length < PATH_LIMIT) :
    (∃ place size, j.lookup arg = some place ∧ j.node place = some (.file inode size)) ↔ j.Undone arg inode := by
  have start : startOf j.root j.root arg = j.root := ite_self _
  have looks : j.lookup arg = walk j.node j.root MAXSYMLINKS j.root (pathComponents arg) := by
    rw [lookup, lookupPath, if_neg (not_or.mpr ⟨nonempty, Nat.not_le.mpr short⟩), start]
  rw [looks]
  have outside {links place} (leads : j.Leads j.root (pathComponents arg) links place) :=
    node_of_ne (leads.alias_ne (alias_ne_of_dir j.tree_root))
  constructor
  · rintro ⟨place, size, walks, file⟩
    obtain ⟨links, few, leads⟩ := leads_of_walk walks
    exact ⟨links, place, size, leads, (outside leads).symm.trans file, few⟩
  · rintro ⟨links, place, size, leads, file, few⟩
    exact ⟨place, size, leads.walk few, (outside leads).trans file⟩

lemma guestPathFrom_ge {i k : ℕ} {args : List Buf} (found : guestPathFrom i args = some k) : i ≤ k := by
  induction args generalizing i with
  | nil => cases found
  | cons arg args ih =>
    rw [guestPathFrom] at found
    split_ifs at found
    · cases found
      exact Nat.le_succ i
    · exact (Nat.le_succ i).trans (ih found)
    · cases found
      exact le_refl _

/-- A place below the root is recognised by its path. -/
lemma isInside_of_prefix {root place : Location} (inside : root <+: place) (other : root ≠ place) :
    isInside (pathTo root) (pathTo place) = true := by
  obtain ⟨rest, rfl⟩ := inside
  cases rest with
  | nil => exact absurd (List.append_nil root).symm other
  | cons name rest =>
    by_cases top : root = []
    · rw [top, List.nil_append, pathTo_cons]
      rfl
    · rw [pathTo_append top, isInside, Bool.and_eq_true, Bool.or_eq_true]
      refine ⟨List.isPrefixOf_iff_prefix.mpr (List.prefix_append _ _), .inr ?_⟩
      rw [List.getElem?_append_right (le_refl _), Nat.sub_self]
      rfl

/-- For a guest inside, the loader gets its path as it is. -/
lemma loaderArgs_of_inside {argv : List Buf} {i : ℕ} {guest : Location} (index : guestPathIndex argv = some i)
    (is : argv[i]? = some arg) (found : j.realpath arg = some guest)
    (inside : isInside (pathTo j.root) (pathTo guest) = true) :
    ∃ args, j.loaderArgs argv = some args ∧ args[i - 1]? = some arg := by
  have ge : 2 ≤ i := guestPathFrom_ge index
  have same : j.guestArgs argv = some argv := by
    rw [guestArgs, index]
    dsimp only
    rw [is, Option.bind_some, found]
    dsimp only
    rw [inside]
    rfl
  refine ⟨_, by rw [loaderArgs, same]; rfl, ?_⟩
  rw [List.getElem?_drop, show 1 + (i - 1) = i by omega, List.getElem?_set_ne (by omega), is]

end Guest

section Home

variable {p q rest last : Location} {cs : List Buf} {links : ℕ}

/-- Names of the tree lead down to what they name, if nothing on the way is in the place of the alias. -/
lemma leads_down {n : FileNode} (found : j.tree.node (p ++ q) = some n) (no_link : ∀ target, n ≠ .link target)
    (off : ∀ q', q' ≠ [] → q' <+: q → j.alias ≠ some (p ++ q')) (rest : j.Leads (p ++ q) cs links last) :
    j.Leads p (q ++ cs) links last := by
  induction q generalizing p with
  | nil =>
    rw [List.append_nil] at rest
    exact rest
  | cons c q ih =>
    have something : j.tree.node (p ++ c :: q) ≠ none := by
      rw [found]
      exact Option.some_ne_none n
    have dir := FileTree.dir_of_below something (List.cons_ne_nil c q)
    rw [List.append_cons] at found rest something
    have later := ih found (fun q' nonempty begins => by
      rw [List.append_assoc]
      exact off (c :: q') (List.cons_ne_nil c q') ((List.prefix_cons_inj c).mpr begins)) rest
    have other := off [c] (List.cons_ne_nil c []) (List.prefix_append [c] q)
    cases q with
    | nil => exact .down dir other (by rw [← found, List.append_nil]) no_link later
    | cons c' q => exact .down dir other (FileTree.dir_of_below something (List.cons_ne_nil c' q)) (by simp) later

/-- In a root that the alias is made for, the root's own names lead back to it. -/
lemma leads_root (home : j.alias = some (j.root ++ j.root)) (rest : j.Leads j.root cs links last) :
    j.Leads j.root (j.root ++ cs) (links + 1) last := by
  rcases List.eq_nil_or_concat' j.root with top | ⟨above, name, eq⟩
  · have at_root : j.alias = some j.root := by rw [home, top, List.append_nil]
    exact absurd at_root (alias_ne_of_dir j.tree_root)
  have made : j.alias = some (j.root ++ above ++ [name]) := by rw [home, List.append_assoc, ← eq]
  have parent : j.tree.node (j.root ++ above) = some .dir :=
    dir_of_entryPlace (Option.filter_eq_some_iff.mp made).1
  have isName := j.tree.names j.root (by rw [j.tree_root]; exact Option.some_ne_none _) name (by rw [eq]; simp)
  have hop : j.Leads (j.root ++ above) (name :: cs) (links + 1) last :=
    .toRoot parent isName.notDot isName.notDotdot made rest
  rw [show j.root ++ cs = above ++ name :: cs by rw [eq, List.append_assoc]; rfl]
  refine leads_down parent (by simp) (fun q' _ begins there => ?_) hop
  rw [made, List.append_assoc] at there
  have same := congrArg List.length (List.append_cancel_left (Option.some.inj there))
  have short := begins.length_le
  rw [List.length_append, List.length_singleton] at same
  omega

/-- A root that the alias is made for: behind the root's own path, an argument is undone if the rest of it leads from
    the root to the file. -/
lemma undone_of_home {more : Buf} (home : j.alias = some (j.root ++ j.root))
    (leads : j.Leads j.root (pathComponents more) links place)
    (file : j.tree.node place = some (.file inode size)) (few : links < MAXSYMLINKS) :
    j.Undone (pathTo j.root ++ SLASH :: more) inode := by
  have below : j.root ≠ [] := fun top => alias_ne_of_dir j.tree_root (by rw [home, top, List.append_nil])
  have some_more : more ≠ [] := by
    rintro rfl
    cases leads
    rw [j.tree_root] at file
    cases file
  have names := j.tree.names j.root (by rw [j.tree_root]; exact Option.some_ne_none _)
  have split : pathComponents (pathTo j.root ++ SLASH :: more) = j.root ++ pathComponents more := by
    rw [pathComponents, pathComponents, components_append_sep, pathTo, if_neg below, components_names names,
      List.getLast?_append_of_ne_nil _ (List.cons_ne_nil _ _), List.getLast?_cons_of_ne_nil some_more,
      List.append_assoc]
  refine ⟨links + 1, place, size, ?_, file, few⟩
  rw [split]
  exact leads_root home leads

end Home

end Jail

def homeTree : FileTree :=
  let root := [ascii "home", ascii "u", ascii ".macify"]
  FileTree.ofList
    [([], .dir), ([ascii "home"], .dir), ([ascii "home", ascii "u"], .dir), (root, .dir),
      (root ++ [ascii "home"], .dir), (root ++ [ascii "home", ascii "u"], .dir), (root ++ [ascii "f"], .file 7 1),
      (root ++ [ascii "bin"], .dir), (root ++ [ascii "bin", ascii "g"], .file 8 1),
      (root ++ [ascii "bin", ascii "jq"], .link (ascii "../Cellar/jq")), (root ++ [ascii "Cellar"], .dir),
      (root ++ [ascii "Cellar", ascii "jq"], .file 9 1)]
    (by decide) (by decide)

def otherTree : FileTree :=
  let root := [ascii "opt"]
  FileTree.ofList
    [([], .dir), (root, .dir), (root ++ [ascii "home"], .dir), (root ++ [ascii "home", ascii "u"], .dir),
      (root ++ [ascii "f"], .file 7 1)]
    (by decide) (by decide)

def homeJail (cwd : Location) : Jail :=
  ⟨homeTree, homeTree, [ascii "home", ascii "u", ascii ".macify"], cwd, some (ascii "/home/u"), by decide, by decide⟩

def otherJail : Jail :=
  ⟨otherTree, otherTree, [ascii "opt"], [], some (ascii "/home/u"), by decide, by decide⟩

def jailArgs (arg : Buf) : List Buf := [ascii "macify-jail", ascii "macify", ascii "-v", arg]

lemma Jail.not_starts {j : Jail} {argv args : List Buf} {path : Buf} {i inode : ℕ}
    (passed : j.loaderArgs argv = some args) (is : args[i - 1]? = some path) (lost : j.lookup path = none) :
    ¬ j.Starts argv i inode := by
  rintro ⟨args', path', place, size, passed', is', looks, -⟩
  cases passed.symm.trans passed'
  cases is.symm.trans is'
  cases lost.symm.trans looks

end Macify.Exec
