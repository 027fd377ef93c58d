import Macify.Lib.LexicalPath
import Macify.Paths.Translate

/-!
# Containment

The guest should see the prefix directory and `/dev`, `/proc`, `/sys` and `/tmp`, and nothing else of the host. The
path that the kernel gets is one of these, with a rest of the guest path behind it, in which
`macify_translate_path` leaves `..` as it is. `kernel_path_contained_iff` says when the path stays contained.
-/

namespace Macify.Paths
open Lib Image

def normalized (path : Buf) : List Buf :=
  resolve (ascii ".") (ascii "..") [] (components slash path)

def PathEnv.guestDirs (env : PathEnv) : List Buf := env.macifyRoot :: passDirs

/-- After `.` and `..` are removed, the path lies in a directory that the guest sees. -/
def Contained (env : PathEnv) (path : Buf) : Prop :=
  ∃ dir ∈ env.guestDirs, components slash dir <+: normalized path

/-- The directory that a guest path is looked for in, and the part of the path that is looked for. -/
def PathEnv.base (env : PathEnv) (path : Buf) : Buf :=
  if inDir env.macifyRoot path then env.macifyRoot
  else (passDirs.find? fun dir => inDir dir path).getD env.macifyRoot

def PathEnv.rest (env : PathEnv) (path : Buf) : Buf :=
  if inDir env.macifyRoot path then path.drop env.macifyRoot.length
  else
    match passDirs.find? fun dir => inDir dir path with
    | some dir => path.drop dir.length
    | none => path

def PathEnv.reduced (env : PathEnv) (path : Buf) : Reduced Buf :=
  reduce (ascii ".") (ascii "..") (components slash (env.rest path))

def PathEnv.kept (env : PathEnv) (path : Buf) : List Buf :=
  let comps := components slash (env.base path)
  comps.take (comps.length - (env.reduced path).climb)

/-- After a climb the path is still in a directory that the guest sees, or its way down leads into one. -/
def PathEnv.ComesBack (env : PathEnv) (path : Buf) : Prop :=
  ∃ dir ∈ env.guestDirs, components slash dir <+: env.kept path ∨
    ∃ way, components slash dir = env.kept path ++ way ∧ way <+: (env.reduced path).rest

def plainDir (dir : Buf) : Bool :=
  (components slash dir).all fun c => decide (c ≠ ascii "." ∧ c ≠ ascii "..")

section Containment

variable {env : PathEnv} {path dir rest : Buf} {size : ℕ}

lemma inDir_split (inside : inDir dir path = true) :
    path = dir ++ path.drop dir.length ∧ (path.drop dir.length).head?.getD slash = slash := by
  obtain ⟨rest, rfl, next⟩ := inDir_iff.mp inside
  rw [List.drop_left]
  exact ⟨rfl, next⟩

lemma components_append (next : rest.head?.getD slash = slash) :
    components slash (dir ++ rest) = components slash dir ++ components slash rest := by
  cases rest with
  | nil => rw [List.append_nil, components_nil, List.append_nil]
  | cons c rest =>
    have sep : c = slash := next
    rw [sep, components_append_sep, components_sep_cons]

lemma find_passDirs : (∃ dir, passDirs.find? (fun dir => inDir dir path) = some dir ∧
      inDir dir path = true ∧ passesThrough path = true) ∨
    (passDirs.find? (fun dir => inDir dir path) = none ∧ passesThrough path = false) := by
  cases found : passDirs.find? fun dir => inDir dir path with
  | some dir =>
    have within : inDir dir path = true := @List.find?_some _ (fun dir => inDir dir path) _ _ found
    exact .inl ⟨dir, rfl, within, List.any_eq_true.mpr ⟨dir, List.mem_of_find?_eq_some found, within⟩⟩
  | none =>
    refine .inr ⟨rfl, ?_⟩
    rw [passesThrough, List.any_eq_false]
    exact fun dir mem => List.find?_eq_none.mp found dir mem

lemma base_mem : env.base path ∈ env.guestDirs := by
  unfold PathEnv.base
  split
  · exact List.mem_cons_self
  · cases found : passDirs.find? fun dir => inDir dir path with
    | some dir => exact List.mem_cons_of_mem _ (List.mem_of_find?_eq_some found)
    | none => exact List.mem_cons_self

lemma kernelPath_eq (unjailed : env.jailed = false) (rootAbs : env.macifyRoot.head? = some slash)
    (abs : path.head? = some slash) (fits : env.macifyRoot.length + path.length < size) :
    kernelPath env path size = env.base path ++ env.rest path ∧
      (env.rest path).head?.getD slash = slash := by
  have room : size ≠ 0 := Nat.ne_zero_of_lt fits
  have root := ne_nil_of_absolute rootAbs
  unfold PathEnv.base PathEnv.rest
  cases inside : inDir env.macifyRoot path with
  | true =>
    obtain ⟨split, next⟩ := inDir_split inside
    rw [kernelPath, translatePath_inside room unjailed root inside, Option.getD_some, snprintf,
      List.take_of_length_le (by omega), if_pos rfl, if_pos rfl]
    exact ⟨split, next⟩
  | false =>
    rw [kernelPath, translatePath_outside room unjailed root abs inside, if_neg Bool.false_ne_true,
      if_neg Bool.false_ne_true]
    rcases @find_passDirs path with ⟨dir, found, within, passes⟩ | ⟨found, stays⟩
    · rw [found, passes, if_pos rfl]
      exact inDir_split within
    · rw [found, stays, if_neg Bool.false_ne_true, Option.getD_some, snprintf,
        List.take_of_length_le (by rw [List.length_append]; omega)]
      exact ⟨rfl, by rw [abs, Option.getD_some]⟩

lemma plain_base (plain : plainDir env.macifyRoot = true) : plainDir (env.base path) = true := by
  have known : ∀ dir ∈ passDirs, plainDir dir = true := by decide +kernel
  rcases List.mem_cons.mp (@base_mem env path) with root | pass
  · rw [root]
    exact plain
  · exact known _ pass

lemma normalized_kernelPath (unjailed : env.jailed = false)
    (rootAbs : env.macifyRoot.head? = some slash) (plain : plainDir env.macifyRoot = true)
    (abs : path.head? = some slash) (fits : env.macifyRoot.length + path.length < size) :
    normalized (kernelPath env path size) = env.kept path ++ (env.reduced path).rest := by
  obtain ⟨eq, next⟩ := kernelPath_eq unjailed rootAbs abs fits
  have base := List.all_eq_true.mp (@plain_base env path plain)
  rw [normalized, eq, components_append next, resolve_append,
    resolve_plain fun c mem => of_decide_eq_true (base c mem), List.nil_append, resolve_eq]
  rfl

/-- Exactly when the guest path does not climb above its base, or comes back after the climb. -/
theorem kernel_path_contained_iff (unjailed : env.jailed = false)
    (rootAbs : env.macifyRoot.head? = some slash) (plain : plainDir env.macifyRoot = true)
    (abs : path.head? = some slash) (fits : env.macifyRoot.length + path.length < size) :
    Contained env (kernelPath env path size) ↔
      (env.reduced path).climb = 0 ∨ env.ComesBack path := by
  rw [Contained, normalized_kernelPath unjailed rootAbs plain abs fits]
  constructor
  · rintro ⟨dir, mem, inside⟩
    exact .inr ⟨dir, mem, isPrefix_append_iff.mp inside⟩
  · rintro (level | ⟨dir, mem, back⟩)
    · refine ⟨env.base path, base_mem, ?_⟩
      rw [PathEnv.kept, level, Nat.sub_zero, List.take_length]
      exact List.prefix_append _ _
    · exact ⟨dir, mem, isPrefix_append_iff.mpr back⟩

theorem kernel_path_contained_iff_level :
    Contained ⟨false, none, ascii "/p"⟩ (kernelPath ⟨false, none, ascii "/p"⟩ (ascii "/a/../b") 64) :=
  (kernel_path_contained_iff rfl (by decide) (by decide +kernel) (by decide) (by decide)).mpr
    (.inl (by decide +kernel))

/-- Paths that leave the prefix: translated, in the prefix already, and passed through. -/
theorem kernel_path_escapes :
    let env : PathEnv := ⟨false, none, ascii "/home/u/.macify"⟩
    plainDir env.macifyRoot = true ∧
      ∀ path ∈ [ascii "/../../../etc/passwd", ascii "/home/u/.macify/../notes", ascii "/dev/../etc/passwd"],
        ¬ Contained env (kernelPath env path 4096) := by
  refine ⟨by decide +kernel, ?_⟩
  have escaped : ∀ path ∈
      [ascii "/../../../etc/passwd", ascii "/home/u/.macify/../notes", ascii "/dev/../etc/passwd"],
      ∀ dir ∈ PathEnv.guestDirs ⟨false, none, ascii "/home/u/.macify"⟩,
        (components slash dir).isPrefixOf
          (normalized (kernelPath ⟨false, none, ascii "/home/u/.macify"⟩ path 4096)) = false := by
    decide +kernel
  rintro path mem ⟨dir, known, inside⟩
  exact Bool.false_ne_true ((escaped path mem dir known).symm.trans (List.isPrefixOf_iff_prefix.mpr inside))

end Containment

end Macify.Paths
