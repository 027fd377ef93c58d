import Macify.Image.Types

/-!
# Path translation

Model of `macify_translate_path` (`src/prefix.c`). An absolute path is put behind the prefix directory, unless it lies
in it already or in one of four directories that are left alone. Paths are byte strings without their terminator,
and the output is what `snprintf` leaves of it in a buffer.

The rule for `$HOME/Library` is tested after the path is known not to start with a slash. `home_rule_iff` says for
which paths the outcome is the documented one all the same.
-/

namespace Macify.Paths
open Lib Image

abbrev slash : UInt8 := 0x2F

structure PathEnv where
  jailed : Bool
  home : Option Buf
  macifyRoot : Buf
  deriving DecidableEq

def snprintf (size : ℕ) (s : Buf) : Buf := s.take (size - 1)

def inDir (dir path : Buf) : Bool :=
  dir.isPrefixOf path && decide ((path.drop dir.length).head?.getD slash = slash)

def passDirs : List Buf := [ascii "/dev", ascii "/proc", ascii "/sys", ascii "/tmp"]

def passesThrough (path : Buf) : Bool := passDirs.any fun dir => inDir dir path

def translatePath (env : PathEnv) (path : Buf) (outSize : ℕ) : Option Buf :=
  if outSize = 0 then none
  else if env.jailed then some (snprintf outSize path)
  else if env.macifyRoot = [] then none
  else if inDir env.macifyRoot path then some (snprintf outSize path)
  else if path.head? ≠ some slash then
    match env.home with
    | none => none
    | some home =>
      if home.isPrefixOf path ∧ (path.drop home.length).head? = some slash then
        if inDir (ascii "Library") (path.drop (home.length + 1)) then
          some (snprintf outSize (env.macifyRoot ++ path.drop home.length))
        else none
      else none
  else if passesThrough path then none
  else some (snprintf outSize (env.macifyRoot ++ path))

def kernelPath (env : PathEnv) (path : Buf) (outSize : ℕ) : Buf :=
  (translatePath env path outSize).getD path

section Absolute

variable {env : PathEnv} {path dir : Buf} {size : ℕ}

lemma inDir_iff : inDir dir path = true ↔ ∃ rest, path = dir ++ rest ∧ rest.head?.getD slash = slash := by
  rw [inDir, Bool.and_eq_true, List.isPrefixOf_iff_prefix, decide_eq_true_iff]
  constructor
  · rintro ⟨⟨rest, rfl⟩, next⟩
    rw [List.drop_left] at next
    exact ⟨rest, rfl, next⟩
  · rintro ⟨rest, rfl, next⟩
    rw [List.drop_left]
    exact ⟨⟨rest, rfl⟩, next⟩

lemma ne_nil_of_absolute (abs : path.head? = some slash) : path ≠ [] := by
  rintro rfl
  cases abs

lemma translatePath_outside (room : size ≠ 0) (unjailed : env.jailed = false)
    (root : env.macifyRoot ≠ []) (abs : path.head? = some slash)
    (outside : inDir env.macifyRoot path = false) :
    translatePath env path size =
      if passesThrough path then none else some (snprintf size (env.macifyRoot ++ path)) := by
  rw [translatePath, if_neg room, unjailed, if_neg Bool.false_ne_true, if_neg root, outside,
    if_neg Bool.false_ne_true, if_neg (not_not.mpr abs)]

lemma translatePath_inside (room : size ≠ 0) (unjailed : env.jailed = false)
    (root : env.macifyRoot ≠ []) (inside : inDir env.macifyRoot path = true) :
    translatePath env path size = some (snprintf size path) := by
  rw [translatePath, if_neg room, unjailed, if_neg Bool.false_ne_true, if_neg root, if_pos inside]

end Absolute

/-! ## Buffers

A buffer that is too small cuts the translation off and changes nothing else. -/

section Room

variable {env : PathEnv} {path target dir : Buf} {size : ℕ}

def guestFile (env : PathEnv) (path : Buf) : Option Buf :=
  translatePath env path (env.macifyRoot.length + path.length + 1)

lemma snprintf_of_lt (lt : path.length < size) : snprintf size path = path :=
  List.take_of_length_le (by omega)

lemma snprintf_snprintf : snprintf size (snprintf size path) = snprintf size path := by
  rw [snprintf, snprintf, List.take_take, min_self]

lemma inDir_snprintf (inside : inDir dir path = true) (room : dir.length < size) :
    inDir dir (snprintf size path) = true := by
  obtain ⟨rest, rfl, next⟩ := inDir_iff.mp inside
  refine inDir_iff.mpr ⟨rest.take (size - 1 - dir.length), ?_, ?_⟩
  · rw [snprintf, List.take_append, List.take_of_length_le (by omega)]
  · cases rest with
    | nil => rw [List.take_nil]; rfl
    | cons b rest =>
      cases size - 1 - dir.length with
      | zero => rfl
      | succ n => exact next

def Inside (env : PathEnv) (path : Buf) : Prop :=
  env.jailed = true ∨ (env.macifyRoot ≠ [] ∧ inDir env.macifyRoot path = true)

lemma Inside.translatePath (inside : Inside env path) (room : size ≠ 0) :
    translatePath env path size = some (snprintf size path) := by
  rw [Paths.translatePath, if_neg room]
  rcases inside with jailed | ⟨root, inside⟩
  · rw [if_pos jailed]
  · rw [if_neg root, if_pos inside, ite_self]

lemma Inside.snprintf (inside : Inside env path) (room : env.macifyRoot.length < size) :
    Inside env (snprintf size path) :=
  inside.imp_right fun ⟨root, inside⟩ => ⟨root, inDir_snprintf inside room⟩

/-- The path is left alone, or it stands for a path in the prefix that ends in the same way. -/
lemma translatePath_cases (env : PathEnv) (path : Buf) :
    (∀ size, translatePath env path size = none) ∨
      ∃ q, Inside env q ∧ q.length ≤ env.macifyRoot.length + path.length ∧
        q.getLast? = path.getLast? ∧
        ∀ size, size ≠ 0 → translatePath env path size = some (snprintf size q) := by
  by_cases inside : Inside env path
  · exact .inr ⟨path, inside, Nat.le_add_left _ _, rfl, fun size room => inside.translatePath room⟩
  obtain ⟨unjailed, outside⟩ := not_or.mp inside
  unfold translatePath
  simp only [unjailed, Bool.false_eq_true, if_false]
  by_cases root : env.macifyRoot = []
  · exact .inl fun size => by rw [if_pos root, ite_self]
  have behind : ∀ rest : Buf, rest.head? = some slash → Inside env (env.macifyRoot ++ rest) :=
    fun rest next => .inr ⟨root, inDir_iff.mpr ⟨rest, rfl, by rw [next]; rfl⟩⟩
  simp only [root, not_and.mp outside root, Bool.false_eq_true, if_false]
  by_cases abs : path.head? = some slash
  · simp only [abs, ne_eq, not_true_eq_false, if_false]
    by_cases passes : passesThrough path
    · exact .inl fun size => by rw [if_pos passes, ite_self]
    · refine .inr ⟨_, behind path abs, by rw [List.length_append], ?_, fun size room => by
        rw [if_neg room, if_neg passes]⟩
      exact List.getLast?_append_of_ne_nil _ (ne_nil_of_absolute abs)
  · simp only [ne_eq, abs, not_false_eq_true, if_true]
    cases env.home with
    | none => exact .inl fun size => ite_self _
    | some home =>
      dsimp only
      by_cases under : home.isPrefixOf path ∧ (path.drop home.length).head? = some slash
      · simp only [under, and_self, if_true]
        by_cases library : inDir (ascii "Library") (path.drop (home.length + 1))
        · refine .inr ⟨_, behind _ under.2, ?_, ?_, fun size room => by rw [if_neg room, if_pos library]⟩
          · rw [List.length_append, List.length_drop]
            omega
          · have more := ne_nil_of_absolute under.2
            rw [List.getLast?_append_of_ne_nil _ more, List.getLast?_drop, if_neg]
            exact fun le => more (List.drop_of_length_le le)
        · exact .inl fun size => by rw [if_neg library, ite_self]
      · exact .inl fun size => by rw [if_neg under, ite_self]

lemma guestFile_spec (file : guestFile env path = some target) :
    Inside env target ∧ target.getLast? = path.getLast? ∧
      ∀ size, size ≠ 0 → translatePath env path size = some (snprintf size target) := by
  rcases translatePath_cases env path with none | ⟨q, inside, len, last, found⟩
  · rw [guestFile, none] at file
    cases file
  · rw [guestFile, found _ (Nat.succ_ne_zero _), snprintf_of_lt (by omega), Option.some.injEq] at file
    subst file
    exact ⟨inside, last, found⟩

lemma kernelPath_idem (room : env.jailed = true ∨ env.macifyRoot.length < size) :
    kernelPath env (kernelPath env path size) size = kernelPath env path size := by
  unfold kernelPath
  by_cases zero : size = 0
  · subst zero
    rfl
  rcases translatePath_cases env path with none | ⟨q, inside, -, -, found⟩
  · rw [none, Option.getD_none, none, Option.getD_none]
  · have kept : Inside env (snprintf size q) := room.elim .inl inside.snprintf
    rw [found size zero, Option.getD_some, kept.translatePath zero, Option.getD_some, snprintf_snprintf]

end Room

/-- `Library` and what is in it, when it fits, is found under the prefix, and everything else is left alone. -/
def HomeRule (env : PathEnv) (y : Buf) (size : ℕ) (result : Option Buf) : Prop :=
  if inDir (ascii "Library") y then
    env.macifyRoot.length + 1 + y.length < size → result = some (env.macifyRoot ++ slash :: y)
  else result = none

/-- Under `Library` the outcome is the documented one only where the buffer cuts off the output. -/
def HomeRuleMet (env : PathEnv) (path y : Buf) (size : ℕ) : Prop :=
  if inDir (ascii "Library") y then
    size ≤ env.macifyRoot.length + 1 + y.length ∨
      (size = env.macifyRoot.length + y.length + 2 ∧ passesThrough path = false ∧ slash :: y <+: path)
  else size = 0 ∨ passesThrough path = true

section Home

variable {env : PathEnv} {home root path y : Buf} {size : ℕ}

lemma snprintf_eq_iff (longer : y.length + 1 < path.length) (fits : root.length + 1 + y.length < size) :
    snprintf size (root ++ path) = root ++ slash :: y ↔
      size = root.length + y.length + 2 ∧ slash :: y <+: path := by
  have split : size - 1 = root.length + (size - 1 - root.length) := by omega
  rw [snprintf, split, List.take_length_add_append, List.append_cancel_left_eq]
  constructor
  · intro eq
    have len := congrArg List.length eq
    rw [List.length_take, List.length_cons] at len
    exact ⟨by omega, eq ▸ List.take_prefix _ _⟩
  · intro ⟨exact, begins⟩
    rw [List.prefix_iff_eq_take] at begins
    rw [begins]
    congr 1
    rw [List.length_cons]
    omega

lemma home_rule_no_room : HomeRule env y 0 none ∧ HomeRuleMet env path y 0 := by
  unfold HomeRule HomeRuleMet
  split
  · exact ⟨fun fits => absurd fits (Nat.not_lt_zero _), .inl (Nat.zero_le _)⟩
  · exact ⟨rfl, .inl rfl⟩

/-- For every absolute home directory and every path in it that is not in the prefix. -/
theorem home_rule_iff (unjailed : env.jailed = false) (homeDir : env.home = some home)
    (homeAbs : env.home.bind List.head? = some slash) (rootAbs : env.macifyRoot.head? = some slash)
    (path_eq : path = home ++ slash :: y) (outside : inDir env.macifyRoot path = false) :
    HomeRule env y size (translatePath env path size) ↔ HomeRuleMet env path y size := by
  by_cases room : size = 0
  · subst room
    have ⟨rule, met⟩ := @home_rule_no_room env path y
    exact iff_of_true rule met
  rw [homeDir, Option.bind_some] at homeAbs
  have nonempty : 0 < home.length := List.length_pos_iff.mpr (ne_nil_of_absolute homeAbs)
  have abs : path.head? = some slash := by rw [path_eq, List.head?_append, homeAbs, Option.some_or]
  have longer : y.length + 1 < path.length := by
    rw [path_eq, List.length_append, List.length_cons]
    omega
  rw [translatePath_outside room unjailed (ne_nil_of_absolute rootAbs) abs outside]
  unfold HomeRule HomeRuleMet
  split
  · by_cases fits : env.macifyRoot.length + 1 + y.length < size
    · rw [forall_prop_of_true fits, or_iff_right (Nat.not_le.mpr fits)]
      split
      · next passes =>
        exact iff_of_false nofun fun met => Bool.false_ne_true (met.2.1.symm.trans passes)
      · next stays =>
        rw [Bool.not_eq_true] at stays
        rw [Option.some.injEq, snprintf_eq_iff longer fits, stays, eq_self, true_and]
    · exact iff_of_true (fun fit => absurd fit fits) (.inl (Nat.not_lt.mp fits))
  · rw [or_iff_right room]
    split
    · next passes => exact iff_of_true rfl passes
    · next stays => exact iff_of_false nofun stays

theorem home_rule_iff_tmp :
    HomeRule ⟨false, some (ascii "/tmp/u"), ascii "/p"⟩ (ascii "a") 64
      (translatePath ⟨false, some (ascii "/tmp/u"), ascii "/p"⟩ (ascii "/tmp/u/a") 64) :=
  (@home_rule_iff _ (ascii "/tmp/u") _ _ _ rfl rfl (by decide) (by decide) (by decide)
    (by decide)).mpr (.inr (by decide))

/-- `$HOME/Library`, and a file that should be left alone, are looked for under the home in the prefix. -/
theorem home_rule_broken :
    let env : PathEnv := ⟨false, some (ascii "/home/u"), ascii "/home/u/.macify"⟩
    translatePath env (ascii "/home/u/Library") 4096 = some (ascii "/home/u/.macify/home/u/Library") ∧
      translatePath env (ascii "/home/u/Library/x") 4096 =
        some (ascii "/home/u/.macify/home/u/Library/x") ∧
      translatePath env (ascii "/home/u/notes") 4096 = some (ascii "/home/u/.macify/home/u/notes") := by
  decide +kernel

end Home

end Macify.Paths
