import Macify.Lib.CStrings
import Macify.Paths.Translate

/-!
# Paths to the host and back

`macify_translate_path` says where a guest's path is on the host, and `macify_untranslate_inplace` and
`macify_untranslate_path` take the prefix off a path from the host. With room for the translation
(`translation_complete_iff`), no path is lost from the guest to the host and back (`translate_untranslate`). The
other way around it takes more (`reported_path_leads_back_iff`).
-/

namespace Macify.Paths
open Lib Image

def wholePath (env : PathEnv) (path : Buf) : Option Buf :=
  if env.jailed then some path
  else if env.macifyRoot = [] then none
  else if inDir env.macifyRoot path then some path
  else if path.head? ≠ some slash then
    match env.home with
    | none => none
    | some home =>
      if home.isPrefixOf path ∧ (path.drop home.length).head? = some slash then
        if inDir (ascii "Library") (path.drop (home.length + 1)) then
          some (env.macifyRoot ++ path.drop home.length)
        else none
      else none
  else if passesThrough path then none
  else some (env.macifyRoot ++ path)

section Whole

variable {env : PathEnv} {path target : Buf} {size : ℕ}

lemma translatePath_eq :
    translatePath env path size = if size = 0 then none else (wholePath env path).map (snprintf size) := by
  unfold translatePath wholePath
  split
  · rfl
  cases env.home <;> simp only [apply_ite (Option.map (snprintf size)), Option.map_some, Option.map_none]

/-- The output is the whole translation, or the call fails. -/
theorem translation_complete_iff :
    (∀ out, translatePath env path size = some out → wholePath env path = some out) ↔
      ∀ target, wholePath env path = some target → size = 0 ∨ target.length < size := by
  rw [translatePath_eq]
  by_cases room : size = 0
  · rw [if_pos room]
    exact iff_of_true nofun fun target whole => .inl room
  rw [if_neg room]
  cases wholePath env path with
  | none => exact iff_of_true nofun nofun
  | some target =>
    simp only [Option.map_some, Option.some.injEq, forall_eq', room, false_or]
    constructor
    · intro eq
      have len := congrArg List.length eq
      rw [snprintf, List.length_take] at len
      omega
    · intro fits
      exact (snprintf_of_lt fits).symm

/-- Another file of the prefix comes out for one whose translation is too long. -/
theorem translation_cut_off :
    translatePath ⟨false, none, ascii "/p"⟩ (ascii "/etc/passwd") 6 = some (ascii "/p/et") ∧
      wholePath ⟨false, none, ascii "/p"⟩ (ascii "/etc/passwd") = some (ascii "/p/etc/passwd") := by
  decide +kernel

lemma wholePath_inside (whole : wholePath env path = some target) : Inside env target := by
  rcases translatePath_cases env path with none | ⟨q, inside, -, -, found⟩
  · have eq := @translatePath_eq env path 1
    rw [none, whole] at eq
    cases eq
  · -- a buffer with room for both shows that they are the same
    have eq := @translatePath_eq env path (q.length + target.length + 1)
    rw [found _ (Nat.succ_ne_zero _), if_neg (Nat.succ_ne_zero _), whole, Option.map_some,
      snprintf_of_lt (by omega), snprintf_of_lt (by omega), Option.some.injEq] at eq
    exact eq ▸ inside

lemma Inside.length_le (inside : Inside env path) (unjailed : env.jailed = false) :
    env.macifyRoot.length ≤ path.length := by
  rcases inside with jailed | ⟨-, inside⟩
  · rw [unjailed] at jailed
    cases jailed
  · obtain ⟨rest, rfl, -⟩ := inDir_iff.mp inside
    rw [List.length_append]
    omega

end Whole

/-- The test `strncmp(p, prefix, plen) == 0 && (p[plen] == '/' || p[plen] == '\0')` on the bytes that start at `p`. -/
def beginsWith (root mem : Buf) : Bool :=
  root.isPrefixOf mem && (byte mem root.length == slash || byte mem root.length == 0)

def untranslateInplace (root mem : Buf) : Buf :=
  if root = [] then mem
  else if beginsWith root mem then
    if byte mem root.length = 0 then (mem.set 0 slash).set 1 0
    else
      let rest := textOf (mem.drop root.length)
      rest ++ 0 :: mem.drop (rest.length + 1)
  else mem

/-- It has the same text as `untranslateInplace` after one more test. -/
def untranslatePath (root mem : Buf) : Buf :=
  if byte mem 0 = 0 then mem else untranslateInplace root mem

def guestPath (root path : Buf) : Buf :=
  if root ≠ [] ∧ inDir root path = true then if path = root then [slash] else path.drop root.length
  else path

section Untranslate

variable {root path rest more : Buf}

lemma inDir_append (next : rest.head?.getD slash = slash) : inDir root (root ++ rest) = true :=
  inDir_iff.mpr ⟨rest, rfl, next⟩

lemma guestPath_self (nonempty : root ≠ []) : guestPath root root = [slash] := by
  have inside : inDir root (root ++ []) = true := inDir_append rfl
  rw [List.append_nil] at inside
  rw [guestPath, if_pos ⟨nonempty, inside⟩, if_pos rfl]

lemma guestPath_append (nonempty : root ≠ []) (abs : rest.head? = some slash) :
    guestPath root (root ++ rest) = rest := by
  have inside : inDir root (root ++ rest) = true := inDir_append (by rw [abs]; rfl)
  have longer : root ++ rest ≠ root := by
    intro eq
    exact ne_nil_of_absolute abs (List.append_right_eq_self.mp eq)
  rw [guestPath, if_pos ⟨nonempty, inside⟩, if_neg longer, List.drop_left]

lemma guestPath_outside (outside : inDir root path = false) : guestPath root path = path := by
  rw [guestPath, outside, if_neg fun inside => Bool.false_ne_true inside.2]

lemma beginsWith_text (rootText : 0 ∉ root) (text : 0 ∉ path) :
    beginsWith root (path ++ 0 :: more) = inDir root path := by
  rw [Bool.eq_iff_iff, inDir_iff, beginsWith, Bool.and_eq_true, List.isPrefixOf_iff_prefix,
    Bool.or_eq_true, beq_iff_eq, beq_iff_eq]
  constructor
  · rintro ⟨begins, next⟩
    obtain ⟨rest, rfl⟩ := prefix_of_stored rootText begins
    refine ⟨rest, rfl, ?_⟩
    cases rest with
    | nil => rfl
    | cons b rest =>
      rw [List.append_assoc, ← Nat.add_zero root.length, byte_append_right] at next
      refine next.resolve_right fun zero => text ?_
      exact List.mem_append_right _ (zero ▸ List.mem_cons_self)
  · rintro ⟨rest, rfl, next⟩
    rw [List.append_assoc]
    refine ⟨List.prefix_append _ _, ?_⟩
    rw [← Nat.add_zero root.length, byte_append_right]
    cases rest with
    | nil => exact .inr rfl
    | cons b rest => exact .inl next

lemma textOf_untranslateInplace (rootText : 0 ∉ root) (text : 0 ∉ path) :
    textOf (untranslateInplace root (path ++ 0 :: more)) = guestPath root path := by
  unfold untranslateInplace
  by_cases nonempty : root = []
  · rw [if_pos nonempty, guestPath, if_neg fun both => both.1 nonempty, textOf_append text]
  rw [if_neg nonempty, beginsWith_text rootText text]
  by_cases inside : inDir root path = true
  · rw [if_pos inside]
    obtain ⟨rest, rfl, next⟩ := inDir_iff.mp inside
    rw [List.append_assoc, List.drop_left, ← Nat.add_zero root.length, byte_append_right]
    cases rest with
    | nil =>
      rw [List.append_nil, guestPath_self nonempty]
      cases root with
      | nil => exact absurd rfl nonempty
      | cons b root => cases root <;> rfl
    | cons b rest =>
      obtain rfl : b = slash := next
      rw [if_neg (show ¬byte (slash :: rest ++ 0 :: more) 0 = 0 from show ¬slash = 0 by decide),
        guestPath_append nonempty rfl]
      have restText : 0 ∉ slash :: rest := fun mem => text (List.mem_append_right _ mem)
      rw [textOf_append restText, textOf_append restText]
  · rw [if_neg inside, guestPath_outside (Bool.eq_false_iff.mpr inside), textOf_append text]

lemma textOf_untranslatePath (rootText : 0 ∉ root) (text : 0 ∉ path) (nonempty : path ≠ []) :
    textOf (untranslatePath root (path ++ 0 :: more)) = guestPath root path := by
  rw [untranslatePath, if_neg, textOf_untranslateInplace rootText text]
  cases path with
  | nil => exact absurd rfl nonempty
  | cons b path => exact fun zero => text (zero ▸ List.mem_cons_self)

lemma untranslateInplace_behind {i : ℕ} (rootText : 0 ∉ root) (text : 0 ∉ path) (behind : path.length < i) :
    (untranslateInplace root (path ++ 0 :: more))[i]? = (path ++ 0 :: more)[i]? := by
  unfold untranslateInplace
  by_cases empty : root = []
  · rw [if_pos empty]
  rw [if_neg empty, beginsWith_text rootText text]
  split
  · next inside =>
    obtain ⟨rest, rfl, -⟩ := inDir_iff.mp inside
    have pos := List.length_pos_iff.mpr empty
    rw [List.length_append] at behind
    split
    · rw [List.getElem?_set_ne (by omega), List.getElem?_set_ne (by omega)]
    · have last : (rest ++ [0]).length = rest.length + 1 := List.length_append
      dsimp only
      rw [List.append_assoc, List.drop_left, textOf_append fun mem => text (List.mem_append_right _ mem),
        List.append_cons, List.getElem?_append_right (by omega), List.getElem?_drop, last]
      congr 1
      omega
  · rfl

/-- Neither function writes behind the terminator of its path. -/
theorem untranslate_stays_inside {i : ℕ} (rootText : 0 ∉ root) (text : 0 ∉ path) (behind : path.length < i) :
    (untranslateInplace root (path ++ 0 :: more))[i]? = (path ++ 0 :: more)[i]? ∧
      (untranslatePath root (path ++ 0 :: more))[i]? = (path ++ 0 :: more)[i]? := by
  refine ⟨untranslateInplace_behind rootText text behind, ?_⟩
  unfold untranslatePath
  split
  · rfl
  · exact untranslateInplace_behind rootText text behind

theorem untranslate_stays_inside_etc :
    (untranslatePath (ascii "/p") (ascii "/p/etc" ++ 0 :: [1]))[7]? = some 1 :=
  (@untranslate_stays_inside (ascii "/p") (ascii "/p/etc") [1] 7 (by decide) (by decide) (by decide)).2

end Untranslate

section RoundTrip

variable {env : PathEnv} {path more : Buf} {size : ℕ}

/-- For every prefix and every path whose translation fits. -/
theorem translate_untranslate (unjailed : env.jailed = false) (root : env.macifyRoot ≠ [])
    (rootText : 0 ∉ env.macifyRoot) (text : 0 ∉ path)
    (fits : ∀ target, wholePath env path = some target → target.length < size) :
    kernelPath env (kernelPath env path size) size = kernelPath env path size ∧
      (path.head? = some slash → passesThrough path = false → inDir env.macifyRoot path = false →
        textOf (untranslateInplace env.macifyRoot (kernelPath env path size ++ 0 :: more)) = path ∧
        textOf (untranslatePath env.macifyRoot (kernelPath env path size ++ 0 :: more)) = path) := by
  constructor
  · cases whole : wholePath env path with
    | none =>
      have alone : kernelPath env path size = path := by
        rw [kernelPath, translatePath_eq, whole, Option.map_none, ite_self, Option.getD_none]
      rw [alone, alone]
    | some target =>
      refine kernelPath_idem (.inr ?_)
      exact ((wholePath_inside whole).length_le unjailed).trans_lt (fits target whole)
  · intro abs stays outside
    have whole : wholePath env path = some (env.macifyRoot ++ path) := by
      rw [wholePath, unjailed, if_neg Bool.false_ne_true, if_neg root, outside, if_neg Bool.false_ne_true,
        if_neg (not_not.mpr abs), stays, if_neg Bool.false_ne_true]
    have translated : kernelPath env path size = env.macifyRoot ++ path := by
      have lt := fits _ whole
      rw [kernelPath, translatePath_eq, if_neg (by omega), whole, Option.map_some, snprintf_of_lt lt,
        Option.getD_some]
    have bothText : 0 ∉ env.macifyRoot ++ path := fun mem => (List.mem_append.mp mem).elim rootText text
    rw [translated, textOf_untranslateInplace rootText bothText, guestPath_append root abs,
      textOf_untranslatePath rootText bothText (List.append_ne_nil_of_left_ne_nil root _),
      guestPath_append root abs]
    exact ⟨rfl, rfl⟩

theorem translate_untranslate_etc :
    let env : PathEnv := ⟨false, none, ascii "/p"⟩
    textOf (untranslateInplace env.macifyRoot (kernelPath env (ascii "/etc") 64 ++ 0 :: [])) = ascii "/etc" :=
  ((@translate_untranslate ⟨false, none, ascii "/p"⟩ (ascii "/etc") [] 64 rfl (by decide) (by decide)
    (by decide) (by decide)).2 (by decide) (by decide) (by decide)).1

end RoundTrip

/-- A path as the kernel spells it: components with one slash before each. -/
def Canonical (h : Buf) : Prop :=
  ∃ parts : List Buf,
    (∀ part ∈ parts, part ≠ [] ∧ slash ∉ part ∧ 0 ∉ part ∧ part ≠ ascii "." ∧ part ≠ ascii "..") ∧
    h = if parts = [] then [slash] else parts.flatMap (slash :: ·)

def SameUpToSlash (a b : Buf) : Prop := a = b ∨ a = b ++ [slash] ∨ b = a ++ [slash]

instance (a b : Buf) : Decidable (SameUpToSlash a b) := inferInstanceAs (Decidable (_ ∨ _))

/-- Below the prefix, the rest is put behind it again. Elsewhere the path passes through, or a buffer cuts off
    what is added. -/
def LeadsBack (env : PathEnv) (h : Buf) (size : ℕ) : Prop :=
  if inDir env.macifyRoot h = true then
    h = env.macifyRoot ∨
      (passesThrough (h.drop env.macifyRoot.length) = false ∧
        inDir env.macifyRoot (h.drop env.macifyRoot.length) = false)
  else passesThrough h = true ∨ (env.macifyRoot = h ++ [slash] ∧ size = env.macifyRoot.length + 1)

section Back

variable {env : PathEnv} {root h path rest more : Buf} {size : ℕ}

lemma Canonical.abs (canonical : Canonical h) : h.head? = some slash := by
  obtain ⟨parts, -, rfl⟩ := canonical
  cases parts <;> rfl

lemma Canonical.text (canonical : Canonical h) : 0 ∉ h := by
  obtain ⟨parts, plain, rfl⟩ := canonical
  split
  · decide
  · intro mem
    obtain ⟨part, here, mem⟩ := List.mem_flatMap.mp mem
    rcases List.mem_cons.mp mem with zero | mem
    · exact absurd zero (by decide)
    · exact (plain part here).2.2.1 mem

lemma Canonical.second (canonical : Canonical (slash :: rest)) : rest.head? ≠ some slash := by
  obtain ⟨parts, plain, eq⟩ := canonical
  cases parts with
  | nil =>
    obtain rfl := (List.cons.inj eq).2
    exact nofun
  | cons part parts =>
    obtain ⟨nonempty, noSlash, -⟩ := plain part List.mem_cons_self
    obtain rfl := (List.cons.inj eq).2
    cases part with
    | nil => exact absurd rfl nonempty
    | cons b part =>
      intro first
      exact noSlash (Option.some.inj first ▸ List.mem_cons_self)

lemma kernelPath_abs (unjailed : env.jailed = false) (root : env.macifyRoot ≠ [])
    (abs : path.head? = some slash) (fits : path.length < size) :
    kernelPath env path size =
      if inDir env.macifyRoot path = true ∨ passesThrough path = true then path
      else snprintf size (env.macifyRoot ++ path) := by
  have room : size ≠ 0 := by omega
  rw [kernelPath]
  by_cases inside : inDir env.macifyRoot path = true
  · rw [translatePath_inside room unjailed root inside, if_pos (.inl inside), Option.getD_some, snprintf_of_lt fits]
  · rw [translatePath_outside room unjailed root abs (Bool.eq_false_iff.mpr inside)]
    by_cases passes : passesThrough path = true
    · rw [if_pos passes, if_pos (.inr passes), Option.getD_none]
    · rw [if_neg passes, if_neg (not_or.mpr ⟨inside, passes⟩), Option.getD_some]

lemma passesThrough_slash : passesThrough [slash] = false := by decide

lemma inDir_slash (rootAbs : root.head? = some slash) (inside : inDir root [slash] = true) : root = [slash] := by
  obtain ⟨rest, eq, -⟩ := inDir_iff.mp inside
  cases root with
  | nil => cases rootAbs
  | cons b root =>
    obtain ⟨-, nothing⟩ := List.cons.inj eq
    obtain ⟨rfl, -⟩ := List.append_eq_nil_iff.mp nothing.symm
    rw [Option.some.inj rootAbs]

lemma root_leads_back (unjailed : env.jailed = false) (rootAbs : env.macifyRoot.head? = some slash)
    (fits : env.macifyRoot.length < size) :
    SameUpToSlash (kernelPath env [slash] size) env.macifyRoot := by
  have nonempty := ne_nil_of_absolute rootAbs
  have len : 1 ≤ env.macifyRoot.length := List.length_pos_iff.mpr nonempty
  rw [kernelPath_abs unjailed nonempty rfl (by rw [List.length_singleton]; omega), passesThrough_slash]
  by_cases inside : inDir env.macifyRoot [slash] = true
  · rw [if_pos (.inl inside), inDir_slash rootAbs inside]
    exact .inl rfl
  · rw [if_neg (not_or.mpr ⟨inside, Bool.false_ne_true⟩)]
    by_cases room : env.macifyRoot.length + 1 < size
    · rw [snprintf_of_lt (by rw [List.length_append]; exact room)]
      exact .inr (.inl rfl)
    · rw [snprintf, List.take_append_of_le_length (by omega), List.take_of_length_le (by omega)]
      exact .inl rfl

lemma below_leads_back_iff (unjailed : env.jailed = false) (rootAbs : env.macifyRoot.head? = some slash)
    (abs : rest.head? = some slash) (canonical : Canonical (env.macifyRoot ++ rest))
    (fits : (env.macifyRoot ++ rest).length < size) :
    SameUpToSlash (kernelPath env rest size) (env.macifyRoot ++ rest) ↔
      passesThrough rest = false ∧ inDir env.macifyRoot rest = false := by
  have nonempty := ne_nil_of_absolute rootAbs
  have len : 1 ≤ env.macifyRoot.length := List.length_pos_iff.mpr nonempty
  rw [List.length_append] at fits
  rw [kernelPath_abs unjailed nonempty abs (by omega)]
  by_cases alone : inDir env.macifyRoot rest = true ∨ passesThrough rest = true
  · rw [if_pos alone]
    refine iff_of_false ?_ fun met => ?_
    · -- only a prefix of one byte could make up for the slash
      rintro (eq | eq | eq) <;> have lengths := congrArg List.length eq <;>
        simp only [List.length_append, List.length_singleton] at lengths
      · omega
      · omega
      · obtain ⟨b, single⟩ := List.length_eq_one_iff.mp (show env.macifyRoot.length = 1 by omega)
        rw [single] at rootAbs canonical
        obtain rfl : b = slash := Option.some.inj rootAbs
        exact canonical.second abs
    · rw [met.1, met.2] at alone
      exact alone.elim Bool.false_ne_true Bool.false_ne_true
  · obtain ⟨outside, stays⟩ := not_or.mp alone
    rw [if_neg alone, snprintf_of_lt (by rw [List.length_append]; exact fits)]
    exact iff_of_true (.inl rfl) ⟨Bool.eq_false_iff.mpr stays, Bool.eq_false_iff.mpr outside⟩

lemma inDir_of_begins (abs : h.head? = some slash) (len : root.length ≤ h.length)
    (begins : h <+: root ++ h) : inDir root h = true := by
  obtain ⟨rest, rfl⟩ := List.prefix_of_prefix_length_le (List.prefix_append root h) begins len
  refine inDir_append ?_
  cases rest with
  | nil => rfl
  | cons b rest =>
    obtain ⟨more, eq⟩ := (List.prefix_append_right_inj root).mp begins
    rw [← eq] at abs
    exact Option.some.inj abs

lemma outside_leads_back_iff (rootAbs : root.head? = some slash) (abs : h.head? = some slash)
    (rootFits : root.length < size) (fits : h.length < size) (outside : inDir root h = false) :
    SameUpToSlash (snprintf size (root ++ h)) h ↔ root = h ++ [slash] ∧ size = root.length + 1 := by
  have rootLen : 1 ≤ root.length := List.length_pos_iff.mpr (ne_nil_of_absolute rootAbs)
  have len : 1 ≤ h.length := List.length_pos_iff.mpr (ne_nil_of_absolute abs)
  have cut : (snprintf size (root ++ h)).length = min (size - 1) (root.length + h.length) := by
    rw [snprintf, List.length_take, List.length_append]
  have longer (begins : h <+: snprintf size (root ++ h)) : h.length < root.length := by
    by_contra le
    rw [inDir_of_begins abs (Nat.not_lt.mp le) (begins.trans (List.take_prefix _ _))] at outside
    cases outside
  constructor
  · rintro (eq | eq | eq)
    · have := longer (by rw [eq])
      rw [eq] at cut
      omega
    · have := longer (eq ▸ List.prefix_append _ _)
      rw [eq, List.length_append, List.length_singleton] at cut
      obtain rfl : size = root.length + 1 := by omega
      rw [snprintf, Nat.add_sub_cancel, List.take_left] at eq
      exact ⟨eq, rfl⟩
    · have lengths := congrArg List.length eq
      rw [List.length_append, List.length_singleton, cut] at lengths
      omega
  · rintro ⟨eq, rfl⟩
    rw [snprintf, Nat.add_sub_cancel, List.take_left]
    exact .inr (.inl eq)

/-- For every absolute prefix and every path that the kernel can report. -/
theorem reported_path_leads_back_iff (unjailed : env.jailed = false)
    (rootAbs : env.macifyRoot.head? = some slash) (rootText : 0 ∉ env.macifyRoot)
    (rootFits : env.macifyRoot.length < size) (canonical : Canonical h) (fits : h.length < size) :
    SameUpToSlash (kernelPath env (textOf (untranslateInplace env.macifyRoot (h ++ 0 :: more))) size) h ↔
      LeadsBack env h size := by
  rw [textOf_untranslateInplace rootText canonical.text, LeadsBack]
  have nonempty := ne_nil_of_absolute rootAbs
  by_cases inside : inDir env.macifyRoot h = true
  · rw [if_pos inside]
    obtain ⟨rest, rfl, next⟩ := inDir_iff.mp inside
    cases rest with
    | nil =>
      rw [List.append_nil, guestPath_self nonempty]
      exact iff_of_true (root_leads_back unjailed rootAbs rootFits) (.inl rfl)
    | cons b rest =>
      obtain rfl : b = slash := next
      rw [guestPath_append nonempty rfl, List.drop_left, or_iff_right]
      · exact below_leads_back_iff unjailed rootAbs rfl canonical fits
      · exact fun eq => List.cons_ne_nil _ _ (List.append_right_eq_self.mp eq)
  · have outside := Bool.eq_false_iff.mpr inside
    rw [if_neg inside, guestPath_outside outside, kernelPath_abs unjailed nonempty canonical.abs fits]
    by_cases passes : passesThrough h = true
    · rw [if_pos (.inr passes)]
      exact iff_of_true (.inl rfl) (.inl passes)
    · rw [if_neg (not_or.mpr ⟨inside, passes⟩), or_iff_right passes]
      exact outside_leads_back_iff rootAbs canonical.abs rootFits fits outside

theorem reported_path_leads_back_etc :
    SameUpToSlash (kernelPath ⟨false, none, ascii "/p"⟩
      (textOf (untranslateInplace (ascii "/p") (ascii "/p/etc" ++ 0 :: []))) 4096) (ascii "/p/etc") :=
  (@reported_path_leads_back_iff ⟨false, none, ascii "/p"⟩ (ascii "/p/etc") [] 4096 rfl (by decide)
    (by decide) (by decide) ⟨[ascii "p", ascii "etc"], by decide, by decide⟩ (by decide)).mpr
    (by rw [LeadsBack, if_pos (by decide)]; exact .inr (by decide))

/-- `tmp` of the prefix is taken for the host's, and a prefix with a slash is put before a path that has it. -/
theorem reported_path_goes_astray :
    let back (root h : Buf) :=
      kernelPath ⟨false, none, root⟩ (textOf (untranslateInplace root (h ++ 0 :: []))) 4096
    Canonical (ascii "/p/tmp/x") ∧
      ¬SameUpToSlash (back (ascii "/p") (ascii "/p/tmp/x")) (ascii "/p/tmp/x") ∧
      back (ascii "/p") (ascii "/p/tmp/x") = ascii "/tmp/x" ∧
      back (ascii "/p/") (ascii "/p/etc") = ascii "/p//p/etc" ∧
      back (ascii "/") (ascii "/etc") = ascii "//etc" :=
  ⟨⟨[ascii "p", ascii "tmp", ascii "x"], by decide, by decide⟩, by decide +kernel⟩

end Back

end Macify.Paths
