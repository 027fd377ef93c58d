import Mathlib.Data.List.TakeWhile
import Macify.Exec.Shebang

/-!
# Lines of scripts

A `#!` line has an interpreter and perhaps an argument, with blanks around them. The loader divides it at
the first space and drops what follows; `parse_shebang` divides it at the first space, and at the first tab
only if there is no space.
-/

namespace Macify.Exec
open Lib Image Paths

/-- A `#!` line of fewer than 500 bytes that names an interpreter, without its end. -/
structure ShebangLine where
  body : Buf
  one_line : ∀ b ∈ body, lineEnds.contains b = false
  nonblank : skipBlanks body ≠ []
  short : body.length + 2 < 500

namespace ShebangLine

def text (line : ShebangLine) : Buf := ascii "#!" ++ line.body

def words (line : ShebangLine) : Buf := skipBlanks line.body

def interp (line : ShebangLine) : Buf := line.words.takeWhile (!isBlank ·)

def arg (line : ShebangLine) : Buf := skipBlanks (line.words.dropWhile (!isBlank ·))

def word (line : ShebangLine) : Buf := cutAt [SPACE] line.words

def split (line : ShebangLine) : Buf × Buf :=
  if line.words.contains SPACE then splitAt SPACE line.words
  else if line.words.contains TAB then splitAt TAB line.words
  else (line.words, [])

def Heads (line : ShebangLine) (bytes : Buf) : Prop :=
  ∃ more, bytes = line.text ++ more ∧ ∀ b ∈ more.head?, b = LF ∨ b = CR

end ShebangLine

section Parsers

variable {stops : List UInt8} {w more bytes : Buf} {size : ℕ}

lemma shebang_eq : ascii "#!" = [0x23, 0x21] := by decide

lemma clear_of_all (all : w.all (fun b => !stops.contains b) = true) : ∀ b ∈ w, stops.contains b = false := by
  intro b mem
  exact (Bool.not_eq_true' _).mp (List.all_eq_true.mp all b mem)

lemma cutAt_append (clear : ∀ b ∈ w, stops.contains b = false)
    (ended : ∀ b ∈ more.head?, stops.contains b = true) : cutAt stops (w ++ more) = w := by
  rw [cutAt, List.takeWhile_append_of_pos fun b mem => by rw [clear b mem]; rfl]
  cases more with
  | nil => rw [List.takeWhile_nil, List.append_nil]
  | cons b more => rw [List.takeWhile_cons_of_neg (by rw [ended b rfl]; decide), List.append_nil]

lemma cutAt_singleton {sep : UInt8} : cutAt [sep] w = w.takeWhile (· != sep) := by
  refine congrArg (List.takeWhile · w) (funext fun b => ?_)
  rw [List.contains_cons, List.contains_nil, Bool.or_false]
  rfl

lemma fgets_begins : fgets size bytes <+: bytes := by
  refine List.IsPrefix.trans ?_ (List.take_prefix (size - 1) bytes)
  rw [fgets]
  conv_rhs => rw [← @List.takeWhile_append_dropWhile _ (· != LF) (bytes.take (size - 1))]
  exact (List.prefix_append_right_inj _).mpr (List.take_prefix _ _)

lemma fgets_append (clear : ∀ b ∈ w, b ≠ LF) (fits : w.length < size) :
    fgets size (w ++ more) = w ++ fgets (size - w.length) more := by
  have text : ∀ b ∈ w, (b != LF) = true := fun b mem => bne_iff_ne.mpr (clear b mem)
  rw [fgets, List.take_append, List.take_of_length_le (by omega), List.takeWhile_append_of_pos text,
    List.dropWhile_append_of_pos text, List.append_assoc, Nat.sub_right_comm]
  rfl

lemma head?_of_begins {b : UInt8} (begins : w <+: bytes) (mem : b ∈ w.head?) : b ∈ bytes.head? := by
  obtain ⟨rest, rfl⟩ := begins
  cases w with
  | nil => cases mem
  | cons c w => exact mem

lemma skipBlanks_head : ∀ b ∈ (skipBlanks w).head?, isBlank b = false := by
  intro b mem
  have stop := List.head?_dropWhile_not isBlank w
  rw [show w.dropWhile isBlank = skipBlanks w from rfl, mem] at stop
  exact stop

lemma hasMagic_shebang (begins : ascii "#!" <+: bytes) : hasMagic (entryMagics ++ execMagics) bytes = false := by
  obtain ⟨rest, rfl⟩ := begins
  rw [shebang_eq, hasMagic, Bool.and_eq_false_iff]
  right
  have low : (u32 ([0x23, 0x21] ++ rest) 0).toNat % 256 = 0x23 := by
    have first : leAt 4 ([0x23, 0x21] ++ rest) 0 % 256 = 0x23 := Nat.add_mul_mod_self_left _ _ _
    rw [u32, BitVec.toNat_ofNat, Nat.mod_mod_of_dvd _ (by decide), first]
  have other : ∀ magic ∈ entryMagics ++ execMagics, magic.toNat % 256 ≠ 0x23 := by
    have all : (entryMagics ++ execMagics).all (fun magic => magic.toNat % 256 != 0x23) = true := by decide
    exact fun magic mem => bne_iff_ne.mp (List.all_eq_true.mp all magic mem)
  rw [← Bool.not_eq_true, List.contains_iff_mem]
  exact fun mem => other _ mem low

lemma entryParse_begins {raw : Buf} (parsed : macifyEntryParseShebang bytes = some raw) :
    ascii "#!" <+: bytes := by
  rw [macifyEntryParseShebang] at parsed
  split_ifs at parsed with _ begins
  exact (List.isPrefixOf_iff_prefix.mp begins).trans (List.take_prefix _ _)

lemma parseShebang_begins {parts : Buf × Buf} (parsed : parseShebang bytes = some parts) :
    ascii "#!" <+: bytes := by
  rw [parseShebang] at parsed
  dsimp only at parsed
  split at parsed
  · next begins => exact (List.isPrefixOf_iff_prefix.mp begins).trans fgets_begins
  · cases parsed

end Parsers

namespace ShebangLine

variable {line : ShebangLine} {bytes : Buf}

lemma text_clear (line : ShebangLine) : ∀ b ∈ line.text, lineEnds.contains b = false := by
  intro b mem
  rw [text, shebang_eq, List.mem_append] at mem
  rcases mem with mem | mem
  · exact clear_of_all (by decide) b mem
  · exact line.one_line b mem

lemma heads_lf (line : ShebangLine) : line.Heads (line.text ++ [LF]) :=
  ⟨[LF], rfl, fun _ mem => .inl (Option.mem_some.mp mem).symm⟩

lemma text_length (line : ShebangLine) : line.text.length = line.body.length + 2 := by
  rw [text, shebang_eq, List.length_append]
  exact Nat.add_comm _ _

lemma drop_text (line : ShebangLine) (more : Buf) : (line.text ++ more).drop 2 = line.body ++ more := by
  rw [text, shebang_eq]
  rfl

lemma begins (heads : line.Heads bytes) : ascii "#!" <+: bytes := by
  obtain ⟨more, rfl, -⟩ := heads
  exact ⟨line.body ++ more, (List.append_assoc _ _ _).symm⟩

lemma ends_line {more : Buf} (ended : ∀ b ∈ more.head?, b = LF ∨ b = CR) :
    ∀ b ∈ more.head?, lineEnds.contains b = true := by
  intro b mem
  rcases ended b mem with rfl | rfl <;> rfl

lemma Heads.entry (heads : line.Heads bytes) : macifyEntryParseShebang bytes = some line.word := by
  obtain ⟨more, rfl, ended⟩ := heads
  have short := line.short
  have len := line.text_length
  have read : (line.text ++ more).take 511 = line.text ++ more.take (511 - line.text.length) := by
    rw [List.take_append, List.take_of_length_le (by omega)]
  have full : 0 < line.body.length := by
    refine List.length_pos_iff.mpr fun empty => line.nonblank ?_
    rw [empty]
    rfl
  have begins : (ascii "#!").isPrefixOf (line.text ++ more.take (511 - line.text.length)) = true :=
    List.isPrefixOf_iff_prefix.mpr ⟨line.body ++ _, (List.append_assoc _ _ _).symm⟩
  have cut : cutAt lineEnds (line.text ++ more.take (511 - line.text.length)) = line.text :=
    cutAt_append line.text_clear fun b mem =>
      ends_line ended b (head?_of_begins (List.take_prefix _ _) mem)
  have body : line.text.drop 2 = line.body := by
    rw [← List.append_nil line.text, drop_text, List.append_nil]
  rw [macifyEntryParseShebang, read, if_neg (by rw [List.length_append]; omega), if_pos begins, cut, body,
    if_neg line.nonblank]
  rfl

lemma Heads.exec (heads : line.Heads bytes) : parseShebang bytes = some line.split := by
  obtain ⟨more, rfl, ended⟩ := heads
  have short := line.short
  have len := line.text_length
  have read : fgets 512 (line.text ++ more) = line.text ++ fgets (512 - line.text.length) more := by
    refine fgets_append (fun b mem eq => ?_) (by omega)
    have clear := line.text_clear b mem
    rw [eq] at clear
    cases clear
  have begins : (ascii "#!").isPrefixOf (line.text ++ fgets (512 - line.text.length) more) = true :=
    List.isPrefixOf_iff_prefix.mpr ⟨line.body ++ _, (List.append_assoc _ _ _).symm⟩
  have skipped : skipBlanks (line.body ++ fgets (512 - line.text.length) more) =
      line.words ++ fgets (512 - line.text.length) more := by
    have full : ¬ (line.body.dropWhile isBlank).isEmpty = true := fun empty =>
      line.nonblank (List.isEmpty_iff.mp empty)
    rw [skipBlanks, List.dropWhile_append, if_neg full]
    rfl
  have cut : cutAt lineEnds (line.words ++ fgets (512 - line.text.length) more) = line.words :=
    cutAt_append (fun b mem => line.one_line b ((List.dropWhile_suffix _).mem mem)) fun b mem =>
      ends_line ended b (head?_of_begins fgets_begins mem)
  have full : line.words ≠ [] := line.nonblank
  rw [parseShebang, read, if_pos begins, drop_text, skipped, cut]
  dsimp only
  rw [if_neg full, split, apply_ite some, apply_ite some]

def rest (line : ShebangLine) : Buf := line.words.dropWhile (!isBlank ·)

lemma interp_append_rest (line : ShebangLine) : line.interp ++ line.rest = line.words :=
  List.takeWhile_append_dropWhile

lemma words_ne_nil (line : ShebangLine) : line.words ≠ [] := line.nonblank

lemma interp_word (line : ShebangLine) : ∀ b ∈ line.interp, isBlank b = false := by
  intro b mem
  have word := List.mem_takeWhile_imp (p := (!isBlank ·)) mem
  exact Bool.not_eq_true' _ ▸ word

lemma interp_ne_nil (line : ShebangLine) : line.interp ≠ [] := by
  obtain ⟨b, more, eq⟩ := List.exists_cons_of_ne_nil line.words_ne_nil
  have word : isBlank b = false := skipBlanks_head b (congrArg List.head? eq)
  rw [interp, eq, List.takeWhile_cons_of_pos (by rw [word]; rfl)]
  exact List.cons_ne_nil _ _

lemma rest_head (line : ShebangLine) : ∀ b ∈ line.rest.head?, isBlank b = true := by
  intro b mem
  have stop := List.head?_dropWhile_not (!isBlank ·) line.words
  rw [show List.dropWhile (!isBlank ·) line.words = line.rest from rfl, mem] at stop
  exact Bool.not_eq_false' _ ▸ stop

lemma rest_blank (noArg : line.arg = []) : ∀ b ∈ line.rest, isBlank b = true :=
  List.dropWhile_eq_nil_iff.mp noArg

/-- What the loader takes for the interpreter goes on up to a space. -/
lemma word_eq (line : ShebangLine) : line.word = line.interp ++ line.rest.takeWhile (· != SPACE) := by
  rw [word, cutAt_singleton, ← line.interp_append_rest, List.takeWhile_append_of_pos]
  intro b mem
  have nonblank := line.interp_word b mem
  rw [isBlank, Bool.or_eq_false_iff] at nonblank
  exact bne_iff_ne.mpr (beq_eq_false_iff_ne.mp nonblank.1)

lemma after_blank {sep : UInt8} (noArg : line.arg = []) (blank : isBlank sep = true) :
    skipBlanks ((line.words.dropWhile (· != sep)).drop 1) = [] := by
  have past : line.words.dropWhile (· != sep) = line.rest.dropWhile (· != sep) := by
    rw [← line.interp_append_rest, List.dropWhile_append_of_pos]
    intro b mem
    refine bne_iff_ne.mpr fun eq => ?_
    rw [eq] at mem
    exact Bool.false_ne_true ((line.interp_word sep mem).symm.trans blank)
  refine List.dropWhile_eq_nil_iff.mpr fun b mem => rest_blank noArg b ?_
  rw [past] at mem
  exact (List.dropWhile_suffix _).mem (List.mem_of_mem_drop mem)

lemma split_of_noArg (noArg : line.arg = []) :
    line.split.2 = [] ∧ (line.split.1 = line.interp ∨ line.split.1 = line.word) := by
  rw [split]
  by_cases space : line.words.contains SPACE = true
  · rw [if_pos space]
    exact ⟨after_blank noArg rfl, .inr rfl⟩
  rw [if_neg space]
  have tabs : ∀ b ∈ line.rest.head?, b = TAB := by
    intro b mem
    have blank := line.rest_head b mem
    rw [isBlank, Bool.or_eq_true, beq_iff_eq, beq_iff_eq] at blank
    refine blank.resolve_left fun eq => space (List.contains_iff_mem.mpr ?_)
    rw [← line.interp_append_rest, ← eq]
    exact List.mem_append_right _ (List.mem_of_mem_head? mem)
  by_cases tab : line.words.contains TAB = true
  · rw [if_pos tab]
    refine ⟨after_blank noArg rfl, .inl ?_⟩
    change cutAt [TAB] line.words = line.interp
    rw [← line.interp_append_rest]
    refine cutAt_append (fun b mem => ?_) fun b mem => by rw [tabs b mem]; rfl
    have word := line.interp_word b mem
    rw [isBlank, Bool.or_eq_false_iff] at word
    rw [List.contains_cons, List.contains_nil, Bool.or_false, word.2]
  · rw [if_neg tab]
    refine ⟨rfl, .inl ?_⟩
    change line.words = line.interp
    cases rest : line.rest with
    | nil => rw [← line.interp_append_rest, rest, List.append_nil]
    | cons b more =>
      have eq : b = TAB := tabs b (by rw [rest]; rfl)
      refine absurd (List.contains_iff_mem.mpr ?_) tab
      rw [← line.interp_append_rest, rest, eq]
      exact List.mem_append_right _ List.mem_cons_self

lemma split_of_word_eq_arg (someArg : line.arg ≠ []) (eq : line.word = line.arg) :
    line.split.1 = line.word ∧ line.split.2 ≠ [] := by
  have word_eq : line.word = line.words.takeWhile (· != SPACE) := cutAt_singleton
  have divided : line.word ++ line.words.dropWhile (· != SPACE) = line.words := by
    rw [word_eq, List.takeWhile_append_dropWhile]
  cases cut : line.words.dropWhile (· != SPACE) with
  | nil =>
    -- without a space the word is the whole line, and the argument is shorter
    have len := congrArg List.length line.interp_append_rest
    have le : line.arg.length ≤ line.rest.length := (List.dropWhile_suffix _).length_le
    have pos := List.length_pos_iff.mpr line.interp_ne_nil
    rw [cut, List.append_nil, eq] at divided
    rw [List.length_append, ← divided] at len
    omega
  | cons b after =>
    have space : b = SPACE := by
      have stop := List.head?_dropWhile_not (· != SPACE) line.words
      rw [cut] at stop
      exact bne_eq_false_iff_eq.mp stop
    rw [cut, space] at divided
    have mem : line.words.contains SPACE = true := by
      rw [List.contains_iff_mem, ← divided]
      exact List.mem_append_right _ List.mem_cons_self
    have clear : SPACE ∉ line.arg := fun mem => by
      have ne := List.mem_takeWhile_imp (p := (· != SPACE)) (word_eq ▸ eq ▸ mem)
      cases ne
    have suffix : line.arg <:+ line.words := (List.dropWhile_suffix _).trans (List.dropWhile_suffix _)
    have late : line.arg <:+ after := by
      rcases List.suffix_or_suffix_of_suffix suffix ⟨_, divided⟩ with short | long
      · rcases List.suffix_cons_iff.mp short with whole | late
        · exact absurd (whole ▸ List.mem_cons_self) clear
        · exact late
      · exact absurd (long.mem List.mem_cons_self) clear
    rw [split, if_pos mem, splitAt, cut]
    refine ⟨rfl, fun none => ?_⟩
    obtain ⟨c, more, arg_eq⟩ := List.exists_cons_of_ne_nil someArg
    have word : isBlank c = false := skipBlanks_head c (congrArg List.head? arg_eq)
    have blank := List.dropWhile_eq_nil_iff.mp none c (late.mem (arg_eq ▸ List.mem_cons_self))
    exact Bool.false_ne_true (word.symm.trans blank)

end ShebangLine

end Macify.Exec
