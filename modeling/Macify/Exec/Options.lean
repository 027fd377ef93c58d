import Macify.Exec.Jail

/-!
# The options of the loader

`main` (`src/main.c`) reads its options in a loop of its own, and `guest_path_index` (`src/jail.c`) has to
find the program in the same arguments, one place further on. `jail_finds_program` says that it does, and
that it gives up where `main` does. Only a request for help tells them apart: the jail passes over it.
-/

namespace Macify.Exec
open Lib Image

structure OptionFlags where
  verbose : Bool
  noFastPath : Bool
  deriving DecidableEq

inductive OptionChoice where
  | program (argi : ℕ)
  | missing
  | help
  | unknown (option : Buf)
  deriving DecidableEq

def optionsFrom : OptionFlags → ℕ → List Buf → OptionFlags × OptionChoice
  | flags, _, [] => (flags, .missing)
  | flags, argi, arg :: rest =>
    if arg.head? = some MINUS then
      if arg = ascii "-v" ∨ arg = ascii "--verbose" then optionsFrom { flags with verbose := true } (argi + 1) rest
      else if arg = ascii "-q" ∨ arg = ascii "--quiet" then optionsFrom { flags with verbose := false } (argi + 1) rest
      else if arg = ascii "--no-fast-path" then optionsFrom { flags with noFastPath := true } (argi + 1) rest
      else if arg = ascii "--" then (flags, if rest = [] then .missing else .program (argi + 1))
      else if arg = ascii "-h" ∨ arg = ascii "--help" then (flags, .help)
      else (flags, .unknown arg)
    else (flags, .program argi)

def mainOptions (flags : OptionFlags) (argv : List Buf) : OptionFlags × OptionChoice :=
  optionsFrom flags 1 (argv.drop 1)

def plainOptions : List Buf :=
  [ascii "-v", ascii "--verbose", ascii "-q", ascii "--quiet", ascii "--no-fast-path"]

def helpOptions : List Buf := [ascii "-h", ascii "--help"]

/-- The first argument that is no plain option does not ask for help. -/
def NoHelp (args : List Buf) : Prop :=
  ∀ arg ∈ (args.dropWhile plainOptions.contains).head?, arg ∉ helpOptions

variable {arg : Buf} {rest : List Buf} {flags : OptionFlags} {argi i : ℕ}

lemma optionsFrom_plain (plain : arg ∈ plainOptions) :
    ∃ flags', optionsFrom flags argi (arg :: rest) = optionsFrom flags' (argi + 1) rest := by
  simp only [plainOptions, List.mem_cons, List.not_mem_nil, or_false] at plain
  rcases plain with rfl | rfl | rfl | rfl | rfl <;> exact ⟨_, rfl⟩

lemma guestPathFrom_plain (plain : arg ∈ plainOptions) :
    guestPathFrom i (arg :: rest) = guestPathFrom (i + 1) rest := by
  simp only [plainOptions, List.mem_cons, List.not_mem_nil, or_false] at plain
  rcases plain with rfl | rfl | rfl | rfl | rfl <;> rfl

lemma not_help_of_head (other : arg ∉ plainOptions) (noHelp : NoHelp (arg :: rest)) : arg ∉ helpOptions := by
  apply noHelp
  rw [List.dropWhile_cons_of_neg (by rwa [List.contains_iff_mem])]
  rfl

lemma NoHelp.tail (plain : arg ∈ plainOptions) (noHelp : NoHelp (arg :: rest)) : NoHelp rest := by
  rwa [NoHelp, List.dropWhile_cons_of_pos (List.contains_iff_mem.mpr plain)] at noHelp

lemma optionsFrom_unknown (other : arg ∉ plainOptions) (no_end : arg ≠ ascii "--") (no_help : arg ∉ helpOptions)
    (minus : arg.head? = some MINUS) : optionsFrom flags argi (arg :: rest) = (flags, .unknown arg) := by
  simp only [plainOptions, helpOptions, List.mem_cons, List.not_mem_nil, or_false, not_or] at other no_help
  obtain ⟨v, verbose, q, quiet, fast⟩ := other
  rw [optionsFrom, if_pos minus, if_neg (not_or.mpr ⟨v, verbose⟩), if_neg (not_or.mpr ⟨q, quiet⟩), if_neg fast,
    if_neg no_end, if_neg (not_or.mpr no_help)]

lemma guestPathFrom_unknown (other : arg ∉ plainOptions) (no_end : arg ≠ ascii "--") (no_help : arg ∉ helpOptions)
    (minus : arg.head? = some MINUS) : guestPathFrom i (arg :: rest) = none := by
  have flag : arg ∉ loaderFlags := by
    have split : loaderFlags = plainOptions ++ helpOptions := rfl
    rw [split, List.mem_append]
    exact not_or.mpr ⟨other, no_help⟩
  rw [guestPathFrom, if_pos minus, if_neg no_end, if_neg (by rwa [List.contains_iff_mem])]

def OptionChoice.index : OptionChoice → Option ℕ
  | .program argi => some (argi + 1)
  | _ => none

lemma loops_agree {args : List Buf} (noHelp : NoHelp args) :
    guestPathFrom (argi + 1) args = (optionsFrom flags argi args).2.index ∧
      (optionsFrom flags argi args).2 ≠ .help := by
  induction args generalizing flags argi with
  | nil => exact ⟨rfl, OptionChoice.noConfusion⟩
  | cons arg rest ih =>
    by_cases plain : arg ∈ plainOptions
    · obtain ⟨flags', next⟩ := @optionsFrom_plain arg rest flags argi plain
      rw [next, guestPathFrom_plain plain]
      exact ih (noHelp.tail plain)
    by_cases minus : arg.head? = some MINUS
    · by_cases ends : arg = ascii "--"
      · subst ends
        -- both step over `--`, and what follows is the program whatever it is
        have main : optionsFrom flags argi (ascii "--" :: rest) =
            (flags, if rest = [] then .missing else .program (argi + 1)) := rfl
        have jail : guestPathFrom (argi + 1) (ascii "--" :: rest) =
            if rest = [] then none else some (argi + 2) := rfl
        rw [main, jail]
        split
        · exact ⟨rfl, OptionChoice.noConfusion⟩
        · exact ⟨rfl, OptionChoice.noConfusion⟩
      · have no_help := not_help_of_head plain noHelp
        rw [optionsFrom_unknown plain ends no_help minus, guestPathFrom_unknown plain ends no_help minus]
        exact ⟨rfl, OptionChoice.noConfusion⟩
    · rw [optionsFrom, if_neg minus, guestPathFrom, if_neg minus]
      exact ⟨rfl, OptionChoice.noConfusion⟩

/-- The jail finds the argument that `main` takes, and none exactly if `main` has none or does not know an option. -/
theorem jail_finds_program (jail loader : Buf) (args : List Buf) (flags : OptionFlags) (noHelp : NoHelp args) :
    (∀ i, guestPathIndex (jail :: loader :: args) = some i ↔
        ∃ argi, (mainOptions flags (loader :: args)).2 = .program argi ∧ i = argi + 1) ∧
      (guestPathIndex (jail :: loader :: args) = none ↔
        (mainOptions flags (loader :: args)).2 = .missing ∨
          ∃ option, (mainOptions flags (loader :: args)).2 = .unknown option) := by
  obtain ⟨same, no_help⟩ := @loops_agree flags 1 args noHelp
  have main : mainOptions flags (loader :: args) = optionsFrom flags 1 args := rfl
  have index : guestPathIndex (jail :: loader :: args) = guestPathFrom 2 args := rfl
  rw [main, index, same]
  cases choice : (optionsFrom flags 1 args).2 with
  | program argi => simp [OptionChoice.index, eq_comm]
  | missing => simp [OptionChoice.index]
  | help => exact absurd choice no_help
  | unknown option => simp [OptionChoice.index]

theorem jail_finds_program_after_options :
    guestPathIndex [ascii "macify-jail", ascii "macify", ascii "-q", ascii "--", ascii "-h"] = some 4 ∧
      ∃ argi, (mainOptions ⟨true, false⟩ [ascii "macify", ascii "-q", ascii "--", ascii "-h"]).2 = .program argi ∧
        4 = argi + 1 := by
  have found : guestPathIndex [ascii "macify-jail", ascii "macify", ascii "-q", ascii "--", ascii "-h"] = some 4 := by
    decide
  have noHelp : NoHelp [ascii "-q", ascii "--", ascii "-h"] := by
    intro arg head
    have first : ([ascii "-q", ascii "--", ascii "-h"].dropWhile plainOptions.contains).head? = some (ascii "--") := by
      decide
    obtain rfl := Option.some.inj (first.symm.trans head)
    decide
  exact ⟨found, ((jail_finds_program _ _ _ _ noHelp).1 4).mp found⟩

end Macify.Exec
