import Macify.Exec.Lines

/-!
# One script, two ways to start it

For a `#!` line that names a Mach-O file in the prefix, the two ways to start a script should come to
the same interpreter and the same arguments. `script_start_iff` says for which lines, files and lengths
of the argument vector they do.
-/

namespace Macify.Exec
open Lib Image Paths

def Host.isMachO (host : Host) (path : Buf) : Bool :=
  (host.read path).any (hasMagic (entryMagics ++ execMagics))

section Files

variable {host : Host} {line : ShebangLine} {path : Buf} {argv : List Buf}

lemma hasMagic_append {a b : List W32} {bytes : Buf} :
    hasMagic (a ++ b) bytes = (hasMagic a bytes || hasMagic b bytes) := by
  rw [hasMagic, List.contains_append, Bool.and_or_distrib_left]
  rfl

lemma isMachO_eq : host.isMachO path = (macifyEntryIsMacho host path || isMachoBinary host path) := by
  rw [Host.isMachO, macifyEntryIsMacho, isMachoBinary]
  cases host.read path with
  | none => rfl
  | some bytes => exact hasMagic_append

lemma isMachO_of_begins {bytes : Buf} (read : host.read path = some bytes) (begins : ascii "#!" <+: bytes) :
    host.isMachO path = false := by
  rw [Host.isMachO, read]
  exact hasMagic_shebang begins

lemma hop_of_macho (macho : host.isMachO path = true) : hop host path = none := by
  rw [hop]
  split
  · rfl
  rw [Option.bind_eq_none_iff]
  intro bytes read
  refine Option.eq_none_iff_forall_ne_some.mpr fun raw parsed => ?_
  rw [isMachO_of_begins read (entryParse_begins parsed)] at macho
  cases macho

lemma parse_of_macho (macho : host.isMachO path = true) : (host.read path).bind parseShebang = none := by
  rw [Option.bind_eq_none_iff]
  intro bytes read
  refine Option.eq_none_iff_forall_ne_some.mpr fun parts parsed => ?_
  rw [isMachO_of_begins read (parseShebang_begins parsed)] at macho
  cases macho

lemma file_of_macho (macho : host.isMachO path = true) : (host.file path).isSome = true := by
  rw [Host.isMachO, Host.read] at macho
  cases file : host.file path with
  | none =>
    rw [file] at macho
    cases macho
  | some f => rfl

lemma not_macho_of_heads {bytes : Buf} (read : host.read path = some bytes) (heads : line.Heads bytes) :
    macifyEntryIsMacho host path = false ∧ isMachoBinary host path = false := by
  have other := isMachO_of_begins read (ShebangLine.begins heads)
  rwa [isMachO_eq, Bool.or_eq_false_iff] at other

lemma hop_of_heads {bytes : Buf} (read : host.read path = some bytes) (heads : line.Heads bytes) :
    hop host path = some line.word := by
  rw [hop, (not_macho_of_heads read heads).1, if_neg Bool.false_ne_true, read, Option.bind_some, heads.entry]

lemma resolve_of_macho (macho : host.isMachO path = true) : macifyResolveEntry host path argv = ⟨path, argv⟩ := by
  have entry : entryFile host path = path := by rw [entryFile, if_pos (file_of_macho macho)]
  rw [macifyResolveEntry, entry, followShebangs, hop_of_macho macho]

end Files

inductive Followed (host : Host) (start : Buf) : Buf → List Buf → Prop
  | start : Followed host start start []
  | hop {eff raw rawtok} :
    Followed host start eff rawtok →
    hop host eff = some raw →
    Followed host start (interpreterFile host raw) (raw :: rawtok)

lemma Followed.nil_inv {host : Host} {start eff : Buf} (followed : Followed host start eff []) : eff = start := by
  cases followed
  rfl

lemma Followed.cons_inv {host : Host} {start eff raw : Buf} {rawtok : List Buf}
    (followed : Followed host start eff (raw :: rawtok)) :
    eff = interpreterFile host raw ∧
      ∃ before, Followed host start before rawtok ∧ Exec.hop host before = some raw := by
  cases followed with
  | hop before next => exact ⟨rfl, _, before, next⟩

lemma Followed.run {host : Host} {start eff : Buf} {rawtok : List Buf} (left : ℕ)
    (so_far : Followed host start eff rawtok) :
    Followed host start (followShebangs host left eff rawtok).1 (followShebangs host left eff rawtok).2 := by
  induction left generalizing eff rawtok with
  | zero => exact so_far
  | succ left ih =>
    rw [followShebangs]
    cases next : Exec.hop host eff with
    | none => exact so_far
    | some raw => exact ih (so_far.hop next)

lemma resolve_cases (host : Host) (path : Buf) (argv : List Buf) :
    macifyResolveEntry host path argv = ⟨entryFile host path, argv⟩ ∨
      ∃ raw rawtok, Followed host (entryFile host path) (interpreterFile host raw) (raw :: rawtok) ∧
        macifyResolveEntry host path argv =
          ⟨interpreterFile host raw, raw :: (rawtok ++ path :: argv.tail.take (1021 - rawtok.length))⟩ := by
  have run := (Followed.start : Followed host (entryFile host path) _ _).run 5
  rw [macifyResolveEntry]
  generalize entryFile host path = start at run
  generalize followShebangs host 5 start [] = result at run
  obtain ⟨eff, all⟩ := result
  cases run with
  | start => exact .inl rfl
  | @hop _ raw rawtok so_far next =>
    refine .inr ⟨raw, rawtok, so_far.hop next, ?_⟩
    dsimp only
    rw [List.length_cons, List.cons_append, MACIFY_ENTRY_ARGV_MAX]
    congr 5
    omega

section Levels

variable {host : Host} {left : ℕ} {path binary target : Buf} {argv args : List Buf}

lemma doExecveInner_inv (starts : doExecveInner host left (some path) argv = .macify binary target args) :
    (isMachoBinary host target = true ∧ target = kernelPath host.env path PATH_MAX ∧ args = argv.tail) ∨
      ∃ less interp iarg abspath, left = less + 1 ∧
        (host.read (kernelPath host.env path PATH_MAX)).bind parseShebang = some (interp, iarg) ∧
        doExecveInner host less (some (kernelPath host.env interp PATH_MAX))
          (kernelPath host.env interp PATH_MAX :: scriptArgs iarg abspath argv) =
            .macify binary target args := by
  unfold doExecveInner at starts
  dsimp only at starts
  split at starts
  · next macho _ =>
    cases starts
    exact .inl ⟨macho, rfl, rfl⟩
  split at starts
  · cases starts
  · next interp iarg parsed =>
    split at starts
    · cases starts
    cases left with
    | zero => cases starts
    | succ less =>
      dsimp only at starts
      split at starts
      · cases starts
      · next abspath _ => exact .inr ⟨less, interp, iarg, abspath, rfl, parsed, starts⟩

/-- A level that reads a `#!` line goes on with the interpreter. -/
lemma doExecveInner_script {interp iarg abspath : Buf}
    (other : isMachoBinary host (kernelPath host.env path PATH_MAX) = false)
    (parsed : (host.read (kernelPath host.env path PATH_MAX)).bind parseShebang = some (interp, iarg))
    (executable : ¬(!host.canExecute (kernelPath host.env interp PATH_MAX)) = true)
    (found : (if path.head? = some slash then some (snprintf PATH_MAX path) else host.realpath path) = some abspath) :
    doExecveInner host (left + 1) (some path) argv =
      doExecveInner host left (some (kernelPath host.env interp PATH_MAX))
        (kernelPath host.env interp PATH_MAX :: scriptArgs iarg abspath argv) := by
  rw [doExecveInner.eq_def]
  simp only [other, parsed, if_neg executable, found]

lemma le_length_scriptArgs {iarg abspath : Buf} :
    min (argv.tail.length + 1) 1022 ≤ (scriptArgs iarg abspath argv).length := by
  rw [scriptArgs, List.length_append, List.length_take, MACIFY_EXEC_MAX_ARGS]
  split
  · rw [List.length_singleton]
    omega
  · rw [List.length_cons, List.length_singleton]
    omega

/-- What is started is the file of the call with its arguments, or each level in between has put a script path in
    front of them. -/
lemma doExecveInner_macify (starts : doExecveInner host left (some path) argv = .macify binary target args) :
    isMachoBinary host target = true ∧
      ((target = kernelPath host.env path PATH_MAX ∧ args = argv.tail) ∨
        min (argv.tail.length + 1) 1022 ≤ args.length) := by
  induction left generalizing path argv with
  | zero =>
    rcases doExecveInner_inv starts with ⟨macho, here⟩ | ⟨less, _, _, _, eq, _⟩
    · exact ⟨macho, .inl here⟩
    · cases eq
  | succ left ih =>
    rcases doExecveInner_inv starts with ⟨macho, here⟩ | ⟨less, interp, iarg, abspath, eq, -, inner⟩
    · exact ⟨macho, .inl here⟩
    cases eq
    obtain ⟨macho, direct | longer⟩ := ih inner
    · rw [List.tail_cons] at direct
      exact ⟨macho, .inr (direct.2 ▸ le_length_scriptArgs)⟩
    · have more := @le_length_scriptArgs argv iarg abspath
      rw [List.tail_cons] at longer
      exact ⟨macho, .inr (by omega)⟩

lemma doExecveInner_start {s : Start} (starts : (doExecveInner host left (some path) argv).start host = some s) :
    (s.file = kernelPath host.env path PATH_MAX ∧ s.argv.tail = argv.tail) ∨
      min (argv.tail.length + 1) 1022 ≤ s.argv.tail.length := by
  cases outcome : doExecveInner host left (some path) argv with
  | macify binary target args =>
    obtain ⟨macho, parts⟩ := doExecveInner_macify outcome
    have either : host.isMachO target = true := by rw [isMachO_eq, macho, Bool.or_true]
    rw [outcome, Outcome.start, resolve_of_macho either, Option.some.injEq] at starts
    subst starts
    exact parts
  | kernel | error =>
    rw [outcome] at starts
    cases starts

end Levels

/-- The path names a script with the given line, for the loader and for `execve`, and the interpreter is a Mach-O file
    in the prefix. -/
structure Script (host : Host) (line : ShebangLine) (path target : Buf) : Prop where
  absolute : path.head? = some slash
  entry : ∃ bytes, host.read (entryFile host path) = some bytes ∧ line.Heads bytes
  guest : ∃ bytes, host.read (kernelPath host.env path PATH_MAX) = some bytes ∧ line.Heads bytes
  inPrefix : guestFile host.env line.interp = some target
  macho : host.isMachO target = true

namespace Script

variable {host : Host} {line : ShebangLine} {path target raw : Buf} {argv args : List Buf}
variable (script : Script host line path target)
include script

lemma short : target.length < PATH_MAX :=
  host.path_max target (file_of_macho script.macho)

lemma translate_target : host.translate target = some target := by
  rw [Host.translate, (guestFile_spec script.inPrefix).1.translatePath (by decide), snprintf_of_lt script.short]

lemma kernelPath_target : kernelPath host.env target PATH_MAX = target := by
  rw [kernelPath, ← Host.translate, script.translate_target, Option.getD_some]

lemma kernelPath_interp : kernelPath host.env line.interp PATH_MAX = target := by
  rw [kernelPath, (guestFile_spec script.inPrefix).2.2 _ (by decide), Option.getD_some, snprintf_of_lt script.short]

lemma interpreterFile_iff :
    interpreterFile host raw = target ↔ kernelPath host.env raw PATH_MAX = target := by
  have here := script.translate_target
  have exist := file_of_macho script.macho
  rw [interpreterFile, Host.translated, kernelPath, ← Host.translate]
  cases found : host.translate raw with
  | none => rfl
  | some t =>
    rw [Option.filter_some, Option.getD_some]
    split
    · rfl
    · next missing =>
      refine iff_of_false (fun eq => ?_) (fun eq => missing (eq ▸ exist))
      rw [Option.getD_none] at eq
      rw [eq, here, Option.some.injEq] at found
      exact missing (found ▸ exist)

lemma entry_hop : hop host (entryFile host path) = some line.word :=
  have ⟨_, read, heads⟩ := script.entry
  hop_of_heads read heads

lemma guest_parse : (host.read (kernelPath host.env path PATH_MAX)).bind parseShebang = some line.split := by
  obtain ⟨bytes, read, heads⟩ := script.guest
  rw [read, Option.bind_some, heads.exec]

lemma resolve_of_names (names : kernelPath host.env line.word PATH_MAX = target) :
    macifyResolveEntry host path argv = ⟨target, line.word :: path :: argv.tail.take 1021⟩ := by
  rw [macifyResolveEntry, followShebangs, script.entry_hop]
  dsimp only
  rw [script.interpreterFile_iff.mpr names, followShebangs, hop_of_macho script.macho]
  rfl

lemma execve_target (left : ℕ) :
    (doExecveInner host left (some target) argv).start host =
      if isMachoBinary host target = true ∧ host.macifyBinary.isSome = true then
        some ⟨target, target :: argv.tail⟩
      else none := by
  unfold doExecveInner
  dsimp only
  rw [script.kernelPath_target, parse_of_macho script.macho]
  cases isMachoBinary host target with
  | false => rfl
  | true =>
    cases host.macifyBinary with
    | none => rfl
    | some binary => exact congrArg some (resolve_of_macho script.macho)

lemma execve_script :
    macifyHookExecve host (some path) argv =
      if host.canExecute (kernelPath host.env line.split.1 PATH_MAX) then
        doExecveInner host 4 (some (kernelPath host.env line.split.1 PATH_MAX))
          (kernelPath host.env line.split.1 PATH_MAX ::
            scriptArgs line.split.2 (snprintf PATH_MAX path) argv)
      else .error ENOENT := by
  obtain ⟨bytes, read, heads⟩ := script.guest
  rw [macifyHookExecve, MACIFY_SHEBANG_MAX_DEPTH, doExecveInner]
  dsimp only
  rw [(not_macho_of_heads read heads).2, script.guest_parse, if_pos script.absolute]
  obtain ⟨interp, iarg⟩ := line.split
  split
  · next no _ => cases no
  · dsimp only
    cases host.canExecute (kernelPath host.env interp PATH_MAX) with
    | false | true => rfl

lemma execve_of_names (noArg : line.arg = []) (names : kernelPath host.env line.word PATH_MAX = target) :
    (macifyHookExecve host (some path) argv).start host =
      if host.canExecute target = true ∧ isMachoBinary host target = true ∧
          host.macifyBinary.isSome = true then
        some ⟨target, target :: snprintf PATH_MAX path :: argv.tail.take 1021⟩
      else none := by
  obtain ⟨noIarg, token⟩ := ShebangLine.split_of_noArg noArg
  have found : kernelPath host.env line.split.1 PATH_MAX = target := by
    rcases token with eq | eq
    · rw [eq, script.kernelPath_interp]
    · rw [eq, names]
  rw [script.execve_script, found, noIarg]
  by_cases executable : host.canExecute target = true
  · rw [if_pos executable, script.execve_target]
    simp only [executable, true_and]
    rfl
  · rw [if_neg executable, if_neg fun all => executable all.1]
    rfl

/-- If the prefix leaves room for the line, the loader finds the interpreter of a line without an argument exactly
    when no tab comes after it. -/
lemma names_iff (noArg : line.arg = []) (fits : host.env.macifyRoot.length + line.body.length < PATH_MAX) :
    kernelPath host.env line.word PATH_MAX = target ↔ ∀ b ∈ line.rest.head?, b = SPACE := by
  have short : line.word.length ≤ line.body.length :=
    (List.takeWhile_prefix _).length_le.trans (List.dropWhile_suffix _).length_le
  constructor
  · intro names b mem
    by_contra tab
    -- The two names would end in the same byte, but only that of the loader ends in a blank.
    have last : target.getLast? = line.word.getLast? := by
      rw [kernelPath] at names
      rcases translatePath_cases host.env line.word with none | ⟨q, -, len, last, found⟩
      · rw [← names, none, Option.getD_none]
      · rw [found _ (by decide), Option.getD_some, snprintf_of_lt (by omega)] at names
        rw [← names, last]
    have more : line.rest.takeWhile (· != SPACE) ≠ [] := by
      obtain ⟨after, rest⟩ := List.head?_eq_some_iff.mp mem
      rw [rest, List.takeWhile_cons_of_pos (by simpa using tab)]
      exact List.cons_ne_nil _ _
    rw [(guestFile_spec script.inPrefix).2.1, line.word_eq, List.getLast?_append_of_ne_nil _ more,
      List.getLast?_eq_some_getLast more] at last
    have nonblank := line.interp_word _ (List.mem_of_getLast? last)
    have blank := ShebangLine.rest_blank noArg _ ((List.takeWhile_prefix _).subset (List.getLast_mem more))
    exact Bool.false_ne_true (nonblank.symm.trans blank)
  · intro next
    have none : line.rest.takeWhile (· != SPACE) = [] := by
      cases rest : line.rest with
      | nil => rfl
      | cons b more => exact List.takeWhile_cons_of_neg (by simp [next b (by rw [rest]; rfl)])
    rw [line.word_eq, none, List.append_nil, script.kernelPath_interp]

lemma room :
    host.env.jailed = true ∨ host.env.macifyRoot.length < PATH_MAX := by
  refine (guestFile_spec script.inPrefix).1.imp_right fun ⟨_, inside⟩ => ?_
  obtain ⟨rest, eq, -⟩ := inDir_iff.mp inside
  have short := script.short
  rw [eq, List.length_append] at short
  omega

end Script

def ShebangLine.args (line : ShebangLine) : List Buf := if line.arg = [] then [] else [line.arg]

def Start.Runs (s : Start) (target : Buf) (args : List Buf) : Prop := s.file = target ∧ s.argv.tail = args

/-- The interpreter is started with its argument, the script path and the arguments of the vector. -/
def StartsAlike (host : Host) (line : ShebangLine) (path target : Buf) (argv : List Buf) : Prop :=
  (macifyResolveEntry host path argv).Runs target (line.args ++ path :: argv.tail) ∧
    ∃ s, (macifyHookExecve host (some path) argv).start host = some s ∧
      s.Runs target (line.args ++ path :: argv.tail)

section Starting

variable {host : Host} {line : ShebangLine} {path target : Buf}

/-- The loader never passes the argument on; it could still stand in the vector as the name of another script. -/
lemma names_of_startsAlike (script : Script host line path target) (alike : StartsAlike host line path target []) :
    line.arg = [] ∧ kernelPath host.env line.word PATH_MAX = target := by
  obtain ⟨⟨file, argv⟩, s, starts, runs⟩ := alike
  rcases resolve_cases host path [] with eq | ⟨raw, rawtok, followed, eq⟩
  · rw [eq] at file
    have first := script.entry_hop
    rw [show entryFile host path = target from file, hop_of_macho script.macho] at first
    cases first
  rw [eq] at file argv
  have hops : rawtok = line.args := by
    dsimp only at argv
    rw [List.tail_cons, List.tail_nil, List.take_nil] at argv
    exact List.append_cancel_right argv
  obtain ⟨-, before, followed, last⟩ := followed.cons_inv
  by_cases noArg : line.arg = []
  · rw [hops, ShebangLine.args, if_pos noArg] at followed
    rw [followed.nil_inv, script.entry_hop, Option.some.injEq] at last
    rw [last]
    exact ⟨noArg, script.interpreterFile_iff.mp file⟩
  · exfalso
    rw [hops, ShebangLine.args, if_neg noArg] at followed
    obtain ⟨other, _, followed, first⟩ := followed.cons_inv
    rw [followed.nil_inv, script.entry_hop, Option.some.injEq] at first
    obtain ⟨token, iarg⟩ := ShebangLine.split_of_word_eq_arg noArg first
    rw [script.execve_script] at starts
    split at starts
    · rcases doExecveInner_start starts with ⟨direct, -⟩ | longer
      · rw [runs.1, kernelPath_idem script.room, token, first] at direct
        rw [other, script.interpreterFile_iff.mpr direct.symm, hop_of_macho script.macho] at last
        cases last
      · rw [runs.2, ShebangLine.args, if_neg noArg, List.tail_cons, scriptArgs, if_neg iarg,
          List.tail_nil, List.take_nil] at longer
        exact absurd (show 3 ≤ 2 from longer) (by decide)
    · cases starts

/-- For every script with a Mach-O interpreter in the prefix, and the argument vectors of every length. -/
theorem script_start_iff (script : Script host line path target) (n : ℕ) :
    (∀ argv : List Buf, argv.length ≤ n → StartsAlike host line path target argv) ↔
      line.arg = [] ∧ kernelPath host.env line.word PATH_MAX = target ∧ path.length < PATH_MAX ∧
        (host.canExecute target = true ∧ isMachoBinary host target = true ∧
          host.macifyBinary.isSome = true) ∧ n ≤ 1022 := by
  constructor
  · intro alike
    obtain ⟨noArg, names⟩ := names_of_startsAlike script (alike [] (Nat.zero_le n))
    have args : line.args = [] := if_pos noArg
    obtain ⟨-, s, starts, -, argv⟩ := alike [] (Nat.zero_le n)
    rw [script.execve_of_names noArg names] at starts
    split at starts
    · next runs =>
      cases starts
      refine ⟨noArg, names, ?_, runs, ?_⟩
      · rw [args] at argv
        have len : (snprintf PATH_MAX path).length = path.length :=
          congrArg List.length (List.head_eq_of_cons_eq argv)
        rw [snprintf, List.length_take, PATH_MAX] at len
        rw [PATH_MAX]
        omega
      · obtain ⟨-, argv⟩ := (alike (List.replicate n path) (List.length_replicate ..).le).1
        rw [script.resolve_of_names names, args] at argv
        have len := congrArg List.length (List.tail_eq_of_cons_eq argv)
        rw [List.length_take, List.length_tail, List.length_replicate] at len
        omega
    · cases starts
  · rintro ⟨noArg, names, short, runs, fits⟩ argv len
    have args : line.args = [] := if_pos noArg
    have all : argv.tail.take 1021 = argv.tail := List.take_of_length_le (by rw [List.length_tail]; omega)
    refine ⟨?_, ⟨_, (script.execve_of_names noArg names).trans (if_pos runs), ?_⟩⟩
    · rw [script.resolve_of_names names, args, all]
      exact ⟨rfl, rfl⟩
    · rw [snprintf_of_lt short, args, all]
      exact ⟨rfl, rfl⟩

end Starting

def smallHost (script : Buf) : Host where
  env := ⟨false, none, ascii "/p"⟩
  file path :=
    if path = ascii "/p/s" then some ⟨some script, true⟩
    else if path = ascii "/p/b" then some ⟨some [0xCF, 0xFA, 0xED, 0xFE], true⟩
    else none
  realpath _ := none
  macifyBinary := some (ascii "/macify")
  path_max path found := by
    split at found
    · next eq => rw [eq]; decide
    split at found
    · next eq => rw [eq]; decide
    · cases found

lemma smallHost_script {line : ShebangLine} (interp : line.interp = ascii "/b") :
    Script (smallHost (line.text ++ [LF])) line (ascii "/s") (ascii "/p/b") where
  absolute := by decide
  entry := ⟨line.text ++ [LF], rfl, line.heads_lf⟩
  guest := ⟨line.text ++ [LF], rfl, line.heads_lf⟩
  inPrefix := by
    rw [interp]
    exact (by decide : guestFile ⟨false, none, ascii "/p"⟩ (ascii "/b") = some (ascii "/p/b"))
  macho := rfl

def plainLine : ShebangLine := ⟨ascii " /b ", clear_of_all (by decide), by decide, by decide⟩
def argLine : ShebangLine := ⟨ascii "/b -x", clear_of_all (by decide), by decide, by decide⟩
def tabLine : ShebangLine := ⟨ascii "/b\t", clear_of_all (by decide), by decide, by decide⟩

theorem script_start_iff_plain :
    StartsAlike (smallHost (ascii "#! /b \n")) plainLine (ascii "/s") (ascii "/p/b")
      [ascii "s", ascii "1"] :=
  (script_start_iff (smallHost_script (show plainLine.interp = ascii "/b" by decide)) 2).mpr (by decide)
    [ascii "s", ascii "1"] (le_refl 2)

/-- The loader drops the argument, and takes a tab for a part of the name. -/
theorem scripts_differ :
    let host := smallHost (ascii "#!/b -x\n")
    let tabHost := smallHost (ascii "#!/b\t\n")
    let argv := [ascii "s", ascii "1"]
    (Script host argLine (ascii "/s") (ascii "/p/b") ∧
      macifyResolveEntry host (ascii "/s") argv =
        ⟨ascii "/p/b", [ascii "/b", ascii "/s", ascii "1"]⟩ ∧
      (macifyHookExecve host (some (ascii "/s")) argv).start host =
        some ⟨ascii "/p/b", [ascii "/p/b", ascii "-x", ascii "/s", ascii "1"]⟩) ∧
    (Script tabHost tabLine (ascii "/s") (ascii "/p/b") ∧
      macifyResolveEntry tabHost (ascii "/s") argv =
        ⟨ascii "/b\t", [ascii "/b\t", ascii "/s", ascii "1"]⟩ ∧
      (macifyHookExecve tabHost (some (ascii "/s")) argv).start tabHost =
        some ⟨ascii "/p/b", [ascii "/p/b", ascii "/s", ascii "1"]⟩) :=
  ⟨⟨smallHost_script (show argLine.interp = ascii "/b" by decide), by decide +kernel, by decide +kernel⟩,
    smallHost_script (show tabLine.interp = ascii "/b" by decide), by decide +kernel, by decide +kernel⟩

end Macify.Exec
