import Macify.Dylib.TableBounds
import Macify.Dylib.Traversal

/-!
# The dylibs of the main image

The walk over the load commands of the main image (`src/main.c`). A dylib named by `@rpath`, `@loader_path` or
`@executable_path` is not loaded at its command: its path goes on a list of at most eight entries that is loaded after
the walk, or is forgotten if the list is full. A path with a placeholder of a Homebrew bottle is loaded at once. Main
result: `main_dylibs_iff`.
-/

namespace Macify.Dylib
open Lib Image

/-- The load commands that matter to the walk. `refused` is a malformed command or a segment that cannot be mapped. -/
inductive Command where
  | rpath (path : Buf)
  | loadDylib (name : Buf)
  | refused
  | other
  deriving DecidableEq

def Command.rpath? : Command → Option Buf
  | rpath path => some path
  | loadDylib _ => none
  | refused => none
  | other => none

def Command.name? : Command → Option Buf
  | rpath _ => none
  | loadDylib name => some name
  | refused => none
  | other => none

structure Handles where
  shim : Bool
  libc : Bool
  deriving DecidableEq

/-- The files before and after a bottle was installed, the directory of the executable, the handles on a second
    open, and whether the image can be run and patched. -/
structure MainEnv where
  env : LoadEnv
  execDir : Buf
  reopened : Handles
  install : Buf → Option LoadEnv
  prepared : Bool

def maxDylibs : ℕ := 32
def maxDeferredDylibs : ℕ := 8
def maxRpaths : ℕ := 16

def hasPlaceholder (name : Buf) : Bool :=
  hasSubstring (ascii "@@HOMEBREW_CELLAR@@") name || hasSubstring (ascii "@@HOMEBREW_PREFIX@@") name

inductive Stop where
  | error
  /-- The calls of the loader do not come to an end within the fuel. -/
  | endless
  deriving DecidableEq

structure MainWalk where
  ndylibs : ℕ
  first : Handles
  deferred : List Buf
  registry : Loader

/-- The start of the walk. The shim is the first dylib, if it could be opened. -/
def MainWalk.start (opened : Handles) (registry : Loader) : MainWalk :=
  ⟨if opened.shim then 1 else 0, opened, [], registry⟩

namespace MainEnv

variable (m : MainEnv)

def expandRpath (rp : Buf) : Buf :=
  if (ascii "@loader_path").isPrefixOf rp then clip (m.execDir ++ rp.drop 12)
  else if (ascii "@executable_path").isPrefixOf rp then clip (m.execDir ++ rp.drop 16)
  else clip rp

def rpaths (commands : List Command) : List Buf :=
  ((commands.filterMap Command.rpath?).take maxRpaths).map m.expandRpath

def readable (path : Buf) : Option Buf := if m.env.fs.access path then some path else none

def resolve (rpaths : List Buf) (name : Buf) : Option Buf :=
  if (ascii "@rpath/").isPrefixOf name then
    rpaths.findSome? fun r => m.readable (clip (r ++ ascii "/" ++ name.drop 7))
  else if (ascii "@loader_path/").isPrefixOf name then m.readable (clip (m.execDir ++ ascii "/" ++ name.drop 13))
  else if (ascii "@executable_path/").isPrefixOf name then m.readable (clip (m.execDir ++ ascii "/" ++ name.drop 17))
  else none

/-- The path of a bottle. What follows the placeholder is taken from the front of the name. -/
def bottlePath (name : Buf) : Buf :=
  if hasSubstring (ascii "@@HOMEBREW_CELLAR@@") name then
    clip (m.env.macifyRoot ++ ascii "/usr/local/Cellar" ++ name.drop 19)
  else clip (m.env.macifyRoot ++ ascii "/usr/local" ++ name.drop 19)

def loadBottle (fuel : ℕ) (name : Buf) (st : Loader) : Except Stop Loader :=
  match machoLoadDylib m.env fuel (m.bottlePath name) st with
  | none => .error .endless
  | some (true, st) => .ok st
  | some (false, st) =>
    match m.install name with
    | none => .ok st
    | some env =>
      match machoLoadDylib env fuel (m.bottlePath name) st with
      | none => .error .endless
      | some (_, st) => .ok st

def takeDylib (fuel : ℕ) (w : MainWalk) (resolved : Option Buf) (name : Buf) : Except Stop MainWalk :=
  if hasPlaceholder name then
    match m.loadBottle fuel name w.registry with
    | .error stop => .error stop
    | .ok st => .ok { w with registry := st }
  else if resolved.isSome && decide (w.deferred.length < maxDeferredDylibs) then
    .ok { w with deferred := w.deferred ++ [name] }
  else .ok w

def onDylib (fuel : ℕ) (rpaths : List Buf) (w : MainWalk) (name : Buf) : Except Stop MainWalk :=
  let resolved := m.resolve rpaths name
  if maxDylibs ≤ w.ndylibs then .error .error
  else
    let handles := if w.ndylibs = 0 then m.reopened else w.first
    match m.takeDylib fuel w resolved (resolved.getD name) with
    | .error stop => .error stop
    | .ok w =>
      if handles.shim && handles.libc then .ok { w with ndylibs := w.ndylibs + 1, first := handles }
      else .error .error

def onCommand (fuel : ℕ) (rpaths : List Buf) (w : MainWalk) : Command → Except Stop MainWalk
  | .rpath _ => .ok w
  | .loadDylib name => m.onDylib fuel rpaths w name
  | .refused => .error .error
  | .other => .ok w

def walkFrom (fuel : ℕ) (rpaths : List Buf) : List Command → MainWalk → Except Stop MainWalk
  | [], w => .ok w
  | c :: cs, w =>
    match m.onCommand fuel rpaths w c with
    | .error stop => .error stop
    | .ok w => walkFrom fuel rpaths cs w

def load (fuel : ℕ) (commands : List Command) (w : MainWalk) : Except Stop Loader :=
  match m.walkFrom fuel (m.rpaths commands) commands w with
  | .error stop => .error stop
  | .ok w =>
    match loadDeps m.env fuel w.deferred w.registry with
    | none => .error .endless
    | some st => if m.prepared then .ok st else .error .error

def pathsOf (rpaths : List Buf) (cs : List Command) : List Buf :=
  cs.filterMap fun c => c.name?.bind (m.resolve rpaths)

def paths (commands : List Command) : List Buf := m.pathsOf (m.rpaths commands) commands

def deferredOf (commands : List Command) : List Buf :=
  ((m.paths commands).filter fun p => !hasPlaceholder p).take maxDeferredDylibs

end MainEnv

/-- The registry has an entry for the path. -/
def Loader.Holds (st : Loader) (p : Buf) : Prop := ∃ i < st.count, (st.slots i).source = p

/-- Every path is in the registry, or the run stopped with an error. -/
def Complete (paths : List Buf) : Except Stop Loader → Prop
  | .ok st => ∀ p ∈ paths, st.Holds p
  | .error .error => True
  | .error .endless => False

def Alone (env : LoadEnv) (p : Buf) : Prop :=
  ∃ f, env.fs.load p = some f ∧ f.isDylib = true ∧ env.requested p f = []

def Takes (env : LoadEnv) (st : Loader) (p : Buf) : Prop :=
  ¬Inert env st p ∧ ∃ f slide, env.fs.load p = some f ∧ mapDylibSegments (env.mmap st.maps) f = some slide

/-- The file is in the registry after the walk, or is on the list and is loaded when its turn comes. -/
def MainEnv.Reached (m : MainEnv) (commands : List Command) (st : Loader) (p : Buf) : Prop :=
  st.Holds p ∨ ∃ before after, m.deferredOf commands = before ++ p :: after ∧
    ∃ st', Loads m.env before st st' ∧ Takes m.env st' p

def MainEnv.Keeps (m : MainEnv) (fuel : ℕ) (commands : List Command) (w : MainWalk) : Prop :=
  match m.walkFrom fuel (m.rpaths commands) commands w with
  | .error .error => True
  | .error .endless => False
  | .ok w => m.prepared = false ∨ ∀ p ∈ m.paths commands, m.Reached commands w.registry p

section Lists

variable {m : MainEnv} {fuel : ℕ} {rps : List Buf} {cs : List Command} {c : Command} {w w' : MainWalk}
  {name : Buf} {resolved : Option Buf}

lemma take_append_take {α : Type*} {l r : List α} {n : ℕ} : (l.take n ++ r).take n = (l ++ r).take n := by
  rw [List.take_append, List.take_append, List.take_take, Nat.min_self, List.length_take]
  congr 2
  omega

lemma take_append_nil {α : Type*} {l : List α} {n : ℕ} (short : l.length ≤ n) : l = (l ++ []).take n := by
  rw [List.append_nil, List.take_of_length_le short]

def MainEnv.adds (m : MainEnv) (rps : List Buf) (cs : List Command) : List Buf :=
  (m.pathsOf rps cs).filter fun p => !hasPlaceholder p

lemma adds_cons : m.adds rps (c :: cs) = m.adds rps [c] ++ m.adds rps cs := by
  rw [MainEnv.adds, MainEnv.adds, MainEnv.adds, ← List.filter_append]
  congr 1
  exact List.filterMap_append (l := [c])

lemma takeDylib_bottle (placeholder : hasPlaceholder name = true)
    (taken : m.takeDylib fuel w resolved name = .ok w') : w'.deferred = w.deferred := by
  rw [MainEnv.takeDylib, if_pos placeholder] at taken
  cases bottle : m.loadBottle fuel name w.registry with
  | error stop =>
    rw [bottle] at taken
    cases taken
  | ok st =>
    rw [bottle] at taken
    cases taken
    rfl

variable (short : w.deferred.length ≤ maxDeferredDylibs)
include short

/-- A command adds its path to the list, as long as there is room. -/
lemma takeDylib_deferred (taken : m.takeDylib fuel w resolved (resolved.getD name) = .ok w') :
    w'.deferred = (w.deferred ++ resolved.toList.filter fun p => !hasPlaceholder p).take maxDeferredDylibs := by
  have whole : w.deferred.take maxDeferredDylibs = w.deferred := List.take_of_length_le short
  by_cases placeholder : hasPlaceholder (resolved.getD name) = true
  · have nothing : (resolved.toList.filter fun p => !hasPlaceholder p) = [] := by
      cases resolved with
      | none => rfl
      | some p =>
        rw [Option.getD_some] at placeholder
        exact List.filter_cons_of_neg (by rw [placeholder]; exact Bool.false_ne_true)
    rw [nothing, List.append_nil, whole, takeDylib_bottle placeholder taken]
  · rw [MainEnv.takeDylib, if_neg placeholder] at taken
    cases resolved with
    | none =>
      cases taken
      rw [Option.toList_none, List.filter_nil, List.append_nil, whole]
    | some p =>
      rw [Option.getD_some] at placeholder
      have plain : ([p].filter fun p => !hasPlaceholder p) = [p] :=
        List.filter_cons_of_pos (by rw [Bool.eq_false_of_not_eq_true placeholder]; rfl)
      rw [Option.toList_some, plain]
      by_cases room : w.deferred.length < maxDeferredDylibs
      · rw [if_pos (by rw [decide_eq_true room]; rfl)] at taken
        cases taken
        exact (List.take_of_length_le (by rw [List.length_append]; exact room)).symm
      · rw [if_neg (by rw [decide_eq_false room]; exact Bool.false_ne_true)] at taken
        cases taken
        rw [List.take_append_of_le_length (Nat.not_lt.mp room), whole]

lemma onDylib_deferred (step : m.onDylib fuel rps w name = .ok w') :
    w'.deferred = (w.deferred ++ m.adds rps [.loadDylib name]).take maxDeferredDylibs := by
  have adds : m.adds rps [.loadDylib name] =
      (m.resolve rps name).toList.filter fun p => !hasPlaceholder p := by
    rw [MainEnv.adds, MainEnv.pathsOf, List.filterMap_cons]
    cases named : m.resolve rps name with
    | none | some p => simp [Command.name?, named]
  rw [MainEnv.onDylib] at step
  dsimp only at step
  generalize (if w.ndylibs = 0 then m.reopened else w.first) = handles at step
  split at step
  · cases step
  · cases taken : m.takeDylib fuel w (m.resolve rps name) ((m.resolve rps name).getD name) with
    | error stop =>
      rw [taken] at step
      cases step
    | ok w₁ =>
      rw [taken] at step
      dsimp only at step
      split at step
      · cases step
        have deferred := takeDylib_deferred short taken
        rw [adds]
        exact deferred
      · cases step

lemma onCommand_deferred (step : m.onCommand fuel rps w c = .ok w') :
    w'.deferred = (w.deferred ++ m.adds rps [c]).take maxDeferredDylibs := by
  cases c with
  | rpath path =>
    cases step
    exact take_append_nil short
  | loadDylib name => exact onDylib_deferred short step
  | refused => cases step
  | other =>
    cases step
    exact take_append_nil short

/-- The walk leaves the first eight of the paths it adds. -/
lemma walkFrom_deferred (walk : m.walkFrom fuel rps cs w = .ok w') :
    w'.deferred = (w.deferred ++ m.adds rps cs).take maxDeferredDylibs := by
  induction cs generalizing w with
  | nil =>
    cases walk
    exact take_append_nil short
  | cons c cs ih =>
    rw [MainEnv.walkFrom] at walk
    cases step : m.onCommand fuel rps w c with
    | error stop =>
      rw [step] at walk
      cases walk
    | ok w₁ =>
      rw [step] at walk
      have deferred := onCommand_deferred short step
      have short₁ : w₁.deferred.length ≤ maxDeferredDylibs := by
        rw [deferred]
        exact List.length_take_le _ _
      rw [ih short₁ walk, deferred, take_append_take, @adds_cons m rps cs c, List.append_assoc]

end Lists

section Passes

variable {env : LoadEnv} {fuel : ℕ} {p q : Buf} {ds : List Buf} {st st' : Loader}

lemma holds_of_extends (ext : Extends st st') (same : st'.count = st.count) : st'.Holds q ↔ st.Holds q := by
  constructor
  · rintro ⟨i, lt, source⟩
    rw [same] at lt
    exact ⟨i, lt, ext.slots i lt ▸ source⟩
  · rintro ⟨i, lt, source⟩
    exact ⟨i, same ▸ lt, (ext.slots i lt).symm ▸ source⟩

/-- A file that asks for no other one is in the registry after its call if it was there before, or was taken. -/
lemma holds_call (alone : Alone env p) (run : Loads env [p] st st') :
    st'.Holds q ↔ st.Holds q ∨ q = p ∧ Takes env st p := by
  have ext := run.extends
  cases run with
  | inert inert rest =>
    cases rest
    exact (or_iff_left fun taken => taken.2.1 inert).symm
  | @failed _ _ _ _ f active file fails rest =>
    cases rest
    rw [holds_of_extends ext (countMap_count ..), or_iff_left]
    rintro ⟨-, -, g, slide, file', maps⟩
    cases file.symm.trans file'
    cases fails.symm.trans maps
  | @loaded _ _ _ st₁ _ f slide active file maps deps rest =>
    cases rest
    obtain ⟨g, file', -, nothing⟩ := alone
    cases file.symm.trans file'
    rw [nothing] at deps
    cases deps
    have takes : Takes env st p := ⟨active, f, slide, file, maps⟩
    have source : ∀ i, (((st.opened p f slide).publish st.count f).slots i).source =
        if i = st.count then p else (st.slots i).source := fun i => publish_source.trans opened_source
    constructor
    · rintro ⟨i, lt, eq⟩
      rw [source] at eq
      rw [publish_count, opened_count] at lt
      split at eq
      · exact .inr ⟨eq.symm, takes⟩
      · exact .inl ⟨i, by omega, eq⟩
    · rintro (⟨i, lt, eq⟩ | ⟨rfl, -⟩)
      · refine ⟨i, by rw [publish_count, opened_count]; omega, ?_⟩
        rw [source, if_neg lt.ne, eq]
      · refine ⟨st.count, by rw [publish_count, opened_count]; omega, ?_⟩
        rw [source, if_pos rfl]

/-- Loading files that ask for no other ones comes to an end. -/
lemma loadDeps_total (alone : ∀ p ∈ ds, Alone env p) (st : Loader) :
    ∃ st', loadDeps env (fuel + 1) ds st = some st' := by
  induction ds generalizing st with
  | nil => exact ⟨st, rfl⟩
  | cons p ds ih =>
    have rest := ih fun q mem => alone q (.tail _ mem)
    rw [loadDeps_cons]
    by_cases inert : Inert env st p
    · obtain ⟨ok, call, -⟩ := @machoLoadDylib_inert env fuel p st inert
      rw [call]
      exact rest st
    · obtain ⟨f, file, -, nothing⟩ := alone p (.head _)
      cases maps : mapDylibSegments (env.mmap st.maps) f with
      | none =>
        rw [machoLoadDylib_failed inert file maps]
        exact rest _
      | some slide =>
        rw [machoLoadDylib_loaded inert file maps, nothing]
        exact rest _

/-- After the pass over a list the registry has what it had, and each file of the list that was taken at its turn. -/
lemma holds_pass (alone : ∀ p ∈ ds, Alone env p) (run : Loads env ds st st') :
    st'.Holds q ↔ st.Holds q ∨ ∃ before after, ds = before ++ q :: after ∧
      ∃ s, Loads env before st s ∧ Takes env s q := by
  induction ds using List.reverseRecOn generalizing st' with
  | nil =>
    cases run
    refine (or_iff_left ?_).symm
    rintro ⟨before, after, eq, -⟩
    exact absurd eq.symm (List.append_ne_nil_of_right_ne_nil _ (List.cons_ne_nil _ _))
  | append_singleton ds p ih =>
    have alone' : ∀ q ∈ ds, Alone env q := fun q mem => alone q (List.mem_append_left _ mem)
    have last : Alone env p := alone p (List.mem_append_right _ (.head _))
    obtain ⟨s, first⟩ := @loadDeps_total env 0 ds alone' st
    have first := loads_of_loadDeps first
    obtain ⟨s', second⟩ := @loadDeps_total env 0 [p] (fun q mem => List.mem_singleton.mp mem ▸ last) s
    have second := loads_of_loadDeps second
    rw [run.unique (first.append second), holds_call last second, ih alone' first, or_assoc]
    refine or_congr_right ⟨?_, ?_⟩
    · rintro (⟨before, after, rfl, turn⟩ | ⟨rfl, takes⟩)
      · exact ⟨before, after ++ [p], List.append_assoc .., turn⟩
      · exact ⟨ds, [], rfl, s, first, takes⟩
    · rintro ⟨before, after, eq, s₁, turn, takes⟩
      rcases List.eq_nil_or_concat after with rfl | ⟨after, b, rfl⟩
      · obtain ⟨rfl, same⟩ := List.append_inj' eq rfl
        cases same
        rw [turn.unique first] at takes
        exact .inr ⟨rfl, takes⟩
      · rw [List.concat_eq_append, ← List.cons_append, ← List.append_assoc] at eq
        obtain ⟨rfl, -⟩ := List.append_inj' eq rfl
        exact .inl ⟨before, after, rfl, s₁, turn, takes⟩

/-- The pass adds one entry for a file at most, under the name of the file. -/
lemma names_pass (alone : ∀ p ∈ ds, Alone env p) (run : Loads env ds st st') :
    st'.count ≤ st.count + ds.length ∧
      ∀ q, st'.registered q = true → st.registered q = true ∨ ∃ p ∈ ds, p.take 255 = q := by
  induction run with
  | nil => exact ⟨le_rfl, fun q old => .inl old⟩
  | inert inert rest ih =>
    obtain ⟨few, names⟩ := ih fun q mem => alone q (.tail _ mem)
    exact ⟨few.trans (Nat.le_succ _), fun q new => (names q new).imp id List.exists_mem_cons_of_exists⟩
  | failed active file fails rest ih =>
    obtain ⟨few, names⟩ := ih fun q mem => alone q (.tail _ mem)
    simp only [registered_failed, countMap_count, reserve_count] at few names
    exact ⟨few.trans (Nat.le_succ _), fun q new => (names q new).imp id List.exists_mem_cons_of_exists⟩
  | @loaded p ps st st₁ st' f slide active file maps deps rest _ ih =>
    obtain ⟨g, file', -, nothing⟩ := alone p (.head _)
    cases file.symm.trans file'
    rw [nothing] at deps
    cases deps
    obtain ⟨few, names⟩ := ih fun q mem => alone q (.tail _ mem)
    rw [publish_count, opened_count] at few
    refine ⟨by rw [List.length_cons]; omega, fun q new => ?_⟩
    rcases names q new with here | listed
    · obtain ⟨i, lt, name⟩ := registered_iff.mp here
      rw [publish_count, opened_count] at lt
      rw [publish_name, opened_name] at name
      split at name
      · exact .inr ⟨p, .head _, name⟩
      · exact .inl (registered_iff.mpr ⟨i, by omega, name⟩)
    · exact .inr (List.exists_mem_cons_of_exists listed)

end Passes

/-- All paths are loaded just if the walk and the pass over the list keep them. -/
lemma complete_iff_keeps {m : MainEnv} {commands : List Command} {opened : Handles} {registry : Loader}
    (alone : ∀ p ∈ m.paths commands, Alone m.env p) {fuel : ℕ} :
    Complete (m.paths commands) (m.load (fuel + 1) commands (.start opened registry)) ↔
      m.Keeps (fuel + 1) commands (.start opened registry) := by
  rw [MainEnv.load, MainEnv.Keeps]
  cases walk : m.walkFrom (fuel + 1) (m.rpaths commands) commands (.start opened registry) with
  | error stop =>
    cases stop with
    | error | endless => exact Iff.rfl
  | ok w =>
    have deferred : w.deferred = m.deferredOf commands := walkFrom_deferred (Nat.zero_le _) walk
    have alone' : ∀ p ∈ m.deferredOf commands, Alone m.env p := fun p mem =>
      alone p (List.mem_of_mem_filter (List.mem_of_mem_take mem))
    obtain ⟨st, pass⟩ := @loadDeps_total m.env fuel (m.deferredOf commands) alone' w.registry
    dsimp only
    rw [deferred, pass]
    dsimp only
    cases m.prepared with
    | false => exact iff_of_true trivial (.inl rfl)
    | true =>
      rw [if_pos rfl, or_iff_right (by decide)]
      exact forall₂_congr fun p _ => holds_pass alone' (loads_of_loadDeps pass)

/-- All files are registered when the fixups start, or the loader has stopped, exactly when every file that the
    walk has not loaded is among the first eight without a placeholder and can be loaded then. -/
theorem main_dylibs_iff (m : MainEnv) (commands : List Command) (opened : Handles) (registry : Loader)
    (alone : ∀ p ∈ m.paths commands, Alone m.env p) (fuel : ℕ) :
    Complete (m.paths commands) (m.load (fuel + 1) commands (.start opened registry)) ↔
      m.Keeps (fuel + 1) commands (.start opened registry) :=
  complete_iff_keeps alone

/-- The image is run and patched, its files go on the list, and each one of the list can be loaded from the registry
    that the walk leaves. -/
structure PlainImage (m : MainEnv) (commands : List Command) (st : Loader) : Prop where
  prepared : m.prepared = true
  plain : ∀ p ∈ m.paths commands, hasPlaceholder p = false
  distinct : (m.paths commands).Nodup
  short : ∀ p ∈ m.paths commands, p.length ≤ 255
  fresh : ∀ p ∈ m.paths commands, ¬st.Holds p ∧ st.registered p = false
  room : st.count + maxDeferredDylibs ≤ maxMachoDylibs
  maps : ∀ p ∈ m.paths commands, ∀ f, m.env.fs.load p = some f → ∀ k, mapDylibSegments (m.env.mmap k) f ≠ none

namespace PlainImage

variable {m : MainEnv} {commands : List Command} {opened : Handles} {registry st : Loader} {w : MainWalk} {fuel : ℕ}

lemma deferredOf_eq (image : PlainImage m commands st) :
    m.deferredOf commands = (m.paths commands).take maxDeferredDylibs := by
  rw [MainEnv.deferredOf, List.filter_eq_self.mpr]
  intro p mem
  rw [image.plain p mem]
  rfl

/-- Of a plain image, the files on the list are reached. -/
lemma reached_iff (image : PlainImage m commands st) (alone : ∀ p ∈ m.paths commands, Alone m.env p) {p : Buf}
    (mem : p ∈ m.paths commands) :
    m.Reached commands st p ↔ p ∈ (m.paths commands).take maxDeferredDylibs := by
  rw [MainEnv.Reached, or_iff_right (image.fresh p mem).1, image.deferredOf_eq]
  constructor
  · rintro ⟨before, after, eq, -⟩
    rw [eq]
    exact List.mem_append_right _ List.mem_cons_self
  · intro listed
    obtain ⟨before, after, eq⟩ := List.append_of_mem listed
    have sub : ∀ q ∈ before, q ∈ m.paths commands := fun q inside =>
      List.mem_of_mem_take (eq ▸ List.mem_append_left _ inside)
    obtain ⟨st', run⟩ := @loadDeps_total m.env 0 before (fun q inside => alone q (sub q inside)) st
    have run := loads_of_loadDeps run
    obtain ⟨few, names⟩ := names_pass (fun q inside => alone q (sub q inside)) run
    obtain ⟨f, file, dylib, -⟩ := alone p mem
    obtain ⟨slide, maps⟩ := Option.ne_none_iff_exists'.mp (image.maps p mem f file st'.maps)
    refine ⟨before, after, eq, st', run, ?_, f, slide, file, maps⟩
    rintro (full | registered | other)
    · have length := congrArg List.length eq
      have room := image.room
      rw [List.length_take, List.length_append, List.length_cons] at length
      omega
    · rcases names p registered with old | ⟨q, inside, name⟩
      · exact absurd old (by rw [(image.fresh p mem).2]; exact Bool.false_ne_true)
      · rw [List.take_of_length_le (image.short q (sub q inside))] at name
        have apart := (eq ▸ image.distinct.sublist (List.take_sublist ..) : (before ++ p :: after).Nodup)
        exact (List.disjoint_of_nodup_append apart) inside (name ▸ List.mem_cons_self)
    · exact Bool.false_ne_true ((other f file).symm.trans dylib)

/-- On plain images the files are all registered exactly when there are at most eight. -/
theorem complete_iff (image : PlainImage m commands w.registry) (alone : ∀ p ∈ m.paths commands, Alone m.env p)
    (walk : m.walkFrom (fuel + 1) (m.rpaths commands) commands (.start opened registry) = .ok w) :
    Complete (m.paths commands) (m.load (fuel + 1) commands (.start opened registry)) ↔
      (m.paths commands).length ≤ maxDeferredDylibs := by
  rw [complete_iff_keeps alone, MainEnv.Keeps, walk]
  dsimp only
  rw [image.prepared, or_iff_right (by decide)]
  constructor
  · intro all
    by_contra more
    obtain ⟨p, late⟩ := List.exists_mem_of_length_pos (l := (m.paths commands).drop maxDeferredDylibs)
      (by rw [List.length_drop]; omega)
    have mem := List.mem_of_mem_drop late
    exact List.disjoint_take_drop image.distinct le_rfl ((image.reached_iff alone mem).mp (all p mem)) late
  · intro few p mem
    rw [image.reached_iff alone mem, List.take_of_length_le few]
    exact mem

end PlainImage

def nineLetters : List UInt8 := (List.range 9).map fun k => UInt8.ofNat (0x61 + k)

def letterPath (c : UInt8) : Buf := [0x2F, c] ++ ascii ".dylib"

def nineFiles : FileSystem :=
  .ofList (nineLetters.map fun c => (letterPath c, smallDylib [] [0x5F, c])) (by decide)

def nineEnv : MainEnv where
  env := ⟨nineFiles, [], fun k => some (BitVec.ofNat 64 (0x10000 * (k + 1)))⟩
  execDir := []
  reopened := ⟨true, true⟩
  install _ := none
  prepared := true

def letterCommand (c : UInt8) : Command := .loadDylib (ascii "@loader_path/" ++ [c] ++ ascii ".dylib")

lemma holds_iff {st : Loader} {p : Buf} : st.Holds p ↔ p ∈ st.entries.map DylibEntry.source := by
  rw [List.mem_map]
  constructor
  · rintro ⟨i, lt, source⟩
    exact ⟨st.slots i, mem_entries.mpr ⟨i, lt, rfl⟩, source⟩
  · rintro ⟨e, mem, source⟩
    obtain ⟨i, lt, rfl⟩ := mem_entries.mp mem
    exact ⟨i, lt, source⟩

lemma ninePaths_eq : nineEnv.paths (nineLetters.map letterCommand) = nineLetters.map letterPath := by
  decide +kernel

lemma nineFiles_alone : ∀ p ∈ nineEnv.paths (nineLetters.map letterCommand), Alone nineEnv.env p := by
  have files : ∀ c ∈ nineLetters, nineFiles.load (letterPath c) = some (smallDylib [] [0x5F, c]) := by
    rw [show nineLetters = [0x61, 0x62, 0x63, 0x64, 0x65, 0x66, 0x67, 0x68, 0x69] from by decide]
    simp only [List.mem_cons, List.not_mem_nil, or_false]
    rintro c (rfl | rfl | rfl | rfl | rfl | rfl | rfl | rfl | rfl)
    all_goals decide +kernel
  rw [ninePaths_eq]
  intro p mem
  obtain ⟨c, letter, rfl⟩ := List.mem_map.mp mem
  exact ⟨smallDylib [] [0x5F, c], files c letter, rfl, rfl⟩

theorem main_dylibs_nine :
    (∀ p ∈ nineEnv.paths (nineLetters.map letterCommand), Alone nineEnv.env p) ∧
      (Complete (nineEnv.paths (nineLetters.map letterCommand))
          (nineEnv.load 1 (nineLetters.map letterCommand) (.start ⟨true, true⟩ .init)) ↔
        nineEnv.Keeps 1 (nineLetters.map letterCommand) (.start ⟨true, true⟩ .init)) :=
  ⟨nineFiles_alone, main_dylibs_iff nineEnv (nineLetters.map letterCommand) ⟨true, true⟩ .init nineFiles_alone 0⟩

/-- The ninth dylib is not in the registry when the fixups start, and there was no error. -/
theorem ninth_dylib_dropped : ∃ st,
    nineEnv.load 1 (nineLetters.map letterCommand) (.start ⟨true, true⟩ .init) = .ok st ∧
      st.entries.map DylibEntry.source = (nineLetters.take 8).map letterPath ∧
      letterPath 0x69 ∈ nineEnv.paths (nineLetters.map letterCommand) ∧ ¬st.Holds (letterPath 0x69) := by
  refine ⟨_, rfl, ?_, ?_, fun holds => ?_⟩
  · decide +kernel
  · decide +kernel
  · exact absurd (holds_iff.mp holds) (by decide +kernel)

end Macify.Dylib
