import Macify.Lib.Interleaving
import Macify.Shim.ElfLookup

/-!
# First lookups at the same time

Threads that make their first call of `macify_elf_lookup` (`shim/io/dl.c`). What the code knows of the C library is in
five globals, which `find_libc_cb` stores one after the other; a call that finds one of them set uses them all. Main
result: `concurrent_lookups_iff`.
-/

namespace Macify.Threads
open Lib Shim.ElfLookup

def blankGlobals : Libc := ⟨⟨0, 0, 0, 0⟩, 0⟩

def storeGlobal (g : Libc) : ℕ → Libc → Libc
  | 0, s => { s with base := g.base }
  | 1, s => { s with symtab := g.symtab }
  | 2, s => { s with strtab := g.strtab }
  | 3, s => { s with nsyms := g.nsyms }
  | _, s => { s with versym := g.versym }

/-- The access that a thread makes next. `find` counts the stores that it has made. -/
inductive LookupPc where
  | test
  | find (g : Libc) (stored : ℕ)
  | symtab
  | strtab
  | loop (i : ℕ) (hidden : W64)
  | entry (i : ℕ) (hidden : W64)
  | name (i : ℕ) (hidden : W64) (s : Sym)
  | base (i : ℕ) (hidden : W64) (s : Sym)
  | versym (i : ℕ) (hidden addr : W64)
  | version (i : ℕ) (hidden addr : W64)
  | returned (addr : W64)

section Model

variable {ι : Type*} (mem : Mem) (objects : List PhdrInfo) (realDlsym : Option (CString → W64))
  (names : ι → CString)

inductive elfLookup (t : ι) : Libc → LookupPc → Libc → LookupPc → Prop
  | cached {s : Libc} :
    s.symtab ≠ 0 →
    elfLookup t s .test s .symtab
  | search {s : Libc} {g} :
    s.symtab = 0 →
    findLibc mem objects = some (some g) →
    elfLookup t s .test s (.find g 0)
  | missing {s : Libc} :
    s.symtab = 0 →
    findLibc mem objects = some none →
    elfLookup t s .test s .symtab
  | store {s g n} :
    n < 5 →
    elfLookup t s (.find g n) (storeGlobal g n s) (.find g (n + 1))
  | found {s g} :
    elfLookup t s (.find g 5) s .symtab
  | noSymtab {s : Libc} :
    s.symtab = 0 →
    elfLookup t s .symtab s (.returned (fallback realDlsym (names t)))
  | symtab {s : Libc} :
    s.symtab ≠ 0 →
    elfLookup t s .symtab s .strtab
  | noStrtab {s : Libc} :
    s.strtab = 0 →
    elfLookup t s .strtab s (.returned (fallback realDlsym (names t)))
  | strtab {s : Libc} :
    s.strtab ≠ 0 →
    elfLookup t s .strtab s (.loop 0 0)
  | ends {s : Libc} {i : ℕ} {hidden} :
    ¬(i : ℤ) < s.nsyms.toInt →
    elfLookup t s (.loop i hidden) s (.returned (if hidden ≠ 0 then hidden else fallback realDlsym (names t)))
  | next {s : Libc} {i : ℕ} {hidden} :
    (i : ℤ) < s.nsyms.toInt →
    elfLookup t s (.loop i hidden) s (.entry i hidden)
  | skip {s : Libc} {i : ℕ} {hidden} :
    ¬(symAt mem s.symtab i).IsReal →
    elfLookup t s (.entry i hidden) s (.loop (i + 1) hidden)
  | real {s : Libc} {i : ℕ} {hidden} :
    (symAt mem s.symtab i).IsReal →
    elfLookup t s (.entry i hidden) s (.name i hidden (symAt mem s.symtab i))
  | otherName {s : Libc} {i hidden y} :
    ¬y.HasName mem s.strtab (names t) →
    elfLookup t s (.name i hidden y) s (.loop (i + 1) hidden)
  | sameName {s : Libc} {i hidden y} :
    y.HasName mem s.strtab (names t) →
    elfLookup t s (.name i hidden y) s (.base i hidden y)
  | base {s : Libc} {i hidden y} :
    elfLookup t s (.base i hidden y) s (.versym i hidden (s.base + y.stValue))
  | unversioned {s : Libc} {i hidden addr} :
    s.versym = 0 →
    elfLookup t s (.versym i hidden addr) s (.returned addr)
  | versioned {s : Libc} {i hidden addr} :
    s.versym ≠ 0 →
    elfLookup t s (.versym i hidden addr) s (.version i hidden addr)
  | default {s : Libc} {i hidden addr} :
    ¬versionHidden mem s.versym i →
    elfLookup t s (.version i hidden addr) s (.returned addr)
  | hidden {s : Libc} {i hidden addr} :
    versionHidden mem s.versym i →
    elfLookup t s (.version i hidden addr) s (.loop (i + 1) (if hidden = 0 then addr else hidden))

def lookupStart : Config ι Libc LookupPc := ⟨blankGlobals, fun _ => .test⟩

def LookupsAgree [DecidableEq ι] : Prop :=
  ∀ c, Program.Reaches (elfLookup mem objects realDlsym names) lookupStart c →
    ∀ t addr, c.thread t = .returned addr →
      ∃ alone, macifyElfLookup mem objects realDlsym (names t) = some alone ∧ addr = alone.address

end Model

def globalsAt (g : Libc) (k : ℕ) : Libc where
  base := if 1 ≤ k then g.base else 0
  symtab := if 2 ≤ k then g.symtab else 0
  strtab := if 3 ≤ k then g.strtab else 0
  nsyms := if 4 ≤ k then g.nsyms else 0
  versym := if 5 ≤ k then g.versym else 0

lemma storeGlobal_globalsAt {g : Libc} {n k : ℕ} (lt : n < 5) (le : n ≤ k) :
    storeGlobal g n (globalsAt g k) = globalsAt g (max k (n + 1)) := by
  have reached m (ne : m ≠ n + 1) : (m ≤ max k (n + 1)) = (m ≤ k) := propext (by omega)
  interval_cases n <;> simp [storeGlobal, globalsAt, reached]

section Globals

variable {g : Libc} {k : ℕ}

lemma globalsAt_base (ge : 1 ≤ k) : (globalsAt g k).base = g.base := if_pos ge

lemma globalsAt_symtab (ge : 2 ≤ k) : (globalsAt g k).symtab = g.symtab := if_pos ge

lemma globalsAt_strtab (ge : 3 ≤ k) : (globalsAt g k).strtab = g.strtab := if_pos ge

lemma globalsAt_nsyms (ge : 4 ≤ k) : (globalsAt g k).nsyms = g.nsyms := if_pos ge

lemma globalsAt_versym (ge : 5 ≤ k) : (globalsAt g k).versym = g.versym := if_pos ge

lemma two_le_of_symtab (isSet : (globalsAt g k).symtab ≠ 0) : 2 ≤ k := by
  by_contra less
  exact isSet (if_neg less)

lemma three_le_of_strtab (isSet : (globalsAt g k).strtab ≠ 0) : 3 ≤ k := by
  by_contra less
  exact isSet (if_neg less)

lemma four_le_of_nsyms {i : ℕ} (lt : (i : ℤ) < (globalsAt g k).nsyms.toInt) : 4 ≤ k := by
  by_contra less
  have zero : (globalsAt g k).nsyms = 0 := if_neg less
  rw [zero] at lt
  exact absurd lt (not_lt.mpr (Int.natCast_nonneg i))

lemma five_le_of_versym (isSet : (globalsAt g k).versym ≠ 0) : 5 ≤ k := by
  by_contra less
  exact isSet (if_neg less)

end Globals

section Places

variable (mem : Mem) (g : Libc) (realDlsym : Option (CString → W64)) (name : CString)

structure FirstMatch (i : ℕ) : Prop where
  lt : (i : ℤ) < g.nsyms.toInt
  matched : Matches mem g.toSymbols name i
  first : ∀ j < i, ¬Matches mem g.toSymbols name j

def Outcome (company : Prop) (addr : W64) : Prop :=
  addr = (lookupIn mem realDlsym g name).address ∨
    company ∧ (addr = fallback realDlsym name ∨ ∃ i, FirstMatch mem g name i ∧ addr = addressOf mem g.toSymbols i)

/-- The rest of the loop gives the answer of a call made alone, and there was nothing to be found as long as the
    versions are not set. -/
structure OnTrack (company : Prop) (k i : ℕ) (hidden : W64) : Prop where
  rest : (scan mem g.toSymbols name g.nsyms.toInt.toNat 0 0).1 =
    (scan mem g.toSymbols name (g.nsyms.toInt.toNat - i) i hidden).1
  early : k < 5 → company ∧ ∀ j < i, ¬Matches mem g.toSymbols name j

inductive LookupAt (company : Prop) (k : ℕ) : LookupPc → Prop
  | test :
    (0 < k → company) →
    LookupAt company k .test
  | find {n} :
    n ≤ k →
    LookupAt company k (.find g n)
  | symtab :
    2 ≤ k →
    (k < 5 → company) →
    LookupAt company k .symtab
  | strtab :
    2 ≤ k →
    (k < 5 → company) →
    LookupAt company k .strtab
  | loop {i : ℕ} {hidden} :
    3 ≤ k →
    (k < 4 → hidden = 0) →
    OnTrack mem g name company k i hidden →
    LookupAt company k (.loop i hidden)
  | entry {i : ℕ} {hidden} :
    4 ≤ k →
    (i : ℤ) < g.nsyms.toInt →
    OnTrack mem g name company k i hidden →
    LookupAt company k (.entry i hidden)
  | name {i : ℕ} {hidden} :
    4 ≤ k →
    (i : ℤ) < g.nsyms.toInt →
    OnTrack mem g name company k i hidden →
    (symAt mem g.symtab i).IsReal →
    LookupAt company k (.name i hidden (symAt mem g.symtab i))
  | base {i : ℕ} {hidden} :
    4 ≤ k →
    (i : ℤ) < g.nsyms.toInt →
    OnTrack mem g name company k i hidden →
    Matches mem g.toSymbols name i →
    LookupAt company k (.base i hidden (symAt mem g.symtab i))
  | versym {i : ℕ} {hidden} :
    (i : ℤ) < g.nsyms.toInt →
    OnTrack mem g name company k i hidden →
    Matches mem g.toSymbols name i →
    LookupAt company k (.versym i hidden (addressOf mem g.toSymbols i))
  | version {i : ℕ} {hidden} :
    5 ≤ k →
    (i : ℤ) < g.nsyms.toInt →
    OnTrack mem g name company k i hidden →
    Matches mem g.toSymbols name i →
    g.versym ≠ 0 →
    LookupAt company k (.version i hidden (addressOf mem g.toSymbols i))
  | returned {addr} :
    Outcome mem g realDlsym name company addr →
    LookupAt company k (.returned addr)

end Places

section Invariant

variable {ι : Type*} {mem : Mem} {objects : List PhdrInfo} {g : Libc} {realDlsym : Option (CString → W64)}
  {names : ι → CString} {name : CString} {company : Prop} {k k' i : ℕ} {hidden : W64} {t : ι} {pc pc' : LookupPc}
  {s s' : Libc}

lemma OnTrack.mono (track : OnTrack mem g name company k i hidden) (le : k ≤ k') :
    OnTrack mem g name company k' i hidden := ⟨track.rest, fun lt => track.early (le.trans_lt lt)⟩

lemma LookupAt.mono (place : LookupAt mem g realDlsym name company k pc) (le : k ≤ k') (others : company) :
    LookupAt mem g realDlsym name company k' pc := by
  cases place with
  | test _ => exact .test fun _ => others
  | find stored => exact .find (stored.trans le)
  | symtab ge _ => exact .symtab (ge.trans le) fun _ => others
  | strtab ge _ => exact .strtab (ge.trans le) fun _ => others
  | loop ge blank track => exact .loop (ge.trans le) (fun lt => blank (le.trans_lt lt)) (track.mono le)
  | entry ge lt track => exact .entry (ge.trans le) lt (track.mono le)
  | name ge lt track real => exact .name (ge.trans le) lt (track.mono le) real
  | base ge lt track matched => exact .base (ge.trans le) lt (track.mono le) matched
  | versym lt track matched => exact .versym lt (track.mono le) matched
  | version ge lt track matched isSet => exact .version (ge.trans le) lt (track.mono le) matched isSet
  | returned outcome => exact .returned outcome

lemma left_succ (lt : (i : ℤ) < g.nsyms.toInt) : g.nsyms.toInt.toNat - i = g.nsyms.toInt.toNat - (i + 1) + 1 := by
  omega

section

variable (track : OnTrack mem g name company k i hidden)
include track

lemma OnTrack.skip (lt : (i : ℤ) < g.nsyms.toInt)
    (other : ¬Matches mem g.toSymbols name i) : OnTrack mem g name company k (i + 1) hidden where
  rest := by
    rw [track.rest, left_succ lt, scan_skip other]
  early less := by
    obtain ⟨others, none⟩ := track.early less
    refine ⟨others, fun j before => ?_⟩
    rcases Nat.lt_succ_iff_lt_or_eq.mp before with before | rfl
    · exact none j before
    · exact other

lemma OnTrack.keep (all : 5 ≤ k) (lt : (i : ℤ) < g.nsyms.toInt)
    (matched : Matches mem g.toSymbols name i) (isHidden : Hidden mem g.toSymbols i) :
    OnTrack mem g name company k (i + 1) (if hidden = 0 then addressOf mem g.toSymbols i else hidden) where
  rest := by
    rw [track.rest, left_succ lt, scan_hidden matched isHidden]
  early less := absurd all (Nat.not_le_of_lt less)

lemma OnTrack.default (lt : (i : ℤ) < g.nsyms.toInt)
    (matched : Matches mem g.toSymbols name i) (visible : ¬Hidden mem g.toSymbols i) :
    addressOf mem g.toSymbols i = (lookupIn mem realDlsym g name).address := by
  have found := track.rest
  rw [left_succ lt, scan_default matched visible] at found
  rw [lookupIn]
  dsimp only
  rw [found]
  rfl

lemma OnTrack.ends (last : ¬(i : ℤ) < g.nsyms.toInt) :
    (if hidden ≠ 0 then hidden else fallback realDlsym name) = (lookupIn mem realDlsym g name).address := by
  have found := track.rest
  rw [Nat.sub_eq_zero_of_le (by omega), scan] at found
  rw [lookupIn]
  dsimp only
  rw [found]
  split <;> rfl

end

def LookupRight (g : Libc) (k : ℕ) (s : Libc) : Prop := s = globalsAt g k

lemma elfLookup_next (found : findLibc mem objects = some (some g)) (right : LookupRight g k s)
    (place : LookupAt mem g realDlsym (names t) company k pc)
    (step : elfLookup mem objects realDlsym names t s pc s' pc') :
    ∃ k', k ≤ k' ∧ LookupRight g k' s' ∧ LookupAt mem g realDlsym (names t) company k' pc' := by
  have usable := findLibc_usable found
  subst right
  cases step with
  | cached isSet =>
    cases place with
    | test others =>
      have ge := two_le_of_symtab isSet
      exact ⟨k, le_refl k, rfl, .symtab ge fun _ => others (by omega)⟩
  | search _ found' =>
    cases found.symm.trans found'
    exact ⟨k, le_refl k, rfl, .find (Nat.zero_le k)⟩
  | missing _ none => cases found.symm.trans none
  | @store _ n lt =>
    cases place with
    | find stored =>
      exact ⟨max k (n + 1), le_max_left _ _, storeGlobal_globalsAt lt stored, .find (le_max_right _ _)⟩
  | found =>
    cases place with
    | find stored => exact ⟨k, le_refl k, rfl, .symtab (by omega) fun less => by omega⟩
  | noSymtab unset =>
    cases place with
    | symtab ge _ => exact absurd unset ((globalsAt_symtab ge).trans_ne usable.symtab)
  | symtab _ =>
    cases place with
    | symtab ge others => exact ⟨k, le_refl k, rfl, .strtab ge others⟩
  | noStrtab unset =>
    cases place with
    | strtab ge others =>
      have less : ¬3 ≤ k := fun ge => (globalsAt_strtab ge).trans_ne usable.strtab unset
      exact ⟨k, le_refl k, rfl, .returned (.inr ⟨others (by omega), .inl rfl⟩)⟩
  | strtab isSet =>
    cases place with
    | strtab _ others =>
      exact ⟨k, le_refl k, rfl, .loop (three_le_of_strtab isSet) (fun _ => rfl) ⟨rfl, fun less => ⟨others less, nofun⟩⟩⟩
  | ends last =>
    cases place with
    | loop ge blank track =>
      refine ⟨k, le_refl k, rfl, .returned ?_⟩
      by_cases all : 4 ≤ k
      · rw [globalsAt_nsyms all] at last
        exact .inl (track.ends last)
      · rw [blank (by omega)]
        exact .inr ⟨(track.early (by omega)).1, .inl rfl⟩
  | next lt =>
    cases place with
    | loop _ _ track =>
      have ge := four_le_of_nsyms lt
      rw [globalsAt_nsyms ge] at lt
      exact ⟨k, le_refl k, rfl, .entry ge lt track⟩
  | skip other =>
    cases place with
    | entry ge lt track =>
      rw [globalsAt_symtab (by omega)] at other
      exact ⟨k, le_refl k, rfl, .loop (by omega) (by omega) (track.skip lt fun matched => other matched.1)⟩
  | real real =>
    cases place with
    | entry ge lt track =>
      rw [globalsAt_symtab (by omega)] at real ⊢
      exact ⟨k, le_refl k, rfl, .name ge lt track real⟩
  | otherName other =>
    cases place with
    | name ge lt track real =>
      rw [globalsAt_strtab (by omega)] at other
      exact ⟨k, le_refl k, rfl, .loop (by omega) (by omega) (track.skip lt fun matched => other matched.2)⟩
  | sameName named =>
    cases place with
    | name ge lt track real =>
      rw [globalsAt_strtab (by omega)] at named
      exact ⟨k, le_refl k, rfl, .base ge lt track ⟨real, named⟩⟩
  | base =>
    cases place with
    | base ge lt track matched =>
      rw [globalsAt_base (by omega)]
      exact ⟨k, le_refl k, rfl, .versym lt track matched⟩
  | unversioned unset =>
    cases place with
    | versym lt track matched =>
      refine ⟨k, le_refl k, rfl, .returned ?_⟩
      by_cases all : 5 ≤ k
      · have none : g.versym = 0 := (globalsAt_versym all).symm.trans unset
        exact .inl (track.default lt matched fun isHidden => isHidden.1 none)
      · obtain ⟨others, first⟩ := track.early (by omega)
        exact .inr ⟨others, .inr ⟨_, ⟨lt, matched, first⟩, rfl⟩⟩
  | versioned isSet =>
    cases place with
    | versym lt track matched =>
      have ge := five_le_of_versym isSet
      rw [globalsAt_versym ge] at isSet
      exact ⟨k, le_refl k, rfl, .version ge lt track matched isSet⟩
  | default visible =>
    cases place with
    | version ge lt track matched _ =>
      rw [globalsAt_versym ge] at visible
      exact ⟨k, le_refl k, rfl, .returned (.inl (track.default lt matched fun isHidden => visible isHidden.2))⟩
  | hidden isHidden =>
    cases place with
    | version ge lt track matched isSet =>
      rw [globalsAt_versym ge] at isHidden
      exact ⟨k, le_refl k, rfl, .loop (by omega) (by omega) (track.keep ge lt matched ⟨isSet, isHidden⟩)⟩

lemma lookup_keeps (found : findLibc mem objects = some (some g)) :
    Program.Keeps (elfLookup mem objects realDlsym names) (LookupRight g)
      (fun k t pc => LookupAt mem g realDlsym (names t) (∃ u, u ≠ t) k pc) fun _ k k' => k ≤ k' where
  own := elfLookup_next found
  other le ne place := place.mono le ⟨_, ne.symm⟩

end Invariant

/-- Where a thread may be if there is no C library to be found; `ended` says that the search ends. -/
inductive NoLibcAt (ended : Prop) (fallback : W64) : LookupPc → Prop
  | test :
    NoLibcAt ended fallback .test
  | symtab :
    ended →
    NoLibcAt ended fallback .symtab
  | returned :
    ended →
    NoLibcAt ended fallback (.returned fallback)

lemma noLibc_keeps {ι : Type*} {mem : Mem} {objects : List PhdrInfo} {realDlsym : Option (CString → W64)}
    {names : ι → CString} (nothing : ∀ g, findLibc mem objects ≠ some (some g)) :
    Program.Keeps (elfLookup mem objects realDlsym names) (fun _ s => s = blankGlobals)
      (fun (_ : Unit) t pc => NoLibcAt (findLibc mem objects = some none) (fallback realDlsym (names t)) pc)
      fun _ _ _ => True where
  own := by
    rintro g t s l s' l' rfl place step
    cases step with
    | cached isSet => exact absurd rfl isSet
    | search _ found => exact absurd found (nothing _)
    | missing _ ended => exact ⟨(), trivial, rfl, .symtab ended⟩
    | noSymtab _ =>
      cases place with
      | symtab ended => exact ⟨(), trivial, rfl, .returned ended⟩
    | symtab isSet => exact absurd rfl isSet
    | _ => cases place
  other _ _ place := place

section Returns

variable {ι : Type*} [DecidableEq ι] {mem : Mem} {objects : List PhdrInfo} {g : Libc}
  {realDlsym : Option (CString → W64)} {names : ι → CString} {t u : ι} {addr : W64}
  {c c' : Config ι Libc LookupPc}

lemma outcome_of_returned (found : findLibc mem objects = some (some g))
    (reaches : Program.Reaches (elfLookup mem objects realDlsym names) lookupStart c)
    (returned : c.thread t = .returned addr) : Outcome mem g realDlsym (names t) (∃ u, u ≠ t) addr := by
  have start : Program.Holds (LookupRight g) (fun k t pc => LookupAt mem g realDlsym (names t) (∃ u, u ≠ t) k pc) 0
      lookupStart := ⟨rfl, fun t => .test nofun⟩
  obtain ⟨k, holds⟩ := Program.holds_of_reaches (lookup_keeps found) start reaches
  have place := holds.thread t
  rw [returned] at place
  cases place with
  | returned outcome => exact outcome

lemma fallback_of_returned (nothing : ∀ g, findLibc mem objects ≠ some (some g))
    (reaches : Program.Reaches (elfLookup mem objects realDlsym names) lookupStart c)
    (returned : c.thread t = .returned addr) :
    findLibc mem objects = some none ∧ addr = fallback realDlsym (names t) := by
  obtain ⟨_, holds⟩ := Program.holds_of_reaches (noLibc_keeps nothing) (g := ()) ⟨rfl, fun _ => .test⟩ reaches
  have place := holds.thread t
  rw [returned] at place
  cases place with
  | returned ended => exact ⟨ended, rfl⟩

lemma stores_globals (realDlsym : Option (CString → W64)) (names : ι → CString) (u : ι)
    (found : findLibc mem objects = some (some g)) {k : ℕ} (le : k ≤ 5) :
    Program.Reaches (elfLookup mem objects realDlsym names) lookupStart
      (lookupStart.put u (globalsAt g k) (.find g k)) := by
  induction k with
  | zero => exact .step .refl (.search rfl found)
  | succ k ih =>
    have stored := (ih (by omega)).again (.store (by omega))
    rw [storeGlobal_globalsAt (by omega) (le_refl k), max_eq_right (Nat.le_succ k)] at stored
    exact stored

lemma reader_enters (realDlsym : Option (CString → W64)) (names : ι → CString) (ne : t ≠ u)
    (found : findLibc mem objects = some (some g)) {k : ℕ} (ge : 2 ≤ k) (le : k ≤ 5) :
    Program.Reaches (elfLookup mem objects realDlsym names) lookupStart
      ((lookupStart.put u (globalsAt g k) (.find g k)).put t (globalsAt g k) .strtab) := by
  have symtab : (globalsAt g k).symtab ≠ 0 := (globalsAt_symtab ge).trans_ne (findLibc_usable found).symtab
  have entered := (stores_globals realDlsym names u found le).turn ne (.cached symtab)
  exact entered.again (.symtab symtab)

lemma returns_fallback (ne : t ≠ u) (found : findLibc mem objects = some (some g)) :
    ∃ c, Program.Reaches (elfLookup mem objects realDlsym names) lookupStart c ∧
      c.thread t = .returned (fallback realDlsym (names t)) :=
  ⟨_, (reader_enters realDlsym names ne found (le_refl 2) (by decide)).again (.noStrtab rfl), Config.put_self⟩

lemma reader_skips {i : ℕ} (le : (i : ℤ) ≤ g.nsyms.toInt) (none : ∀ j < i, ¬Matches mem g.toSymbols (names t) j)
    (reaches : Program.Reaches (elfLookup mem objects realDlsym names) c (c'.put t (globalsAt g 4) (.loop 0 0))) :
    Program.Reaches (elfLookup mem objects realDlsym names) c (c'.put t (globalsAt g 4) (.loop i 0)) := by
  induction i with
  | zero => exact reaches
  | succ i ih =>
    have before := ih (by omega) fun j lt => none j (Nat.lt_succ_of_lt lt)
    have entry := before.again (.next (show (i : ℤ) < g.nsyms.toInt by omega))
    by_cases real : (symAt mem g.symtab i).IsReal
    · exact (entry.again (.real real)).again (.otherName fun named => none i (Nat.lt_succ_self i) ⟨real, named⟩)
    · exact entry.again (.skip real)

lemma returns_first_match (realDlsym : Option (CString → W64)) (names : ι → CString) (ne : t ≠ u)
    (found : findLibc mem objects = some (some g)) {i : ℕ} (first : FirstMatch mem g (names t) i) :
    ∃ c, Program.Reaches (elfLookup mem objects realDlsym names) lookupStart c ∧
      c.thread t = .returned (addressOf mem g.toSymbols i) := by
  have usable := findLibc_usable found
  have entered := reader_enters realDlsym names ne found (show 2 ≤ 4 by decide) (by decide)
  have loop := entered.again (.strtab usable.strtab)
  have here := reader_skips (le_of_lt first.lt) first.first loop
  have entry := here.again (.next first.lt)
  have name := (entry.again (.real first.matched.1)).again (.sameName first.matched.2)
  exact ⟨_, (name.again .base).again (.unversioned rfl), Config.put_self⟩

/-- Concurrent calls agree with calls made alone if, and only if, `dlsym` and the first definition in the table
    give their answer. -/
theorem concurrent_lookups_iff :
    LookupsAgree mem objects realDlsym names ↔
      ∀ g, findLibc mem objects = some (some g) → ∀ t u, t ≠ u →
        fallback realDlsym (names t) = (lookupIn mem realDlsym g (names t)).address ∧
        ∀ i, FirstMatch mem g (names t) i →
          addressOf mem g.toSymbols i = (lookupIn mem realDlsym g (names t)).address := by
  constructor
  · intro agree g found t u ne
    have answer : ∀ addr, (∃ c, Program.Reaches (elfLookup mem objects realDlsym names) lookupStart c ∧
        c.thread t = .returned addr) → addr = (lookupIn mem realDlsym g (names t)).address := by
      rintro addr ⟨c, reaches, returned⟩
      obtain ⟨alone, here, eq⟩ := agree c reaches t addr returned
      rw [macifyElfLookup, found] at here
      cases here
      exact eq
    exact ⟨answer _ (returns_fallback ne found),
      fun i first => answer _ (returns_first_match realDlsym names ne found first)⟩
  · intro same c reaches t addr returned
    by_cases libc : ∃ g, findLibc mem objects = some (some g)
    · obtain ⟨g, found⟩ := libc
      refine ⟨lookupIn mem realDlsym g (names t), by rw [macifyElfLookup, found]; rfl, ?_⟩
      rcases outcome_of_returned found reaches returned with alone | ⟨⟨u, ne⟩, early | ⟨i, first, early⟩⟩
      · exact alone
      · exact early.trans (same g found t u ne.symm).1
      · exact early.trans ((same g found t u ne.symm).2 i first)
    · obtain ⟨ended, eq⟩ := fallback_of_returned (fun g found => libc ⟨g, found⟩) reaches returned
      exact ⟨⟨fallback realDlsym (names t), 0⟩, by rw [macifyElfLookup, ended]; rfl, eq⟩

/-- A name with two versions; the one that is not the default is first in the table. -/
def compatFirst : Mem :=
  tableMem [⟨0, 0, 0⟩, ⟨1, 0x12, 0x100⟩, ⟨1, 0x12, 0x200⟩] [0, 97, 0] [0, 0x8002, 3]
    [1, 1, 1, 0, 0, 0, 1, 177670, 177671]

def letterA : CString := twoNames 1

/-- A call alone returns the default version, as `dlsym` does; of two threads one may return the other version. -/
theorem concurrent_lookup_returns_compat :
    (macifyElfLookup compatFirst [tableInfo 0x3000] (some fun _ => 0x10200) letterA).map Lookup.address =
        some 0x10200 ∧
      (∃ c, Program.Reaches (elfLookup compatFirst [tableInfo 0x3000] (some fun _ => 0x10200) fun _ : Fin 2 => letterA)
        lookupStart c ∧ c.thread 1 = .returned 0x10100) ∧
      ¬LookupsAgree compatFirst [tableInfo 0x3000] (some fun _ => 0x10200) fun _ : Fin 2 => letterA := by
  have alone : (macifyElfLookup compatFirst [tableInfo 0x3000] (some fun _ => 0x10200) letterA).map Lookup.address =
      some 0x10200 := by decide +kernel
  have found : findLibc compatFirst [tableInfo 0x3000] = some (some ⟨(tableTables 0x3000).toSymbols, 3⟩) := by
    decide +kernel
  have first : FirstMatch compatFirst ⟨(tableTables 0x3000).toSymbols, 3⟩ letterA 1 := by
    refine ⟨by decide, ⟨by decide +kernel, by decide +kernel⟩, fun j lt matched => ?_⟩
    obtain rfl : j = 0 := by omega
    exact absurd matched.1 (by decide +kernel)
  have address : addressOf compatFirst (tableTables 0x3000).toSymbols 1 = 0x10100 := by decide +kernel
  have race := returns_first_match (some fun _ => 0x10200) (fun _ : Fin 2 => letterA)
    (show (1 : Fin 2) ≠ 0 by decide) found first
  rw [address] at race
  refine ⟨alone, race, fun agree => ?_⟩
  obtain ⟨c, reaches, returned⟩ := race
  obtain ⟨r, here, eq⟩ := agree c reaches 1 _ returned
  rw [here, Option.map_some, ← eq] at alone
  exact absurd alone (by decide)

end Returns

end Macify.Threads
