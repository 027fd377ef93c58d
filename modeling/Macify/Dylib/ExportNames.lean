import Macify.Dylib.Resolve

/-!
# Names of exports

`parse_dylib_exports` takes one underscore off the name of a Mach-O symbol, if it has one, before it
stores the name. `macho_dylib_lookup` is called with a name of which the underscore was taken off as
well, and compares it with the stored names as it is and, in the same loop, without another underscore.
`exact_name_iff` says when the symbol that was meant is found.
-/

namespace Macify.Dylib
open Lib Image

structure Symbol where
  name : Buf
  addr : W64
  deriving DecidableEq

def Symbol.toExport (y : Symbol) : Export := ⟨exportName y.name, y.addr⟩

section Stored

variable {slide : W64} {syms : List Nlist} {acc : List Export}

lemma parseExports_eq (room : acc.length ≤ maxDylibSyms) :
    parseExports slide syms acc = (acc ++ syms.filterMap (exportOf slide)).take maxDylibSyms := by
  induction syms generalizing acc with
  | nil => rw [parseExports, List.filterMap_nil, List.append_nil, List.take_of_length_le room]
  | cons s syms ih =>
    rw [parseExports]
    split
    · next less =>
      cases found : exportOf slide s with
      | none =>
        rw [List.filterMap_cons_none found, Option.toList_none, List.append_nil]
        exact ih room
      | some e =>
        rw [List.filterMap_cons_some found, Option.toList_some, ih (by simpa using less),
          List.append_assoc, List.singleton_append]
    · next full =>
      have exact_fit : acc.length = maxDylibSyms := by omega
      rw [← exact_fit, List.take_left]

end Stored

def registryOf (dylibs : List (List Symbol)) : List DylibEntry :=
  dylibs.map fun symbols => { DylibEntry.blank with exports := symbols.map Symbol.toExport }

/-- Other names that are taken for `_sym`: `sym`, and `sym` without its underscore if it has only one. -/
def rival (sym name : Buf) : Bool :=
  name == sym || (sym.head? == some 0x5F && name == sym.tail && name.head? != some 0x5F)

section Lookup

variable {dylibs : List (List Symbol)} {sym name : Buf} {x : Symbol}

lemma exportName_cons_underscore (short : name.length < 255) : exportName (0x5F :: name) = name :=
  List.take_of_length_le short.le

lemma exportName_plain (short : name.length ≤ 255) (plain : name.head? ≠ some 0x5F) : exportName name = name := by
  unfold exportName
  split
  · exact absurd rfl plain
  · exact List.take_of_length_le short

lemma matches_eq (short : name.length ≤ 255) :
    (exportName name == sym || (sym.head? == some 0x5F && exportName name == sym.tail)) =
      (name == 0x5F :: sym || rival sym name) := by
  rw [Bool.eq_iff_iff]
  by_cases plain : name.head? = some 0x5F
  · -- the stored name is `name` without its underscore
    obtain ⟨rest, rfl⟩ : ∃ rest, name = 0x5F :: rest := by
      cases name with
      | nil => cases plain
      | cons c rest => exact ⟨rest, by rw [Option.some.inj plain]⟩
    rw [exportName_cons_underscore (by simpa using short)]
    have tail : sym.head? = some 0x5F ∧ rest = sym.tail ↔ 0x5F :: rest = sym := by
      cases sym with
      | nil => simp
      | cons c sym => simp [eq_comm]
    simp [rival, tail]
  · rw [exportName_plain short plain]
    have other : name ≠ 0x5F :: sym := by
      rintro rfl
      exact plain rfl
    simp [rival, other, plain]

lemma find?_or {α : Type*} {l : List α} {p q : α → Bool} {a : α} (first : l.find? p = some a) :
    l.find? (fun b => p b || q b) = some (((l.takeWhile fun b => !p b).find? q).getD a) := by
  induction l with
  | nil => cases first
  | cons b l ih =>
    cases here : p b with
    | true =>
      rw [List.find?_cons_of_pos here] at first
      rw [List.find?_cons_of_pos (by rw [here]; rfl), List.takeWhile_cons_of_neg (by simp [here])]
      exact first
    | false =>
      rw [List.find?_cons_of_neg (by simp [here])] at first
      rw [List.takeWhile_cons_of_pos (by simp [here])]
      cases other : q b with
      | true =>
        rw [List.find?_cons_of_pos (by rw [other, Bool.or_true]), List.find?_cons_of_pos other]
        rfl
      | false =>
        rw [List.find?_cons_of_neg (by simp [here, other]), List.find?_cons_of_neg (by simp [other])]
        exact ih first

lemma registryOf_exports :
    (registryOf dylibs).flatMap DylibEntry.exports = dylibs.flatten.map Symbol.toExport := by
  rw [registryOf, List.flatMap_map, List.map_flatten, List.flatMap_def]

lemma machoDylibLookup_eq (short : ∀ y ∈ dylibs.flatten, y.name.length ≤ 255)
    (first : dylibs.flatten.find? (fun y => y.name == 0x5F :: sym) = some x) :
    machoDylibLookup (registryOf dylibs) sym =
      (((dylibs.flatten.takeWhile fun y => !(y.name == 0x5F :: sym)).find?
        fun y => rival sym y.name).getD x).addr := by
  have found : (dylibs.flatten.map Symbol.toExport).find?
      (fun e => e.name == sym || (sym.head? == some 0x5F && e.name == sym.tail)) =
        (dylibs.flatten.find? fun y => y.name == 0x5F :: sym || rival sym y.name).map
          Symbol.toExport := by
    rw [List.find?_map]
    congr 1
    apply List.find?_congr
    intro y mem
    exact matches_eq (short y mem)
  rw [machoDylibLookup, registryOf_exports, found, find?_or first]
  rfl

/-- Exactly when the first symbol before `_sym` with a rival name, if any, has the same address. -/
theorem exact_name_iff (short : ∀ y ∈ dylibs.flatten, y.name.length ≤ 255)
    (first : dylibs.flatten.find? (fun y => y.name == 0x5F :: sym) = some x) :
    machoDylibLookup (registryOf dylibs) sym = x.addr ↔
      ∀ y, (dylibs.flatten.takeWhile fun y => !(y.name == 0x5F :: sym)).find?
        (fun y => rival sym y.name) = some y → y.addr = x.addr := by
  rw [machoDylibLookup_eq short first]
  cases ((dylibs.flatten.takeWhile fun y => !(y.name == 0x5F :: sym)).find? fun y => rival sym y.name) with
  | none => exact iff_of_true rfl nofun
  | some y => simp

end Lookup

theorem exact_name_iff_one :
    machoDylibLookup (registryOf [[⟨ascii "_g", 0x100⟩], [⟨ascii "_f", 0x200⟩]]) (ascii "f") = 0x200 :=
  (exact_name_iff (x := ⟨ascii "_f", 0x200⟩) (by decide) (by decide)).mpr fun _ found => by cases found

/-- Before `__f` there is `_f`, and before `_f` there is `f`. Both times the earlier symbol is found. -/
theorem exact_name_lost :
    machoDylibLookup (registryOf [[⟨ascii "_f", 0x100⟩], [⟨ascii "__f", 0x200⟩]]) (ascii "_f") = 0x100 ∧
      machoDylibLookup (registryOf [[⟨ascii "f", 0x100⟩], [⟨ascii "_f", 0x200⟩]]) (ascii "f") = 0x100 := by
  decide

end Macify.Dylib
