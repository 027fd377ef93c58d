import Mathlib.Data.List.Perm.Basic
import Macify.Image.Types

/-!
# Reference counts of CF objects

The shim has a handle of its own for SystemConfiguration (`shim/io/dl.c`) and allocates a few objects
(`shim/misc/cf.c`): strings, and dictionaries with an array of strings. They have no count of references: `CFRelease`
frees an object with all that it contains, and so does the function that `dlsym` returns for `CFRetain`. Main result:
`cf_references_safe_iff`.

An object never changes, so a pointer is given by the object that it points to.
-/

namespace Macify.Shim.CF
open Lib Image

inductive Block where
  | shim (id : ℕ)
  | guest (buffer : ℕ)
  deriving DecidableEq

inductive BytesTag where
  | string
  | data
  deriving DecidableEq

inductive PlainTag where
  | store
  | bool
  | null
  deriving DecidableEq

/-- An object (`struct sc_obj`) with what its `data` leads to. An array owns the block with its pointers. -/
inductive CFObj where
  | bytes (tag : BytesTag) (id : ℕ) (data : Option Block)
  | array (id vec : ℕ) (elems : List CFObj)
  | dict (id : ℕ) (data : CFObj)
  | plain (tag : PlainTag) (id : ℕ)

def CFObj.id : CFObj → ℕ
  | .bytes _ id _ => id
  | .array id _ _ => id
  | .dict id _ => id
  | .plain _ id => id

mutual

def macifyCFRelease : CFObj → List Block
  | .bytes _ id data => data.toList ++ [.shim id]
  | .array id vec elems => releaseAll elems ++ [.shim vec, .shim id]
  | .dict id data => macifyCFRelease data ++ [.shim id]
  | .plain _ id => [.shim id]

def releaseAll : List CFObj → List Block
  | [] => []
  | o :: os => macifyCFRelease o ++ releaseAll os

end

mutual

def CFObj.objects : CFObj → List CFObj
  | .bytes tag id data => [.bytes tag id data]
  | .array id vec elems => .array id vec elems :: objectsAll elems
  | .dict id data => .dict id data :: data.objects
  | .plain tag id => [.plain tag id]

def objectsAll : List CFObj → List CFObj
  | [] => []
  | o :: os => o.objects ++ objectsAll os

end

def CFObj.own : CFObj → List Block
  | .bytes _ id data => data.toList ++ [.shim id]
  | .array id vec _ => [.shim vec, .shim id]
  | .dict id _ => [.shim id]
  | .plain _ id => [.shim id]

def CFObj.memory (o : CFObj) : List Block := o.objects.flatMap CFObj.own

inductive Creation where
  | string (cstr : Option Buf)
  | store
  | copyValue
  | noCopy (bytes : Option ℕ) (numBytes : ℤ)

def serverStrings (next : ℕ) : List Buf → List CFObj
  | [] => []
  | _ :: servers => .bytes .string next (some (.shim (next + 1))) :: serverStrings (next + 2) servers

def serverDict (servers : List Buf) (next : ℕ) : CFObj :=
  let used := next + 1 + 2 * servers.length
  .dict (used + 1) (.array used next (serverStrings (next + 1) servers))

def create (servers : List Buf) (next : ℕ) : Creation → Option CFObj × ℕ
  | .string none => (none, next)
  | .string (some _) => (some (.bytes .string next (some (.shim (next + 1)))), next + 2)
  | .store => (some (.plain .store next), next + 1)
  | .copyValue =>
    if servers = [] then (none, next)
    else (some (serverDict servers next), next + 3 + 2 * servers.length)
  -- the bytes stay where they are
  | .noCopy bytes numBytes =>
    if bytes = none ∧ 0 < numBytes then (none, next)
    else (some (.bytes .string next (bytes.map .guest)), next + 1)

inductive Fn where
  | scDynamicStoreCreate
  | scDynamicStoreCopyValue
  | cfRelease
  | cfStringCreateWithCString
  | cfStringGetCString
  | cfStringGetLength
  | cfStringGetMaximumSizeForEncoding
  | cfArrayGetCount
  | cfArrayGetValueAtIndex
  | cfDictionaryGetValue
  | dnsConfigurationCopy
  | dnsConfigurationFree
  deriving DecidableEq

def symbols : List (Buf × Fn) :=
  [(ascii "SCDynamicStoreCreate", .scDynamicStoreCreate),
    (ascii "SCDynamicStoreCopyValue", .scDynamicStoreCopyValue),
    (ascii "CFRelease", .cfRelease),
    (ascii "CFRetain", .cfRelease),
    (ascii "CFStringCreateWithCString", .cfStringCreateWithCString),
    (ascii "CFStringGetCString", .cfStringGetCString),
    (ascii "CFStringGetLength", .cfStringGetLength),
    (ascii "CFStringGetMaximumSizeForEncoding", .cfStringGetMaximumSizeForEncoding),
    (ascii "CFArrayGetCount", .cfArrayGetCount),
    (ascii "CFArrayGetValueAtIndex", .cfArrayGetValueAtIndex),
    (ascii "CFDictionaryGetValue", .cfDictionaryGetValue),
    (ascii "dns_configuration_copy", .dnsConfigurationCopy),
    (ascii "dns_configuration_free", .dnsConfigurationFree)]

def dlsym (symbol : Buf) : Option Fn := (symbols.find? fun s => s.1 == symbol).map Prod.snd

def frees (fn : Option Fn) (o : CFObj) : List Block := if fn = some .cfRelease then macifyCFRelease o else []

inductive Accessor where
  | stringGetCString
  | stringGetLength
  | arrayGetCount
  | arrayGetValueAtIndex
  | dictionaryGetValue
  deriving DecidableEq

def Accessor.symbol : Accessor → Buf
  | .stringGetCString => ascii "CFStringGetCString"
  | .stringGetLength => ascii "CFStringGetLength"
  | .arrayGetCount => ascii "CFArrayGetCount"
  | .arrayGetValueAtIndex => ascii "CFArrayGetValueAtIndex"
  | .dictionaryGetValue => ascii "CFDictionaryGetValue"

inductive Op where
  | create (c : Creation)
  | retain (o : CFObj)
  | release (o : CFObj)
  | access (a : Accessor) (o : CFObj)

/-- The objects created, the first free number, how many references the guest has, and what was freed. -/
structure CFState where
  roots : List CFObj
  next : ℕ
  refs : ℕ → ℕ
  freed : List Block

namespace CFState

def init : CFState := ⟨[], 0, fun _ => 0, []⟩

def objects (s : CFState) : List CFObj := s.roots.flatMap CFObj.objects

def setRefs (s : CFState) (id n : ℕ) : CFState := { s with refs := fun k => if k = id then n else s.refs k }

def free (s : CFState) (blocks : List Block) : CFState := { s with freed := s.freed ++ blocks }

def add (s : CFState) (r : Option CFObj × ℕ) : CFState :=
  match r with
  | (none, next) => { s with next := next }
  | (some o, next) => { s.setRefs o.id 1 with roots := s.roots ++ [o], next := next }

def step (servers : List Buf) (s : CFState) : Op → CFState
  | .create c => s.add (create servers s.next c)
  | .retain o => (s.setRefs o.id (s.refs o.id + 1)).free (frees (dlsym (ascii "CFRetain")) o)
  | .release o => (s.setRefs o.id (s.refs o.id - 1)).free (frees (dlsym (ascii "CFRelease")) o)
  | .access a o => s.free (frees (dlsym a.symbol) o)

def run (servers : List Buf) (s : CFState) (ops : List Op) : CFState := ops.foldl (step servers) s

def Live (s : CFState) (o : CFObj) : Prop :=
  o ∈ s.objects ∧ ∃ holder ∈ s.objects, 0 < s.refs holder.id ∧ o ∈ holder.objects

/-- What the rules allow: to use what is alive, and to give up a reference that one has. -/
def Permitted (s : CFState) : Op → Prop
  | .create _ => True
  | .retain o => s.Live o
  | .release o => o ∈ s.objects ∧ 0 < s.refs o.id
  | .access _ o => s.Live o

def Proper (servers : List Buf) : CFState → List Op → Prop
  | _, [] => True
  | s, op :: ops => s.Permitted op ∧ Proper servers (s.step servers op) ops

/-- Nothing was freed that a reference leads to, nothing twice, and nothing of the guest. -/
structure Safe (s : CFState) : Prop where
  outstanding : ∀ o ∈ s.objects, 0 < s.refs o.id → ∀ b ∈ o.memory, b ∉ s.freed
  once : s.freed.Nodup
  foreign : ∀ buffer, .guest buffer ∉ s.freed

end CFState

/-- No call of `CFRetain`, and no `CFRelease` of a string with bytes of the guest. -/
def Op.Harmless : Op → Prop
  | .create _ => True
  | .retain _ => False
  | .release o => ∀ buffer, .guest buffer ∉ o.memory
  | .access _ _ => True

section Memory

variable {o : CFObj}

lemma memory_array {id vec : ℕ} {elems : List CFObj} :
    (CFObj.array id vec elems).memory = [.shim vec, .shim id] ++ (objectsAll elems).flatMap CFObj.own := by
  rw [CFObj.memory, CFObj.objects, List.flatMap_cons]
  rfl

mutual

/-- `CFRelease` frees all memory of an object, and each part of it once. -/
lemma release_perm : (o : CFObj) → (macifyCFRelease o).Perm o.memory
  | .bytes tag id data => by
    rw [macifyCFRelease, CFObj.memory, CFObj.objects, List.flatMap_singleton]
    exact .refl _
  | .array id vec elems => by
    rw [macifyCFRelease, memory_array]
    exact ((releaseAll_perm elems).append_right _).trans List.perm_append_comm
  | .dict id data => by
    rw [macifyCFRelease, CFObj.memory, CFObj.objects, List.flatMap_cons]
    exact ((release_perm data).append_right _).trans List.perm_append_comm
  | .plain tag id => by
    rw [macifyCFRelease, CFObj.memory, CFObj.objects, List.flatMap_singleton]
    exact .refl _

lemma releaseAll_perm : (os : List CFObj) → (releaseAll os).Perm ((objectsAll os).flatMap CFObj.own)
  | [] => by
    rw [releaseAll, objectsAll]
    exact .refl _
  | o :: os => by
    rw [releaseAll, objectsAll, List.flatMap_append]
    exact (release_perm o).append (releaseAll_perm os)

end

lemma mem_objects_self : o ∈ o.objects := by
  cases o with
  | bytes | array | dict | plain => rw [CFObj.objects]; exact .head _

lemma id_mem_own : Block.shim o.id ∈ o.own := by
  cases o with
  | bytes => exact List.mem_append_right _ (.head _)
  | array => exact .tail _ (.head _)
  | dict | plain => exact .head _

lemma id_mem_memory {h : CFObj} (inside : h ∈ o.objects) : Block.shim h.id ∈ o.memory :=
  List.mem_flatMap.mpr ⟨h, inside, id_mem_own⟩

end Memory

section Numbers

variable {blocks a b : List Block} {o h : CFObj} {i : ℕ}

def shimIds (blocks : List Block) : List ℕ :=
  blocks.filterMap fun
    | .shim id => some id
    | .guest _ => none

lemma mem_shimIds : i ∈ shimIds blocks ↔ Block.shim i ∈ blocks := by
  rw [shimIds, List.mem_filterMap]
  constructor
  · rintro ⟨b, mem, eq⟩
    cases b with
    | shim k => cases eq; exact mem
    | guest k => cases eq
  · exact fun mem => ⟨_, mem, rfl⟩

@[simp] lemma shimIds_append : shimIds (a ++ b) = shimIds a ++ shimIds b := List.filterMap_append ..

lemma nodup_of_shimIds (foreign : ∀ buffer, .guest buffer ∉ blocks) (nodup : (shimIds blocks).Nodup) :
    blocks.Nodup := by
  induction blocks with
  | nil => exact List.nodup_nil
  | cons b blocks ih =>
    cases b with
    | guest buffer => exact absurd (.head _) (foreign buffer)
    | shim id =>
      obtain ⟨new, rest⟩ := List.nodup_cons.mp nodup
      refine List.nodup_cons.mpr ⟨mt mem_shimIds.mpr new, ih (fun buffer mem => ?_) rest⟩
      exact foreign buffer (.tail _ mem)

def CFObj.ids (o : CFObj) : List ℕ := shimIds (macifyCFRelease o)

lemma ids_perm : o.ids.Perm (shimIds o.memory) := (release_perm o).filterMap _

lemma mem_ids : i ∈ o.ids ↔ Block.shim i ∈ o.memory := by
  rw [ids_perm.mem_iff, mem_shimIds]

lemma id_mem_ids (inside : h ∈ o.objects) : h.id ∈ o.ids := mem_ids.mpr (id_mem_memory inside)

lemma self_mem_ids : o.id ∈ o.ids := id_mem_ids mem_objects_self

lemma eq_of_id_eq (nodup : o.ids.Nodup) (inside : h ∈ o.objects) (same : h.id = o.id) : h = o := by
  rw [ids_perm.nodup_iff] at nodup
  cases o with
  | bytes | plain => rw [CFObj.objects] at inside; exact List.mem_singleton.mp inside
  | array id vec elems =>
    rw [CFObj.objects, List.mem_cons] at inside
    refine inside.resolve_right fun deeper => ?_
    rw [memory_array, shimIds_append, List.nodup_append] at nodup
    exact nodup.2.2 id (.tail _ (.head _)) h.id
      (mem_shimIds.mpr (List.mem_flatMap.mpr ⟨h, deeper, id_mem_own⟩)) same.symm
  | dict id data =>
    rw [CFObj.objects, List.mem_cons] at inside
    refine inside.resolve_right fun deeper => ?_
    rw [CFObj.memory, CFObj.objects, List.flatMap_cons, shimIds_append, List.nodup_append] at nodup
    exact nodup.2.2 id (.head _) h.id
      (mem_shimIds.mpr (List.mem_flatMap.mpr ⟨h, deeper, id_mem_own⟩)) same.symm

end Numbers

section Creations

variable {servers : List Buf} {next next' lo mid hi : ℕ} {c : Creation} {o : CFObj} {l r : List ℕ}

def Fresh (l : List ℕ) (lo hi : ℕ) : Prop := l.Nodup ∧ ∀ i ∈ l, lo ≤ i ∧ i < hi

lemma Fresh.append (left : Fresh l lo mid) (right : Fresh r mid hi) (le : lo ≤ mid) (le' : mid ≤ hi) :
    Fresh (l ++ r) lo hi := by
  refine ⟨List.nodup_append.mpr ⟨left.1, right.1, fun i mem j mem' eq => ?_⟩, fun i mem => ?_⟩
  · have below := left.2 i mem
    have above := right.2 j mem'
    omega
  · rcases List.mem_append.mp mem with mem | mem
    · have below := left.2 i mem
      omega
    · have above := right.2 i mem
      omega

lemma Fresh.perm (fresh : Fresh l lo hi) (perm : r.Perm l) : Fresh r lo hi :=
  ⟨perm.nodup_iff.mpr fresh.1, fun i mem => fresh.2 i (perm.mem_iff.mp mem)⟩

lemma fresh_singleton : Fresh [lo] lo (lo + 1) :=
  ⟨List.nodup_singleton lo, fun i mem => by rw [List.mem_singleton.mp mem]; omega⟩

lemma fresh_pair : Fresh [lo + 1, lo] lo (lo + 2) :=
  (fresh_singleton.append fresh_singleton (Nat.le_succ lo) (Nat.le_succ _)).perm (.swap ..)

lemma fresh_serverStrings :
    Fresh (shimIds (releaseAll (serverStrings next servers))) next (next + 2 * servers.length) := by
  induction servers generalizing next with
  | nil => exact ⟨List.nodup_nil, fun i mem => absurd mem List.not_mem_nil⟩
  | cons s servers ih =>
    have both : Fresh ([next + 1, next] ++ shimIds (releaseAll (serverStrings (next + 2) servers))) next
        (next + 2 + 2 * servers.length) := fresh_pair.append ih (by omega) (by omega)
    rw [serverStrings, releaseAll, shimIds_append, List.length_cons,
      show next + 2 * (servers.length + 1) = next + 2 + 2 * servers.length by omega]
    exact both

lemma fresh_serverDict : Fresh (serverDict servers next).ids next (next + 3 + 2 * servers.length) := by
  have strings := @fresh_serverStrings servers (next + 1)
  have tail : Fresh [next + 1 + 2 * servers.length, next + 1 + 2 * servers.length + 1]
      (next + 1 + 2 * servers.length) (next + 1 + 2 * servers.length + 2) :=
    fresh_singleton.append fresh_singleton (by omega) (by omega)
  have all := fresh_singleton.append (strings.append tail (by omega) (by omega)) (by omega) (by omega)
  rw [show next + 3 + 2 * servers.length = next + 1 + 2 * servers.length + 2 by omega]
  refine all.perm ?_
  rw [CFObj.ids, serverDict, macifyCFRelease, macifyCFRelease, List.append_assoc, shimIds_append]
  -- the pointers come first in memory and behind the strings when they are freed
  exact List.perm_middle

lemma fresh_create (created : create servers next c = (some o, next')) :
    Fresh o.ids next next' ∧ next ≤ next' := by
  cases c with
  | string cstr =>
    cases cstr with
    | none => cases created
    | some s => cases created; exact ⟨fresh_pair, Nat.le_add_right _ _⟩
  | store => cases created; exact ⟨fresh_singleton, Nat.le_succ _⟩
  | copyValue =>
    rw [create] at created
    split at created
    · cases created
    · cases created; exact ⟨fresh_serverDict, by omega⟩
  | noCopy bytes numBytes =>
    rw [create] at created
    split at created
    · cases created
    · cases created
      cases bytes with
      | none | some buffer => exact ⟨fresh_singleton, Nat.le_succ _⟩

lemma next_of_create_none (none : create servers next c = (none, next')) : next' = next := by
  cases c with
  | string cstr =>
    cases cstr with
    | none => cases none; rfl
    | some s => cases none
  | store => cases none
  | copyValue | noCopy bytes numBytes =>
    rw [create] at none
    split at none
    · cases none; rfl
    · cases none

end Creations

/-- Each block of the shim belongs to an object that the guest refers to, or was freed once. -/
structure Sound (s : CFState) (held : List CFObj) : Prop where
  distinct : (held.flatMap CFObj.ids ++ shimIds s.freed).Nodup
  below : ∀ i ∈ held.flatMap CFObj.ids ++ shimIds s.freed, i < s.next
  created : ∀ o ∈ s.objects, o.id < s.next
  one : ∀ o ∈ held, s.refs o.id = 1
  all : ∀ o ∈ s.objects, 0 < s.refs o.id → o ∈ held
  unused : ∀ i, s.next ≤ i → s.refs i = 0
  foreign : ∀ buffer, .guest buffer ∉ s.freed

section Runs

variable {servers : List Buf} {s : CFState} {held : List CFObj} {o : CFObj} {op : Op} {ops : List Op}

lemma sound_init : Sound .init [] where
  distinct := List.nodup_nil
  below _ mem := absurd mem List.not_mem_nil
  created _ mem := absurd mem List.not_mem_nil
  one _ mem := absurd mem List.not_mem_nil
  all _ mem := absurd mem List.not_mem_nil
  unused _ _ := rfl
  foreign _ := List.not_mem_nil

lemma Sound.safe (sound : Sound s held) : s.Safe where
  outstanding o created referenced b needed freed := by
    have mem := sound.all o created referenced
    cases b with
    | guest buffer => exact sound.foreign buffer freed
    | shim i =>
      have mine : i ∈ held.flatMap CFObj.ids := List.mem_flatMap.mpr ⟨o, mem, mem_ids.mpr needed⟩
      exact (List.nodup_append.mp sound.distinct).2.2 i mine i (mem_shimIds.mpr freed) rfl
  once := nodup_of_shimIds sound.foreign (List.nodup_append.mp sound.distinct).2.1
  foreign := sound.foreign

lemma objects_add {next : ℕ} : (s.add (some o, next)).objects = s.objects ++ o.objects := by
  rw [CFState.objects, CFState.add, List.flatMap_append, List.flatMap_singleton]
  rfl

lemma Sound.add {next : ℕ} (sound : Sound s held) (fresh : Fresh o.ids s.next next) (le : s.next ≤ next) :
    Sound (s.add (some o, next)) (o :: held) := by
  have old : ∀ i < s.next, i ≠ o.id := by
    intro i lt eq
    have ge := (fresh.2 o.id self_mem_ids).1
    omega
  have refs : ∀ i, i ≠ o.id → (s.add (some o, next)).refs i = s.refs i := fun i ne => if_neg ne
  refine ⟨?_, fun i mem => ?_, fun h mem => ?_, fun h mem => ?_, fun h mem pos => ?_, fun i ge => ?_,
    sound.foreign⟩
  · rw [List.flatMap_cons, List.append_assoc]
    refine List.nodup_append.mpr ⟨fresh.1, sound.distinct, fun i mem j mem' eq => ?_⟩
    have above := (fresh.2 i mem).1
    have below := sound.below j mem'
    omega
  · show i < next
    rw [List.flatMap_cons, List.append_assoc, List.mem_append] at mem
    rcases mem with mem | mem
    · exact (fresh.2 i mem).2
    · exact lt_of_lt_of_le (sound.below i mem) le
  · show h.id < next
    rw [objects_add, List.mem_append] at mem
    rcases mem with mem | mem
    · exact lt_of_lt_of_le (sound.created h mem) le
    · exact (fresh.2 h.id (id_mem_ids mem)).2
  · rw [List.mem_cons] at mem
    rcases mem with rfl | mem
    · exact if_pos rfl
    · have lt : h.id < s.next := sound.below h.id
        (List.mem_append_left _ (List.mem_flatMap.mpr ⟨h, mem, self_mem_ids⟩))
      rw [refs h.id (old h.id lt), sound.one h mem]
  · rw [objects_add, List.mem_append] at mem
    rcases mem with mem | mem
    · rw [refs h.id (old h.id (sound.created h mem))] at pos
      exact .tail _ (sound.all h mem pos)
    · by_cases same : h.id = o.id
      · rw [eq_of_id_eq fresh.1 mem same]
        exact .head _
      · rw [refs h.id same, sound.unused h.id (fresh.2 h.id (id_mem_ids mem)).1] at pos
        exact absurd pos (Nat.lt_irrefl 0)
  · have gt : i ≠ o.id := by
      have lt := (fresh.2 o.id self_mem_ids).2
      rintro rfl
      exact absurd ge (Nat.not_le.mpr lt)
    rw [refs i gt, sound.unused i (le.trans ge)]

lemma Sound.create (sound : Sound s held) (c : Creation) : ∃ held', Sound (s.step servers (.create c)) held' := by
  rw [CFState.step]
  rcases made : CF.create servers s.next c with ⟨result, next⟩
  cases result with
  | none =>
    rw [next_of_create_none made]
    exact ⟨held, sound⟩
  | some o =>
    obtain ⟨fresh, le⟩ := fresh_create made
    exact ⟨o :: held, sound.add fresh le⟩

lemma release_symbol : dlsym (ascii "CFRelease") = some .cfRelease := by decide

lemma retain_symbol : dlsym (ascii "CFRetain") = some .cfRelease := by decide

lemma access_symbol (a : Accessor) : dlsym a.symbol ≠ some .cfRelease := by
  cases a <;> decide

lemma step_release : s.step servers (.release o) = (s.setRefs o.id (s.refs o.id - 1)).free (macifyCFRelease o) := by
  rw [CFState.step, release_symbol, frees, if_pos rfl]

lemma step_retain : s.step servers (.retain o) = (s.setRefs o.id (s.refs o.id + 1)).free (macifyCFRelease o) := by
  rw [CFState.step, retain_symbol, frees, if_pos rfl]

section Freeing

variable {n i : ℕ} {h : CFObj} {front back : List CFObj} {freed : List Block}

lemma refs_free_self : ((s.setRefs o.id n).free freed).refs o.id = n := if_pos rfl

lemma refs_free_of_ne (ne : i ≠ o.id) : ((s.setRefs o.id n).free freed).refs i = s.refs i := if_neg ne

lemma freed_free {b : Block} : b ∈ ((s.setRefs o.id n).free freed).freed ↔ b ∈ s.freed ∨ b ∈ freed :=
  List.mem_append

lemma ids_moved : ((front ++ back).flatMap CFObj.ids ++ shimIds (freed ++ macifyCFRelease o)).Perm
    ((front ++ o :: back).flatMap CFObj.ids ++ shimIds freed) := by
  rw [shimIds_append, List.flatMap_append, List.flatMap_append, List.flatMap_cons, List.append_assoc,
    List.append_assoc, List.append_assoc]
  refine List.Perm.append_left _ ?_
  rw [← List.append_assoc]
  exact List.perm_append_comm

lemma id_ne_of_nodup (nodup : ((front ++ o :: back).flatMap CFObj.ids).Nodup) (mem : h ∈ front ++ back) :
    h.id ≠ o.id := by
  intro same
  have perm : ((front ++ o :: back).flatMap CFObj.ids).Perm (o.ids ++ (front ++ back).flatMap CFObj.ids) := by
    rw [← List.flatMap_cons]
    exact List.perm_middle.flatMap_right _
  rw [perm.nodup_iff, List.nodup_append] at nodup
  exact nodup.2.2 o.id self_mem_ids h.id (List.mem_flatMap.mpr ⟨h, mem, self_mem_ids⟩) same.symm

end Freeing

lemma Sound.release (sound : Sound s held) (created : o ∈ s.objects) (referenced : 0 < s.refs o.id)
    (harmless : ∀ buffer, .guest buffer ∉ o.memory) :
    ∃ held', Sound (s.step servers (.release o)) held' := by
  obtain ⟨front, back, rfl⟩ := List.append_of_mem (sound.all o created referenced)
  have apart : ∀ h ∈ front ++ back, h.id ≠ o.id := fun h => id_ne_of_nodup sound.distinct.of_append_left
  rw [step_release, sound.one o (List.mem_append_right _ (.head _))]
  refine ⟨front ++ back, ids_moved.nodup_iff.mpr sound.distinct, fun i mem => ?_, sound.created, fun h mem => ?_,
    fun h mem pos => ?_, fun i ge => ?_, fun buffer mem => ?_⟩
  · exact sound.below i (ids_moved.mem_iff.mp mem)
  · rw [refs_free_of_ne (apart h mem)]
    rw [List.mem_append] at mem
    exact sound.one h (List.mem_append.mpr (mem.imp_right (.tail _)))
  · have other : h.id ≠ o.id := by
      intro same
      rw [same, refs_free_self] at pos
      exact absurd pos (Nat.lt_irrefl 0)
    rw [refs_free_of_ne other] at pos
    have mem := sound.all h mem pos
    rw [List.mem_append, List.mem_cons] at mem
    rcases mem with mem | rfl | mem
    · exact List.mem_append_left _ mem
    · exact absurd rfl other
    · exact List.mem_append_right _ mem
  · by_cases same : i = o.id
    · rw [same, refs_free_self]
    · rw [refs_free_of_ne same]
      exact sound.unused i ge
  · rcases freed_free.mp mem with mem | mem
    · exact sound.foreign buffer mem
    · exact harmless buffer ((release_perm o).mem_iff.mp mem)

lemma step_access (a : Accessor) : s.step servers (.access a o) = s := by
  rw [CFState.step, frees, if_neg (access_symbol a), CFState.free, List.append_nil]

lemma Sound.step (sound : Sound s held) (permitted : s.Permitted op) (harmless : op.Harmless) :
    ∃ held', Sound (s.step servers op) held' := by
  cases op with
  | create c => exact sound.create c
  | retain o => exact harmless.elim
  | release o => exact sound.release permitted.1 permitted.2 harmless
  | access a o =>
    rw [step_access]
    exact ⟨held, sound⟩

lemma Sound.run (sound : Sound s held) (proper : CFState.Proper servers s ops)
    (harmless : ∀ op ∈ ops, op.Harmless) (k : ℕ) : (s.run servers (ops.take k)).Safe := by
  induction ops generalizing s held k with
  | nil => rw [List.take_nil]; exact sound.safe
  | cons op ops ih =>
    cases k with
    | zero => exact sound.safe
    | succ k =>
      obtain ⟨held', sound'⟩ := @Sound.step servers s held op sound proper.1 (harmless op (.head _))
      exact ih sound' proper.2 (fun op mem => harmless op (.tail _ mem)) k

/-- A call that the rules allow and that leaves all safe is harmless. -/
lemma harmless_of_safe (permitted : s.Permitted op) (safe : (s.step servers op).Safe) : op.Harmless := by
  cases op with
  | create c | access a o => trivial
  | retain o =>
    -- the object is freed, and the guest has a reference to it
    rw [step_retain] at safe
    have gone : Block.shim o.id ∈ macifyCFRelease o :=
      (release_perm o).mem_iff.mpr (id_mem_memory mem_objects_self)
    refine safe.outstanding o permitted.1 ?_ _ (id_mem_memory mem_objects_self) (freed_free.mpr (.inr gone))
    rw [refs_free_self]
    exact Nat.succ_pos _
  | release o =>
    rw [step_release] at safe
    intro buffer needed
    exact safe.foreign buffer (freed_free.mpr (.inr ((release_perm o).mem_iff.mpr needed)))

lemma harmless_of_run (proper : CFState.Proper servers s ops)
    (safe : ∀ k, (s.run servers (ops.take k)).Safe) : ∀ op ∈ ops, op.Harmless := by
  induction ops generalizing s with
  | nil => exact fun op mem => absurd mem List.not_mem_nil
  | cons op ops ih =>
    intro op' mem
    rw [List.mem_cons] at mem
    rcases mem with rfl | mem
    · exact harmless_of_safe proper.1 (safe 1)
    · exact ih proper.2 (fun k => safe (k + 1)) op' mem

end Runs

/-- Nothing is freed that a reference leads to, nor twice, nor a buffer of the guest, exactly when `CFRetain` is
    never called and no string with the guest's bytes is released. -/
theorem cf_references_safe_iff (servers : List Buf) (ops : List Op) (proper : CFState.Proper servers .init ops) :
    (∀ k, (CFState.init.run servers (ops.take k)).Safe) ↔ ∀ op ∈ ops, op.Harmless :=
  ⟨harmless_of_run proper, sound_init.run proper⟩

def firstString : CFObj := .bytes .string 0 (some (.shim 1))

def retainedOnce : List Op :=
  [.create (.string (some (ascii "k"))), .retain firstString, .release firstString, .release firstString]

section First

variable {servers : List Buf} {cstr : Buf}

lemma firstString_mem : firstString ∈ (CFState.init.step servers (.create (.string (some cstr)))).objects := by
  rw [CFState.objects, CFState.step, create, CFState.add]
  exact List.mem_flatMap.mpr ⟨firstString, .head _, mem_objects_self⟩

lemma retainedOnce_proper : CFState.Proper servers .init retainedOnce := by
  have mem := @firstString_mem servers (ascii "k")
  exact ⟨trivial, ⟨mem, firstString, mem, Nat.one_pos, mem_objects_self⟩, ⟨mem, Nat.two_pos⟩, ⟨mem, Nat.one_pos⟩,
    trivial⟩

end First

theorem cf_references_safe_created :
    CFState.Proper [] .init [.create (.string (some (ascii "k"))), .release firstString] ∧
      ∀ k, (CFState.init.run [] ([.create (.string (some (ascii "k"))), .release firstString].take k)).Safe := by
  have proper : CFState.Proper [] .init [.create (.string (some (ascii "k"))), .release firstString] :=
    ⟨trivial, ⟨firstString_mem, Nat.one_pos⟩, trivial⟩
  refine ⟨proper, (cf_references_safe_iff [] _ proper).mpr fun op mem => ?_⟩
  rw [List.mem_cons, List.mem_singleton] at mem
  rcases mem with rfl | rfl
  · exact trivial
  · intro buffer mem
    rw [CFObj.memory, firstString, CFObj.objects] at mem
    simp [CFObj.own] at mem

/-- `CFRetain` frees the string, and each of two calls of `CFRelease` frees it again. -/
theorem cf_retain_frees :
    CFState.Proper [] .init retainedOnce ∧
      (∀ i, (CFState.init.run [] retainedOnce).refs i = 0) ∧
      (CFState.init.run [] (retainedOnce.take 2)).refs firstString.id = 2 ∧
      (CFState.init.run [] (retainedOnce.take 2)).freed = [.shim 1, .shim 0] ∧
      (CFState.init.run [] retainedOnce).freed = [.shim 1, .shim 0, .shim 1, .shim 0, .shim 1, .shim 0] ∧
      ¬ ∀ k, (CFState.init.run [] (retainedOnce.take k)).Safe := by
  refine ⟨retainedOnce_proper, fun i => ?_, rfl, ?_, ?_, fun safe => ?_⟩
  · show (if i = 0 then 0 else if i = 0 then 1 else if i = 0 then 2 else if i = 0 then 1 else 0) = 0
    split <;> rfl
  · decide +kernel
  · decide +kernel
  · exact harmless_of_run retainedOnce_proper safe (.retain firstString) (.tail _ (.head _))

end Macify.Shim.CF
