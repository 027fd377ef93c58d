import Macify.Paths.RoundTrips
import Macify.Shim.PathCalls

/-!
# The targets of links

`macify_readlink` and `macify_readlinkat` (`shim/io/file.c`) on the memory of their caller. The kernel puts the target
there without a terminator. `readlink` takes the prefix off as if it were a string, and returns the length all the
same; `readlinkat` leaves it as it is. `link_target_iff` says when the guest gets its own name of the target.
-/

namespace Macify.Shim.Links
open Lib Image Paths Files

structure LinkReply where
  ret : Except W32 ℕ
  mem : Buf
  deriving DecidableEq

abbrev LinkTable := W32 → Option Buf → Except W32 Buf

def kernelReadlink (links : LinkTable) (dirfd : W32) (path : Option Buf) (mem : Buf) (bufsiz : ℕ) : LinkReply :=
  if bufsiz = 0 then ⟨.error EINVAL, mem⟩
  else
    match links dirfd path with
    | .error errno => ⟨.error errno, mem⟩
    | .ok target =>
      let written := target.take bufsiz
      ⟨.ok written.length, written ++ mem.drop written.length⟩

inductive LinkCall where
  | readlink
  | readlinkat (dirfd : W32)

section Calls

variable (env : FileEnv) (links : LinkTable) (path : Option Buf) (mem : Buf) (bufsiz : ℕ)

abbrev AT_FDCWD : W32 := -100

/-- The prefix is taken off in memory; the length is that of the kernel. -/
def readlink : LinkReply :=
  env.checked path ⟨.error ENOENT, mem⟩ fun eff =>
    let r := kernelReadlink links AT_FDCWD eff mem bufsiz
    match r.ret with
    | .ok (_ + 1) => { r with mem := untranslateInplace env.paths.macifyRoot r.mem }
    | _ => r

def readlinkat (dirfd : W32) : LinkReply :=
  if !env.isMacos then kernelReadlink links dirfd path mem bufsiz
  else
    env.checked path ⟨.error ENOENT, mem⟩ fun eff =>
      kernelReadlink links (linuxDirfd dirfd) eff mem bufsiz

def LinkCall.reply : LinkCall → LinkReply
  | .readlink => Links.readlink env links path mem bufsiz
  | .readlinkat dirfd => Links.readlinkat env links path mem bufsiz dirfd

end Calls

def LinkCall.dirfd : LinkCall → W32
  | .readlink => AT_FDCWD
  | .readlinkat dirfd => linuxDirfd dirfd

/-- The guest's name of the target and its length, and nothing changed behind the buffer. -/
def Reports (root k mem : Buf) (bufsiz : ℕ) (r : LinkReply) : Prop :=
  r.ret = .ok (guestPath root k).length ∧ r.mem.take (guestPath root k).length = guestPath root k ∧
    r.mem.drop bufsiz = mem.drop bufsiz

/-- The target begins the prefix, or is all of it, and the old contents of the buffer complete a component. -/
def Stale (root k mem : Buf) : Prop :=
  k ≠ [] ∧ k <+: root ∧ beginsWith root (k ++ mem.drop k.length) = true

def SameLength (root k : Buf) : Prop := root ≠ [] → inDir root k = true → k = root ∧ root.length = 1

/-- The string behind the prefix, or a slash if there is none. -/
def behindPrefix (root mem : Buf) : Buf :=
  let rest := textOf (mem.drop root.length)
  if rest = [] then [slash] else rest

/-- The old contents behind the prefix begin with the guest's name of the target, and moved to the front of the buffer
    with their terminator they change nothing behind it. -/
structure StaleSpared (root k mem : Buf) (bufsiz : ℕ) : Prop where
  front : guestPath root k <+: behindPrefix root mem
  behind : ∀ p, bufsiz ≤ p → p ≤ (behindPrefix root mem).length → byte (behindPrefix root mem ++ [0]) p = byte mem p

/-- `readlinkat` never changes the target. `readlink` does not change the length. -/
def LinkCall.Met (root k mem : Buf) (bufsiz : ℕ) : LinkCall → Prop
  | .readlink =>
    SameLength root k ∧ (Stale root k mem → StaleSpared root k mem bufsiz) ∧
      (¬Stale root k mem → guestPath root k = k)
  | .readlinkat _ => guestPath root k = k

section Targets

variable {env : FileEnv} {links : LinkTable} {root path k target mem : Buf} {bufsiz : ℕ} {call : LinkCall}

/-- The name of the guest is as long as that of the host just in these cases. -/
lemma guestPath_length_iff : (guestPath root k).length = k.length ↔ SameLength root k := by
  unfold guestPath SameLength
  by_cases inside : root ≠ [] ∧ inDir root k = true
  · rw [if_pos inside, forall_prop_of_true inside.1, forall_prop_of_true inside.2]
    have nonempty : 0 < root.length := List.length_pos_iff.mpr inside.1
    by_cases whole : k = root
    · rw [if_pos whole, whole, List.length_singleton, eq_self, true_and, eq_comm]
    · obtain ⟨rest, rfl, -⟩ := inDir_iff.mp inside.2
      rw [if_neg whole, List.length_drop, List.length_append]
      exact iff_of_false (by omega) fun both => whole both.1
  · rw [if_neg inside]
    exact iff_of_true rfl fun nonempty within => absurd ⟨nonempty, within⟩ inside

lemma guestPath_nil : guestPath root [] = [] := by
  rw [guestPath, if_neg]
  rintro ⟨nonempty, inside⟩
  obtain ⟨rest, eq, -⟩ := inDir_iff.mp inside
  exact nonempty (List.append_eq_nil_iff.mp eq.symm).1

/-- If the prefix is found at all, old contents have a part in it. -/
lemma stale_of_beginsWith (nonempty : k ≠ []) (text : 0 ∉ k) (same : SameLength root k)
    (rootNonempty : root ≠ []) (begins : beginsWith root (k ++ mem.drop k.length) = true) :
    Stale root k mem := by
  refine ⟨nonempty, ?_, begins⟩
  obtain ⟨starts, next⟩ := Bool.and_eq_true_iff.mp begins
  rw [List.isPrefixOf_iff_prefix] at starts
  have target := List.prefix_append k (mem.drop k.length)
  rcases Nat.lt_or_ge root.length k.length with longer | le
  · -- the byte after the prefix is one of the target
    obtain ⟨rest, rfl⟩ := List.prefix_of_prefix_length_le starts target longer.le
    rw [byte_append_left longer] at next
    cases rest with
    | nil => exact absurd longer (by rw [List.append_nil]; exact lt_irrefl _)
    | cons b rest =>
      rw [← Nat.add_zero root.length, byte_append_right, byte_cons_zero, Bool.or_eq_true, beq_iff_eq,
        beq_iff_eq] at next
      have notZero : b ≠ 0 := fun zero => text (List.mem_append_right _ (zero ▸ List.mem_cons_self))
      have inside : inDir root (root ++ b :: rest) = true := inDir_append (next.resolve_right notZero)
      rw [(same rootNonempty inside).1]
  · exact List.prefix_of_prefix_length_le target starts le

lemma drop_written (le : k.length ≤ bufsiz) : (k ++ mem.drop k.length).drop bufsiz = mem.drop bufsiz := by
  rw [List.drop_append, List.drop_of_length_le le, List.nil_append, List.drop_drop, Nat.add_sub_cancel' le]

/-- A target that is left as the kernel wrote it is right if it is its own name. -/
lemma reports_written_iff (le : k.length ≤ bufsiz) :
    Reports root k mem bufsiz ⟨.ok k.length, k ++ mem.drop k.length⟩ ↔ guestPath root k = k := by
  constructor
  · rintro ⟨len, bytes, -⟩
    rw [← Except.ok.inj len, List.take_left] at bytes
    exact bytes.symm
  · intro same
    refine ⟨?_, ?_, drop_written le⟩
    · rw [same]
    · rw [same, List.take_left]

/-- The text behind the prefix comes to the front, and its terminator behind it if there is room. -/
lemma untranslateInplace_eq (nonempty : root ≠ []) (begins : beginsWith root mem = true) :
    untranslateInplace root mem =
      (behindPrefix root mem ++ 0 :: mem.drop ((behindPrefix root mem).length + 1)).take mem.length := by
  obtain ⟨starts, next⟩ := Bool.and_eq_true_iff.mp begins
  obtain ⟨old, rfl⟩ := List.isPrefixOf_iff_prefix.mp starts
  have pos : 0 < root.length := List.length_pos_iff.mpr nonempty
  rw [untranslateInplace, if_neg nonempty, if_pos begins, behindPrefix, List.drop_left]
  rw [← Nat.add_zero root.length, byte_append_right] at next ⊢
  by_cases zero : byte old 0 = 0
  · have none : textOf old = [] := by
      cases old with
      | nil => rfl
      | cons b old => exact List.takeWhile_cons_of_neg (by simpa using zero)
    rw [if_pos zero, none]
    obtain ⟨b, more, eq⟩ := List.exists_cons_of_length_pos (pos.trans_le (List.prefix_append root old).length_le)
    rw [eq]
    cases more <;> simp
  · have some : textOf old ≠ [] := by
      cases old with
      | nil => exact absurd rfl zero
      | cons b old =>
        rw [textOf, List.takeWhile_cons_of_pos (by simpa using zero)]
        exact List.cons_ne_nil _ _
    have le : (textOf old).length ≤ old.length := (List.takeWhile_prefix _).length_le
    rw [if_neg zero, if_neg some, List.take_of_length_le]
    simp only [List.length_append, List.length_cons, List.length_drop]
    omega

/-- The bytes after the text has been moved to the front. -/
lemma byte_moved {a : Buf} {p : ℕ} (le : a.length ≤ mem.length) :
    byte ((a ++ 0 :: mem.drop (a.length + 1)).take mem.length) p =
      if p ≤ a.length then byte (a ++ [0]) p else byte mem p := by
  have front : (a ++ [0]).length = a.length + 1 := List.length_append
  rcases Nat.lt_or_ge p mem.length with inside | ge
  · rw [byte_take inside, List.append_cons]
    split
    · exact byte_append_left (by omega)
    · next behind =>
      obtain ⟨i, rfl⟩ := Nat.exists_eq_add_of_lt (Nat.not_le.mp behind)
      rw [Nat.add_right_comm, ← front, byte_append_right, byte_drop]
  · rw [byte_of_le (by rw [List.length_take]; omega)]
    split
    · obtain rfl : p = a.length + 0 := by omega
      rw [byte_append_right]
      rfl
    · exact (byte_of_le ge).symm

lemma length_behindPrefix_le (nonempty : mem ≠ []) : (behindPrefix root mem).length ≤ mem.length := by
  rw [behindPrefix]
  split
  · exact List.length_pos_iff.mpr nonempty
  · exact (List.takeWhile_prefix _).length_le.trans (by simp)

/-- The edit of a stale buffer on the target, the prefix and the old contents alone. -/
lemma stale_edited_iff (text : 0 ∉ k) (same : (guestPath root k).length = k.length) (le : k.length ≤ bufsiz)
    (stale : Stale root k mem) :
    ((untranslateInplace root (k ++ mem.drop k.length)).take k.length = guestPath root k ∧
        (untranslateInplace root (k ++ mem.drop k.length)).drop bufsiz = mem.drop bufsiz) ↔
      StaleSpared root k mem bufsiz := by
  obtain ⟨nonempty, part, begins⟩ := stale
  have name : 0 ∉ guestPath root k := by
    unfold guestPath
    split_ifs
    · decide
    · exact fun zero => text (List.mem_of_mem_drop zero)
    · exact text
  have rootNonempty : root ≠ [] := fun empty => nonempty (List.prefix_nil.mp (empty ▸ part))
  have room := @length_behindPrefix_le root (k ++ mem.drop k.length) (by simp [nonempty])
  have moved : behindPrefix root (k ++ mem.drop k.length) = behindPrefix root mem := by
    rw [behindPrefix, behindPrefix, drop_written part.length_le]
  rw [untranslateInplace_eq rootNonempty begins]
  rw [moved] at room ⊢
  constructor
  · rintro ⟨front, behind⟩
    rw [List.take_take] at front
    refine ⟨prefix_of_stored name (front ▸ List.take_prefix _ _), fun p ge inside => ?_⟩
    have same := congrArg (byte · (p - bufsiz)) behind
    simp only [byte_drop, Nat.add_sub_cancel' ge] at same
    rw [byte_moved room, if_pos inside] at same
    exact same
  · rintro ⟨front, behind⟩
    refine ⟨?_, Buf.ext ?_ fun i => ?_⟩
    · rw [List.take_take, min_eq_left (List.prefix_append _ _).length_le, ← same]
      exact (List.prefix_iff_eq_take.mp (front.trans (List.prefix_append _ _))).symm
    · simp only [List.length_drop, List.length_take, List.length_append, List.length_cons]
      omega
    · rw [byte_drop, byte_drop, byte_moved room]
      split
      · next inside => exact behind _ (Nat.le_add_right _ _) inside
      · rw [← byte_drop, drop_written le, byte_drop]

/-- The edited target is right just if `readlink` meets the condition. -/
lemma reports_edited_iff (nonempty : k ≠ []) (text : 0 ∉ k) (le : k.length ≤ bufsiz) :
    Reports root k mem bufsiz ⟨.ok k.length, untranslateInplace root (k ++ mem.drop k.length)⟩ ↔
      LinkCall.readlink.Met root k mem bufsiz := by
  unfold LinkCall.Met
  by_cases same : SameLength root k
  · rw [and_iff_right same]
    have len := guestPath_length_iff.mpr same
    by_cases stale : Stale root k mem
    · rw [forall_prop_of_true stale, and_iff_left fun fresh => absurd stale fresh,
        ← stale_edited_iff text len le stale, Reports, len]
      exact and_iff_right rfl
    · rw [and_iff_right fun old => absurd old stale, forall_prop_of_true stale]
      have kept : untranslateInplace root (k ++ mem.drop k.length) = k ++ mem.drop k.length := by
        unfold untranslateInplace
        by_cases empty : root = []
        · rw [if_pos empty]
        · rw [if_neg empty, if_neg fun begins => stale (stale_of_beginsWith nonempty text same empty begins)]
      rw [kept]
      exact reports_written_iff le
  · refine iff_of_false (fun reports => same ?_) fun met => same met.1
    exact guestPath_length_iff.mp (Except.ok.inj reports.1).symm

lemma kernelReadlink_ok {dirfd : W32} {eff : Option Buf} (found : links dirfd eff = .ok target) (room : 0 < bufsiz) :
    kernelReadlink links dirfd eff mem bufsiz =
      ⟨.ok (target.take bufsiz).length, target.take bufsiz ++ mem.drop (target.take bufsiz).length⟩ := by
  rw [kernelReadlink, if_neg room.ne', found]

/-- For every path, every target and every buffer with room for a byte, whatever it holds. -/
theorem link_target_iff (guest : env.isMacos = true) (shown : shouldHidePath env.paths.home path = false)
    (found : links call.dirfd (some (kernelPath env.paths path PATH_MAX)) = .ok target)
    (room : 0 < bufsiz) (text : 0 ∉ target) :
    Reports env.paths.macifyRoot (target.take bufsiz) mem bufsiz
        (call.reply env links (some path) mem bufsiz) ↔
      call.Met env.paths.macifyRoot (target.take bufsiz) mem bufsiz := by
  have le : (target.take bufsiz).length ≤ bufsiz := List.length_take_le _ _
  have visible : ¬env.hides (some path) = true := by
    rw [FileEnv.hides, Option.any_some, shown]
    exact Bool.false_ne_true
  cases call with
  | readlinkat dirfd =>
    have found : links (linuxDirfd dirfd) (env.eff (some path)) = .ok target := found
    rw [LinkCall.reply, readlinkat, guest, if_neg (by decide), FileEnv.checked, if_neg visible,
      kernelReadlink_ok found room]
    exact reports_written_iff le
  | readlink =>
    have found : links AT_FDCWD (env.eff (some path)) = .ok target := found
    rw [LinkCall.reply, readlink, FileEnv.checked, if_neg visible, kernelReadlink_ok found room]
    cases written : target.take bufsiz with
    | nil =>
      refine iff_of_true ((reports_written_iff (Nat.zero_le _)).mpr guestPath_nil)
        ⟨?_, fun stale => absurd rfl stale.1, ?_⟩
      · exact guestPath_length_iff.mp (by rw [guestPath_nil])
      · exact fun _ => guestPath_nil
    | cons b rest =>
      rw [written] at le
      refine reports_edited_iff (List.cons_ne_nil _ _) (fun zero => text ?_) le
      exact List.mem_of_mem_take (written ▸ zero)

theorem link_target_iff_outside :
    Reports (ascii "/p") (ascii "/tmp/x") (ascii "zzzzzzzz") 8
      (LinkCall.readlink.reply ⟨⟨false, none, ascii "/p"⟩, true, 0⟩ (fun _ _ => .ok (ascii "/tmp/x"))
        (some (ascii "/link")) (ascii "zzzzzzzz") 8) :=
  (@link_target_iff ⟨⟨false, none, ascii "/p"⟩, true, 0⟩ (fun _ _ => .ok (ascii "/tmp/x")) (ascii "/link")
    (ascii "/tmp/x") (ascii "zzzzzzzz") 8 .readlink rfl rfl rfl (by decide) (by decide)).mpr
    ⟨guestPath_length_iff.mp (by decide), fun stale => absurd stale.2.1 (by decide), fun _ => by decide⟩

/-- `readlink` gives the old length and moves bytes behind the buffer; `readlinkat` gives the name of the host. -/
theorem link_target_wrong :
    let env : FileEnv := ⟨⟨false, none, ascii "/p"⟩, true, 0⟩
    let links : LinkTable := fun _ _ => .ok (ascii "/p/etc")
    let mem := ascii "zzzzzzabc" ++ [0]
    guestPath (ascii "/p") (ascii "/p/etc") = ascii "/etc" ∧
      LinkCall.readlink.reply env links (some (ascii "/link")) mem 6 =
        ⟨.ok 6, ascii "/etcabc" ++ 0 :: ascii "c" ++ [0]⟩ ∧
      (LinkCall.readlinkat (-2)).reply env links (some (ascii "/link")) mem 6 =
        ⟨.ok 6, ascii "/p/etcabc" ++ [0]⟩ ∧
      ∀ call : LinkCall, ¬Reports (ascii "/p") (ascii "/p/etc") mem 6
        (call.reply env links (some (ascii "/link")) mem 6) := by
  refine ⟨by decide, by decide +kernel, by decide +kernel, fun call reports => ?_⟩
  have length : Except.ok 6 = (Except.ok 4 : Except W32 ℕ) := by
    cases call <;> exact reports.1
  cases length

end Targets

end Macify.Shim.Links
