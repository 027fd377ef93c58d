import Macify.Shim.ProcessInfo

/-!
# The list of processes

The `KERN_PROC` branch of `sysctl` (`shim/misc/sysctl.c`) reads `/proc` twice: it counts the processes, and then writes
a record for each, up to that count. The length that it reports is that of the count as well, so if processes have
ended in between, the last records are blank. `kern_proc_list_iff` says when it goes wrong.
-/

namespace Macify.Shim.ProcessInfo
open Lib Image
open Lib.Mem (leBytes)
open Sysctl (Query)

def processes (listing : List Buf) : List Buf := listing.filter isPidName

def recordAt (b : Buf) (i : ℕ) : Buf := (b.drop (KINFO_PROC_SIZE * i)).take KINFO_PROC_SIZE

def blankRecord : Buf := List.replicate KINFO_PROC_SIZE 0

def Describes (files : Buf → Option Buf) (listing : List Buf) (record : Buf) : Prop :=
  ∃ name ∈ processes listing, record = kinfoProc files (atoi name)

/-- Nothing is written behind the buffer, and the length is that of records of the second listing, none blank. -/
structure ListRight (second : Option (List Buf)) (files : Buf → Option Buf) (q : Query) (r : Sysctl.Reply) :
    Prop where
  bound : r.written.length ≤ q.oldlenp.getD 0
  records : q.oldp = true → r.ret = 0 → ∀ len, r.oldlen = some len → ∃ n, len = KINFO_PROC_SIZE * n ∧
    ∀ i < n, recordAt r.written i ≠ blankRecord ∧
      ∃ listing, second = some listing ∧ Describes files listing (recordAt r.written i)

/-- The stat file of the process has a line with the seven values that are read from it. -/
def HasStat (files : Buf → Option Buf) (pid : W32) : Prop :=
  ∃ bytes, files (statPath pid) = some bytes ∧ 7 ≤ (scanStat 6 (strrchr CLOSE (statText bytes))).length

/-- The second pass has a process for each one counted, and each one written has a number other than 0 or a stat
    line that can be read. -/
def Filled (files : Buf → Option Buf) (first second : List Buf) : Prop :=
  first.countP isPidName ≤ second.countP isPidName ∧
    ∀ name ∈ (processes second).take (first.countP isPidName), atoi name ≠ 0 ∨ HasStat files (atoi name)

section Records

variable {files : Buf → Option Buf} {names ps : List Buf} {room i : ℕ} {pid : W32}

/-- A record in which nothing but the number of the process was stored is blank for the number 0 only. -/
lemma numbered_eq_blank_iff : putAt blankRecord KP_P_PID (leBytes 4 pid.toNat) = blankRecord ↔ pid = 0 := by
  constructor
  · intro blank
    have inside : KP_P_PID + (leBytes 4 pid.toNat).length ≤ blankRecord.length := by
      rw [Mem.length_leBytes, blankRecord, List.length_replicate]
      decide
    have number := leAt_putAt_self inside
    rw [blank, blankRecord, leAt_zeros, Mem.ofLe_leBytes, Nat.mod_eq_of_lt (by exact pid.isLt)] at number
    exact BitVec.eq_of_toNat_eq number.symm
  · rintro rfl
    decide +kernel

/-- Values from the stat file are never all blank, for no state of a process becomes 0. -/
lemma stored_ne_blank {b : Buf} {v : StatField → W64} {state : UInt8} (length : b.length = KINFO_PROC_SIZE) :
    putAll b (kinfoStores v state) ≠ blankRecord := by
  intro blank
  have stored : (KP_P_STAT, [macStat state]) ∈ kinfoStores v state :=
    .tail _ (.tail _ (.tail _ (.tail _ (.tail _ (.head _)))))
  have found := leAt_putAll (stores_inside length) stores_apart stored
  rw [blank, blankRecord, leAt_zeros] at found
  have zero : macStat state = 0 := UInt8.toNat_inj.mp found.symm
  rw [macStat] at zero
  split_ifs at zero <;> exact absurd zero (by decide)

lemma kinfoProc_ne_blank_iff : kinfoProc files pid ≠ blankRecord ↔ pid ≠ 0 ∨ HasStat files pid := by
  have numbered := not_congr (@numbered_eq_blank_iff pid)
  rw [kinfoProc, HasStat]
  cases files (statPath pid) with
  | none => exact numbered.trans (by simp)
  | some bytes =>
    dsimp only
    split
    · next enough => exact iff_of_true (stored_ne_blank length_zeroed) (.inr ⟨bytes, rfl, enough⟩)
    · next few => exact numbered.trans (by simp [few])

lemma processes_cons_of_pos {name : Buf} (process : isPidName name = true) :
    processes (name :: names) = name :: processes names := List.filter_cons_of_pos process

lemma processes_cons_of_neg {name : Buf} (other : ¬isPidName name = true) :
    processes (name :: names) = processes names := List.filter_cons_of_neg other

lemma length_processes : (processes names).length = names.countP isPidName :=
  List.countP_eq_length_filter.symm

lemma listProcs_eq : listProcs files room names =
    ((processes names).take room).flatMap (fun name => kinfoProc files (atoi name)) ++
      List.replicate ((room - (processes names).length) * KINFO_PROC_SIZE) 0 := by
  induction names generalizing room with
  | nil =>
    rw [listProcs, processes, List.filter_nil, List.take_nil, List.flatMap_nil, List.nil_append, List.length_nil,
      Nat.sub_zero]
  | cons name names ih =>
    cases room with
    | zero =>
      rw [listProcs, List.take_zero, Nat.zero_sub, Nat.zero_mul]
      rfl
    | succ room =>
      rw [listProcs]
      by_cases process : isPidName name = true
      · rw [if_pos process, ih, processes_cons_of_pos process, List.take_succ_cons, List.flatMap_cons,
          List.append_assoc, List.length_cons, Nat.add_sub_add_right]
      · rw [if_neg process, ih, processes_cons_of_neg process]

lemma length_records :
    (ps.flatMap fun name => kinfoProc files (atoi name)).length = KINFO_PROC_SIZE * ps.length := by
  induction ps with
  | nil => rfl
  | cons p ps ih =>
    rw [List.flatMap_cons, List.length_append, length_kinfoProc, ih, List.length_cons, Nat.mul_succ, Nat.add_comm]

lemma length_listProcs : (listProcs files room names).length = room * KINFO_PROC_SIZE := by
  rw [listProcs_eq, List.length_append, length_records, List.length_replicate, List.length_take, Nat.mul_comm,
    ← Nat.add_mul]
  congr 1
  omega

lemma recordAt_append {record before after : Buf} (size : record.length = KINFO_PROC_SIZE)
    (place : before.length = KINFO_PROC_SIZE * i) : recordAt (before ++ (record ++ after)) i = record := by
  rw [recordAt, ← place, List.drop_left, ← size, List.take_left]

lemma recordAt_process {name : Buf} (entry : (processes names)[i]? = some name) (lt : i < room) :
    recordAt (listProcs files room names) i = kinfoProc files (atoi name) := by
  obtain ⟨before, after, length, eq⟩ := @listProcs_at files i room names name entry lt
  rw [eq, recordAt_append length_kinfoProc length]

lemma recordAt_blank (ge : (processes names).length ≤ i) (lt : i < room) :
    recordAt (listProcs files room names) i = blankRecord := by
  have whole : (processes names).take room = processes names := List.take_of_length_le (by omega)
  have front : ((processes names).flatMap fun name => kinfoProc files (atoi name)).length ≤ KINFO_PROC_SIZE * i := by
    rw [length_records]
    exact Nat.mul_le_mul_left _ ge
  rw [listProcs_eq, whole, recordAt, List.drop_append, List.drop_of_length_le front, List.nil_append,
    List.drop_replicate, List.take_replicate, blankRecord, length_records]
  congr 1
  rw [KINFO_PROC_SIZE]
  omega

end Records

section Calls

variable {files : Buf → Option Buf} {first second : List Buf} {len : ℕ} {q : Query} {listing : Option (List Buf)}

lemma failure_ne : (-1 : W32) ≠ 0 := by decide

lemma listRight_of_nothing {r : Sysctl.Reply} (nothing : r.written = [])
    (idle : q.oldp = true → r.ret = 0 → ∀ len, r.oldlen = some len → len = 0) : ListRight listing files q r := by
  refine ⟨by rw [nothing]; exact Nat.zero_le _, fun buffer success len is => ⟨0, idle buffer success len is, ?_⟩⟩
  exact fun i lt => absurd lt (Nat.not_lt_zero i)

lemma listRight_filled (room : first.countP isPidName * KINFO_PROC_SIZE ≤ len) :
    ListRight (some second) files ⟨true, some len⟩
        ⟨0, none, listProcs files (first.countP isPidName) second, some (first.countP isPidName * KINFO_PROC_SIZE)⟩ ↔
      Filled files first second := by
  rw [Filled, ← @length_processes second]
  simp only [← kinfoProc_ne_blank_iff]
  generalize first.countP isPidName = count at room ⊢
  constructor
  · rintro ⟨-, records⟩
    obtain ⟨n, size, each⟩ := records rfl rfl _ rfl
    obtain rfl : count = n := Nat.eq_of_mul_eq_mul_left (show 0 < KINFO_PROC_SIZE by decide) (Nat.mul_comm .. ▸ size)
    refine ⟨Nat.not_lt.mp fun more => ?_, fun name mem blank => ?_⟩
    · exact (each _ more).1 (recordAt_blank le_rfl more)
    · obtain ⟨i, lt, here⟩ := List.getElem_of_mem mem
      rw [List.length_take] at lt
      rw [List.getElem_take] at here
      have entry : (processes second)[i]? = some name := by rw [← here]; exact List.getElem?_eq_getElem _
      exact (each i (by omega)).1 ((recordAt_process entry (by omega)).trans blank)
  · rintro ⟨le, none_blank⟩
    refine ⟨by rw [length_listProcs]; exact room, fun _ _ len is => ⟨count, ?_, fun i lt => ?_⟩⟩
    · rw [← Option.some.inj is, Nat.mul_comm]
    · have inside : i < (processes second).length := lt.trans_le le
      have entry : (processes second)[i]? = some (processes second)[i] := List.getElem?_eq_getElem inside
      have taken : (processes second)[i] ∈ (processes second).take count :=
        List.mem_take_iff_getElem.mpr ⟨i, lt_min lt inside, rfl⟩
      have record := @recordAt_process files second count i _ entry lt
      refine ⟨?_, second, rfl, (processes second)[i], List.getElem_mem inside, record⟩
      rw [record]
      exact none_blank _ taken

end Calls

/-- Nothing is written behind the buffer, and the length is that of the records, exactly when a second pass finds
    at least as many processes as the first, each with a number other than 0 or a stat line. -/
theorem kern_proc_list_iff (noProcs : Bool) (first second : Option (List Buf)) (files : Buf → Option Buf)
    (q : Query) :
    ListRight second files q (kernProc noProcs first second files q) ↔
      (noProcs = false → q.oldp = true → ∀ l₁, first = some l₁ → ∀ len, q.oldlenp = some len →
        l₁.countP isPidName * KINFO_PROC_SIZE ≤ len → ∀ l₂, second = some l₂ → Filled files l₁ l₂) := by
  obtain ⟨oldp, oldlenp⟩ := q
  cases noProcs with
  | true =>
    refine iff_of_true (listRight_of_nothing rfl fun _ _ len is => ?_) fun no => absurd no.symm Bool.false_ne_true
    obtain ⟨old, -, zero⟩ := Option.map_eq_some_iff.mp is
    exact zero.symm
  | false =>
    cases first with
    | none =>
      exact iff_of_true (listRight_of_nothing rfl fun _ success => absurd success failure_ne) fun _ _ l no =>
        absurd no.symm (Option.some_ne_none l)
    | some l₁ =>
      cases oldp with
      | false =>
        exact iff_of_true (listRight_of_nothing rfl fun no => absurd no Bool.false_ne_true) fun _ no =>
          absurd no Bool.false_ne_true
      | true =>
        cases oldlenp with
        | none =>
          exact iff_of_true (listRight_of_nothing rfl fun _ success => absurd success failure_ne) fun _ _ _ _ len no =>
            absurd no.symm (Option.some_ne_none len)
        | some len =>
          rw [kernProc, if_neg Bool.false_ne_true]
          dsimp only
          rw [if_neg (by decide)]
          by_cases small : len < l₁.countP isPidName * KINFO_PROC_SIZE
          · rw [if_pos small]
            refine iff_of_true (listRight_of_nothing rfl fun _ success => absurd success failure_ne) ?_
            rintro - - l is len' is' room
            cases is
            cases is'
            exact absurd room (Nat.not_le.mpr small)
          · rw [if_neg small]
            have room := Nat.not_lt.mp small
            cases second with
            | none =>
              refine iff_of_true ⟨?_, fun _ success => absurd success failure_ne⟩ ?_
              · rw [List.length_replicate]
                exact room
              · rintro - - l - len' - - l' no
                exact absurd no.symm (Option.some_ne_none l')
            | some l₂ =>
              dsimp only
              rw [listRight_filled room]
              constructor
              · rintro filled - - l is len' is' - l' is''
                cases is
                cases is'
                cases is''
                exact filled
              · intro all
                exact all rfl rfl l₁ rfl len rfl room l₂ rfl

/-- One of two processes has ended before the second pass, and the second record is blank. -/
theorem kern_proc_list_shrinks :
    let r := kernProc false (some [ascii "1", ascii "2"]) (some [ascii "1"]) (fun _ => none) ⟨true, some 1296⟩
    r.ret = 0 ∧ r.oldlen = some (KINFO_PROC_SIZE * 2) ∧ recordAt r.written 1 = blankRecord ∧
      ¬ListRight (some [ascii "1"]) (fun _ => none) ⟨true, some 1296⟩ r := by
  have call : kernProc false (some [ascii "1", ascii "2"]) (some [ascii "1"]) (fun _ => none) ⟨true, some 1296⟩ =
      ⟨0, none, listProcs (fun _ => none) 2 [ascii "1"], some (KINFO_PROC_SIZE * 2)⟩ := by
    rw [kernProc, if_neg Bool.false_ne_true]
    dsimp only
    rw [if_neg (by decide), if_neg (by decide), show [ascii "1", ascii "2"].countP isPidName = 2 by decide,
      Nat.mul_comm]
  intro r
  have blank : recordAt r.written 1 = blankRecord := by
    show recordAt (kernProc _ _ _ _ _).written 1 = blankRecord
    rw [call]
    exact recordAt_blank (by decide) (by decide)
  have length : r.oldlen = some (KINFO_PROC_SIZE * 2) := congrArg Sysctl.Reply.oldlen call
  have success : r.ret = 0 := congrArg Sysctl.Reply.ret call
  refine ⟨success, length, blank, fun right => ?_⟩
  obtain ⟨n, size, each⟩ := right.records rfl success _ length
  obtain rfl : 2 = n := Nat.eq_of_mul_eq_mul_left (show 0 < KINFO_PROC_SIZE by decide) size
  exact (each 1 (by decide)).1 blank

end Macify.Shim.ProcessInfo
