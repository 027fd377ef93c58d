import Macify.Lib.CStrings
import Macify.Image.Types

/-!
# sysctlbyname

A guest asks `sysctlbyname` (`shim/misc/sysctl.c`) for the size of a value by a call without a buffer, and for the
value by a second call. The source has that protocol three times: for numbers, for strings and for the boot arguments.
Main result: `sysctlbyname_protocol_iff`.
-/

namespace Macify.Shim.Sysctl
open Lib Image
open Lib.Mem (leBytes)

abbrev ENOENT : W32 := 2
abbrev ENOMEM : W32 := 12

inductive Name where
  | ncpu | logicalcpu | physicalcpu | memsize | pagesize
  | ostype | osrelease | osversion | osproductversion | hostname
  | machine | model | bootargs | uuid
  deriving DecidableEq

def Name.text : Name → Buf
  | ncpu => ascii "hw.ncpu"
  | logicalcpu => ascii "hw.logicalcpu"
  | physicalcpu => ascii "hw.physicalcpu"
  | memsize => ascii "hw.memsize"
  | pagesize => ascii "hw.pagesize"
  | ostype => ascii "kern.ostype"
  | osrelease => ascii "kern.osrelease"
  | osversion => ascii "kern.osversion"
  | osproductversion => ascii "kern.osproductversion"
  | hostname => ascii "kern.hostname"
  | machine => ascii "hw.machine"
  | model => ascii "hw.model"
  | bootargs => ascii "kern.bootargs"
  | uuid => ascii "kern.uuid"

def Name.all : List Name :=
  [ncpu, logicalcpu, physicalcpu, memsize, pagesize, ostype, osrelease, osversion, osproductversion,
    hostname, machine, model, bootargs, uuid]

/-- What `sysconf` and `gethostname` say. `gethostname` fills at most 255 bytes of a zeroed buffer. -/
structure Host where
  nprocessorsOnln : W64
  physPages : W64
  pagesize : W64
  hostname : Buf

structure Query where
  oldp : Bool
  oldlenp : Option ℕ

structure Reply where
  ret : W32
  errno : Option W32
  written : Buf
  oldlen : Option ℕ
  deriving DecidableEq

def Query.unchanged (q : Query) (ret : W32) (errno : Option W32) : Reply :=
  ⟨ret, errno, [], q.oldlenp⟩

def storeNumber (value : Buf) (q : Query) : Reply :=
  match q.oldp, q.oldlenp with
  | true, some oldlen =>
    if value.length ≤ oldlen then ⟨0, none, value, some value.length⟩ else q.unchanged 0 none
  | _, _ => q.unchanged 0 none

def storeString (val : Buf) (q : Query) : Reply :=
  match q.oldp, q.oldlenp with
  | true, some oldlen =>
    let len := val.length + 1
    ⟨0, none, if len ≤ oldlen then val ++ [0] else [], some len⟩
  | _, _ => q.unchanged 0 none

/-- The copy for the boot arguments, which are empty: there is no test for room. -/
def storeBootargs (q : Query) : Reply :=
  match q.oldp, q.oldlenp with
  | true, some _ => ⟨0, none, [0], some 1⟩
  | _, _ => q.unchanged 0 none

def intBytes (v : W64) : Buf := leBytes 4 (v.setWidth 32).toNat

def Host.nodename (host : Host) : Buf := textOf (host.hostname.take 255)

inductive Copy where
  | number (value : Buf)
  | string (val : Buf)
  | bootargs

def Copy.reply (q : Query) : Copy → Reply
  | number value => storeNumber value q
  | string val => storeString val q
  | bootargs => storeBootargs q

def Name.copy (host : Host) : Name → Copy
  | .ncpu => .number (intBytes host.nprocessorsOnln)
  | .logicalcpu => .number (intBytes host.nprocessorsOnln)
  | .physicalcpu => .number (intBytes host.nprocessorsOnln)
  | .memsize => .number (leBytes 8 (host.physPages * host.pagesize).toNat)
  | .pagesize => .number (intBytes host.pagesize)
  | .ostype => .string (ascii "Darwin")
  | .osrelease => .string (ascii "23.5.0")
  | .osversion => .string (ascii "23F79")
  | .osproductversion => .string (ascii "14.5")
  | .hostname => .string host.nodename
  | .machine => .string (ascii "x86_64")
  | .model => .string (ascii "MacPro6,1")
  | .bootargs => .bootargs
  | .uuid => .string (ascii "00000000-0000-0000-0000-000000000000")

def sysctlbyname (host : Host) (name : Option Buf) (q : Query) : Reply :=
  match name with
  | none => q.unchanged (-1) none
  | some name =>
    match Name.all.find? (·.text = name) with
    | some n => (n.copy host).reply q
    | none => q.unchanged (-1) (some ENOENT)

def Copy.value : Copy → Buf
  | number value => value
  | string val => val ++ [0]
  | bootargs => [0]

/-- Without a buffer the size is stored, one that is too short makes the call fail, otherwise value and size are
    stored. -/
structure Protocol (value : Buf) (q : Query) (r : Reply) : Prop where
  size : q.oldp = false → ∀ len, q.oldlenp = some len → r.ret = 0 ∧ r.oldlen = some value.length
  short : q.oldp = true → ∀ len, q.oldlenp = some len → len < value.length →
    r.written = [] ∧ r.ret = -1 ∧ r.errno = some ENOMEM
  fits : q.oldp = true → ∀ len, q.oldlenp = some len → value.length ≤ len →
    r.ret = 0 ∧ r.written = value ∧ r.oldlen = some value.length
  bound : r.written.length ≤ q.oldlenp.getD 0

/-- There is no length, or the buffer has room for the value, or the guest knows the size that it asks for. -/
def Query.Met (value : Buf) (q : Query) : Prop :=
  ∀ len, q.oldlenp = some len → if q.oldp then value.length ≤ len else len = value.length

section Protocols

variable {value val : Buf} {len : ℕ} {copy : Copy} {r : Reply} {oldp : Bool}

lemma protocol_no_length (nothing : r.written = []) : Protocol value ⟨oldp, none⟩ r where
  size _ _ no := nomatch no
  short _ _ no := nomatch no
  fits _ _ no := nomatch no
  bound := by rw [nothing]; exact Nat.zero_le _

lemma protocol_no_buffer : Protocol value ⟨false, some len⟩ (Query.unchanged ⟨false, some len⟩ 0 none) ↔
    len = value.length := by
  constructor
  · intro protocol
    exact Option.some.inj (protocol.size rfl len rfl).2
  · rintro rfl
    exact ⟨fun _ _ _ => ⟨rfl, rfl⟩, nofun, nofun, Nat.zero_le _⟩

lemma protocol_buffer (succeeds : r.ret = 0)
    (right : value.length ≤ len → r.written = value ∧ r.oldlen = some value.length) :
    Protocol value ⟨true, some len⟩ r ↔ value.length ≤ len := by
  constructor
  · intro protocol
    by_contra short
    have fails := (protocol.short rfl len rfl (Nat.lt_of_not_le short)).2.1
    rw [succeeds] at fails
    exact absurd fails (by decide)
  · intro room
    obtain ⟨written, oldlen⟩ := right room
    refine ⟨nofun, fun _ _ is short => ?_, fun _ _ _ _ => ⟨succeeds, written, oldlen⟩, ?_⟩
    · cases is
      exact absurd room (Nat.not_le_of_lt short)
    · rw [written]
      exact room

lemma copy_no_buffer (copy : Copy) (oldlenp : Option ℕ) :
    copy.reply ⟨false, oldlenp⟩ = Query.unchanged ⟨false, oldlenp⟩ 0 none := by
  cases copy <;> rfl

lemma copy_no_length (copy : Copy) : copy.reply ⟨true, none⟩ = Query.unchanged ⟨true, none⟩ 0 none := by
  cases copy <;> rfl

lemma copy_succeeds (copy : Copy) : (copy.reply ⟨true, some len⟩).ret = 0 := by
  cases copy with
  | number value =>
    rw [Copy.reply, storeNumber]
    dsimp only
    split <;> rfl
  | string val | bootargs => rfl

lemma copy_fits (copy : Copy) (room : copy.value.length ≤ len) :
    (copy.reply ⟨true, some len⟩).written = copy.value ∧
      (copy.reply ⟨true, some len⟩).oldlen = some copy.value.length := by
  cases copy with
  | number value =>
    rw [Copy.value] at room ⊢
    rw [Copy.reply, storeNumber]
    dsimp only
    rw [if_pos room]
    exact ⟨rfl, rfl⟩
  | string val =>
    rw [Copy.value, List.length_append] at room
    rw [Copy.reply, storeString, Copy.value, List.length_append]
    exact ⟨if_pos room, rfl⟩
  | bootargs => exact ⟨rfl, rfl⟩

lemma copy_protocol_iff (copy : Copy) (q : Query) : Protocol copy.value q (copy.reply q) ↔ q.Met copy.value := by
  obtain ⟨oldp, _ | len⟩ := q
  · refine iff_of_true (protocol_no_length ?_) nofun
    cases oldp with
    | false => rw [copy_no_buffer]; rfl
    | true => rw [copy_no_length]; rfl
  · have met : Query.Met copy.value ⟨oldp, some len⟩ ↔
        if oldp then copy.value.length ≤ len else len = copy.value.length :=
      ⟨fun all => all len rfl, fun one _ is => Option.some.inj is ▸ one⟩
    rw [met]
    cases oldp with
    | false =>
      rw [copy_no_buffer]
      exact protocol_no_buffer
    | true => exact protocol_buffer (copy_succeeds copy) (copy_fits copy)

lemma find_text (n : Name) : Name.all.find? (·.text = n.text) = some n := by
  cases n <;> decide +kernel

end Protocols

/-- Just if the call has no length, has room for the value, or has the size of the value in the length already. -/
theorem sysctlbyname_protocol_iff (host : Host) (n : Name) (q : Query) :
    Protocol (n.copy host).value q (sysctlbyname host (some n.text) q) ↔ q.Met (n.copy host).value := by
  rw [sysctlbyname, find_text]
  exact copy_protocol_iff (n.copy host) q

def smallHost : Host := ⟨4, 1000, 4096, ascii "host"⟩

/-- No size is stored, three bytes are room enough for no value, and the boot arguments go into no bytes. -/
theorem sysctlbyname_protocol_broken :
    sysctlbyname smallHost (some (ascii "hw.ncpu")) ⟨false, some 0⟩ = ⟨0, none, [], some 0⟩ ∧
      sysctlbyname smallHost (some (ascii "kern.ostype")) ⟨false, some 0⟩ = ⟨0, none, [], some 0⟩ ∧
      sysctlbyname smallHost (some (ascii "kern.ostype")) ⟨true, some 3⟩ = ⟨0, none, [], some 7⟩ ∧
      sysctlbyname smallHost (some (ascii "kern.bootargs")) ⟨true, some 0⟩ = ⟨0, none, [0], some 1⟩ ∧
      ¬ Protocol (Name.ostype.copy smallHost).value ⟨false, some 0⟩
        (sysctlbyname smallHost (some (ascii "kern.ostype")) ⟨false, some 0⟩) ∧
      ¬ Protocol (Name.ostype.copy smallHost).value ⟨true, some 3⟩
        (sysctlbyname smallHost (some (ascii "kern.ostype")) ⟨true, some 3⟩) ∧
      ¬ Protocol (Name.bootargs.copy smallHost).value ⟨true, some 0⟩
        (sysctlbyname smallHost (some (ascii "kern.bootargs")) ⟨true, some 0⟩) := by
  refine ⟨by decide +kernel, by decide +kernel, by decide +kernel, by decide +kernel, ?_, ?_, ?_⟩
  · intro protocol
    exact absurd (protocol.size rfl 0 rfl).2 (by decide +kernel)
  · intro protocol
    exact absurd (protocol.short rfl 3 rfl (by decide)).2.1 (by decide +kernel)
  · intro protocol
    exact absurd protocol.bound (by decide +kernel)

end Macify.Shim.Sysctl
