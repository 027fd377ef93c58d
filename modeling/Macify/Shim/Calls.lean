import Macify.Lib.Memory

/-!
# Calls through the shim

The wrappers of the shim serve macOS code and Linux libraries alike and tell them apart by the return address
(`shim/shim_core.c`). A wrapper makes at most one call of the C library, an arbitrary function; `Plan` keeps what it
does before, the call and what it does after apart.
-/

namespace Macify.Shim
open Lib

structure TextRange where
  lo : W64
  hi : W64
  deriving DecidableEq

def TextRange.has (range : TextRange) (a : W64) : Bool := range.lo ≤ a && a < range.hi

abbrev MAX_TEXT_RANGES : ℕ := 64

structure TextRanges where
  text : TextRange
  ranges : List TextRange
  length_le : ranges.length ≤ MAX_TEXT_RANGES

def addTextRange (lo hi : W64) (t : TextRanges) : TextRanges :=
  if lo = 0 ∨ hi ≤ lo then t
  else if t.ranges.contains ⟨lo, hi⟩ then t
  else if full : MAX_TEXT_RANGES ≤ t.ranges.length then t
  else
    { t with
      ranges := t.ranges ++ [⟨lo, hi⟩]
      length_le := by rw [List.length_append, List.length_singleton]; omega }

def setTextRange (lo hi : W64) (t : TextRanges) : TextRanges :=
  addTextRange lo hi { t with text := ⟨lo, hi⟩ }

def callerIsMacosText (t : TextRanges) (retAddr : W64) : Bool :=
  if t.text.lo = 0 ∨ t.text.hi = 0 then false
  else t.text.has retAddr || t.ranges.any (·.has retAddr)

def TextRanges.Registered (t : TextRanges) (a : W64) : Prop :=
  t.text.has a ∨ ∃ range ∈ t.ranges, range.has a

lemma callerIsMacosText_of_not_registered {t : TextRanges} {a : W64} (out : ¬t.Registered a) :
    callerIsMacosText t a = false := by
  have text : t.text.has a = false := Bool.eq_false_iff.mpr fun h => out (.inl h)
  have ranges : t.ranges.any (·.has a) = false := by
    rw [List.any_eq_false]
    exact fun range mem h => out (.inr ⟨range, mem, h⟩)
  rw [callerIsMacosText, text, ranges, Bool.or_false, ite_self]

/-- A call of the C library. Socket addresses in a buffer of the wrapper are given by their bytes; an
    argument of `fcntl` may be missing. -/
inductive Request where
  | connect (sockfd : W32) (addr : Buf) (addrlen : W32)
  | bind (sockfd : W32) (addr : Buf) (addrlen : W32)
  | sendto (sockfd : W32) (buf len : W64) (flags : W32) (addr : Option Buf)
      (addrlen : W32)
  | recvfrom (sockfd : W32) (buf len : W64) (flags : W32) (srcAddr addrlen : W64)
  | accept (sockfd : W32) (addr addrlen : W64)
  | getsockname (sockfd : W32) (addr addrlen : W64)
  | getpeername (sockfd : W32) (addr addrlen : W64)
  | setsockopt (sockfd level optname : W32) (optval : W64) (optlen : W32)
  | getsockopt (sockfd level optname : W32) (optval optlen : W64)
  | setlocale (category : W32) (locale : W64)
  | clockGettime (clkId : W32) (tp : W64)
  | sigaction (signum : W32) (act oldact : W64)
  | sigprocmask (how : W32) (set oldset : W64)
  | fcntl (fd cmd : W32) (arg : Option W64)
  | fsync (fd : W32)
  | fdatasync (fd : W32)
  | mutexLock (m : W64)
  | mutexTrylock (m : W64)
  | mutexUnlock (m : W64)
  | rtSigaction (signum : W32) (act : Option Buf) (oldact : W64)
  | rtSigprocmask (how : W32) (set oldset : W64)
  deriving DecidableEq

structure State where
  mem : Mem
  errno : W32

/-- A result and the state after the call; an `int` is sign-extended. -/
structure Reply where
  ret : W64
  state : State

abbrev Libc := Request → State → Reply

/-- Return without a call of the C library, make one and work on its reply, or jump to a null pointer. -/
inductive Plan where
  | done (reply : Reply)
  | call (request : Request) (state : State) (after : Reply → Reply)
  | fault

def Plan.result (libc : Libc) : Plan → Option Reply
  | .done reply => some reply
  | .call request state after => some (after (libc request state))
  | .fault => none

def Plan.pass (request : Request) (state : State) : Plan := .call request state id

/-- The caller, what `macify_elf_lookup` finds, the signal restorer, the first name server and the local `struct
    flock`. -/
structure Env where
  text : TextRanges
  retAddr : W64
  found : Bool
  saRestorer : W64
  dnsServer : Option W32
  flock : W64

def Env.isMacos (env : Env) : Bool := callerIsMacosText env.text env.retAddr

def Env.call (env : Env) (request : Request) (state : State) (after : Reply → Reply) : Plan :=
  if env.found then .call request state after else .fault

lemma Env.call_inv {env : Env} {request request' state state' after after'}
    (plan : env.call request state after = .call request' state' after') :
    env.found = true ∧ request = request' ∧ state = state' ∧ after = after' := by
  unfold Env.call at plan
  split at plan
  next found =>
    cases plan
    exact ⟨found, rfl, rfl, rfl⟩
  next => cases plan

def linuxToMacosErrno (linuxErrno : W32) : W32 :=
  match linuxErrno.toNat with
  | 11 => 35
  | 36 => 63
  | 37 => 77
  | 38 => 78
  | 39 => 66
  | 40 => 62
  | 88 => 38
  | 89 => 39
  | 90 => 40
  | 91 => 41
  | 92 => 42
  | 93 => 43
  | 94 => 44
  | 95 => 45
  | 96 => 46
  | 97 => 47
  | 98 => 48
  | 99 => 49
  | 100 => 50
  | 101 => 51
  | 102 => 52
  | 103 => 53
  | 104 => 54
  | 105 => 55
  | 106 => 56
  | 107 => 57
  | 108 => 58
  | 109 => 59
  | 110 => 60
  | 111 => 61
  | 112 => 64
  | 113 => 65
  | 114 => 37
  | 115 => 36
  | 116 => 70
  | _ => linuxErrno

def Reply.setErrno (reply : Reply) (errno : W32) : Reply :=
  { reply with state := { reply.state with errno } }

def translateErrno (env : Env) (reply : Reply) : Reply :=
  if reply.ret = -1 ∧ env.isMacos then reply.setErrno (linuxToMacosErrno reply.state.errno) else reply

lemma translateErrno_linux {env : Env} {reply : Reply} (linux : env.isMacos = false) :
    translateErrno env reply = reply := by
  rw [translateErrno, if_neg fun h => Bool.false_ne_true (linux.symm.trans h.2)]

def smallEnv (retAddr : W64) : Env where
  text := setTextRange 0x1000 0x2000 ⟨⟨0, 0⟩, [], by decide⟩
  retAddr := retAddr
  found := true
  saRestorer := 0
  dnsServer := none
  flock := 0x7000

def emptyState : State := ⟨fun _ => 0, 0⟩

end Macify.Shim
