import Macify.Lib.BitSets
import Macify.Shim.Sockets
import Macify.Syscall.Convention
import Macify.Threads.Mutex

/-!
# Error numbers

Errors have other numbers on macOS than on Linux. Which number a guest sees depends on the way of its
call: some wrappers of the shim translate the error, others and the handler of raw syscalls hand on the
number of Linux, and the translation itself leaves alone every number that it does not list.
-/

namespace Macify.Shim
open Lib Threads

inductive Errno where
  | EPERM | ENOENT | ESRCH | EINTR | EIO | ENXIO | E2BIG | ENOEXEC | EBADF | ECHILD | EAGAIN
  | ENOMEM | EACCES | EFAULT | ENOTBLK | EBUSY | EEXIST | EXDEV | ENODEV | ENOTDIR | EISDIR | EINVAL
  | ENFILE | EMFILE | ENOTTY | ETXTBSY | EFBIG | ENOSPC | ESPIPE | EROFS | EMLINK | EPIPE | EDOM
  | ERANGE | EDEADLK | ENAMETOOLONG | ENOLCK | ENOSYS | ENOTEMPTY | ELOOP | ENOMSG | EIDRM | ENOSTR
  | ENODATA | ETIME | ENOSR | EREMOTE | ENOLINK | EPROTO | EMULTIHOP | EBADMSG | EOVERFLOW | EILSEQ
  | EUSERS | ENOTSOCK | EDESTADDRREQ | EMSGSIZE | EPROTOTYPE | ENOPROTOOPT | EPROTONOSUPPORT
  | ESOCKTNOSUPPORT | ENOTSUP | EOPNOTSUPP | EPFNOSUPPORT | EAFNOSUPPORT | EADDRINUSE
  | EADDRNOTAVAIL | ENETDOWN | ENETUNREACH | ENETRESET | ECONNABORTED | ECONNRESET | ENOBUFS
  | EISCONN | ENOTCONN | ESHUTDOWN | ETOOMANYREFS | ETIMEDOUT | ECONNREFUSED | EHOSTDOWN
  | EHOSTUNREACH | EALREADY | EINPROGRESS | ESTALE | EDQUOT | ECANCELED | EOWNERDEAD
  | ENOTRECOVERABLE
  deriving DecidableEq

namespace Errno

abbrev row (name : Errno) (linux macos : W32) : Errno × W32 × W32 := (name, linux, macos)

/-- The numbers on Linux and on macOS. `ENOTSUP` and `EOPNOTSUPP` are one number on Linux and two on macOS. -/
def table : List (Errno × W32 × W32) :=
  [row EPERM 1 1, row ENOENT 2 2, row ESRCH 3 3, row EINTR 4 4, row EIO 5 5, row ENXIO 6 6,
   row E2BIG 7 7, row ENOEXEC 8 8, row EBADF 9 9, row ECHILD 10 10, row EAGAIN 11 35,
   row ENOMEM 12 12, row EACCES 13 13, row EFAULT 14 14, row ENOTBLK 15 15, row EBUSY 16 16,
   row EEXIST 17 17, row EXDEV 18 18, row ENODEV 19 19, row ENOTDIR 20 20, row EISDIR 21 21,
   row EINVAL 22 22, row ENFILE 23 23, row EMFILE 24 24, row ENOTTY 25 25, row ETXTBSY 26 26,
   row EFBIG 27 27, row ENOSPC 28 28, row ESPIPE 29 29, row EROFS 30 30, row EMLINK 31 31,
   row EPIPE 32 32, row EDOM 33 33, row ERANGE 34 34, row EDEADLK 35 11,
   row ENAMETOOLONG 36 63, row ENOLCK 37 77, row ENOSYS 38 78, row ENOTEMPTY 39 66,
   row ELOOP 40 62, row ENOMSG 42 91, row EIDRM 43 90, row ENOSTR 60 99, row ENODATA 61 96,
   row ETIME 62 101, row ENOSR 63 98, row EREMOTE 66 71, row ENOLINK 67 97, row EPROTO 71 100,
   row EMULTIHOP 72 95, row EBADMSG 74 94, row EOVERFLOW 75 84, row EILSEQ 84 92,
   row EUSERS 87 68, row ENOTSOCK 88 38, row EDESTADDRREQ 89 39, row EMSGSIZE 90 40,
   row EPROTOTYPE 91 41, row ENOPROTOOPT 92 42, row EPROTONOSUPPORT 93 43,
   row ESOCKTNOSUPPORT 94 44, row ENOTSUP 95 45, row EOPNOTSUPP 95 102, row EPFNOSUPPORT 96 46,
   row EAFNOSUPPORT 97 47, row EADDRINUSE 98 48, row EADDRNOTAVAIL 99 49, row ENETDOWN 100 50,
   row ENETUNREACH 101 51, row ENETRESET 102 52, row ECONNABORTED 103 53,
   row ECONNRESET 104 54, row ENOBUFS 105 55, row EISCONN 106 56, row ENOTCONN 107 57,
   row ESHUTDOWN 108 58, row ETOOMANYREFS 109 59, row ETIMEDOUT 110 60,
   row ECONNREFUSED 111 61, row EHOSTDOWN 112 64, row EHOSTUNREACH 113 65, row EALREADY 114 37,
   row EINPROGRESS 115 36, row ESTALE 116 70, row EDQUOT 122 69, row ECANCELED 125 89,
   row EOWNERDEAD 130 105, row ENOTRECOVERABLE 131 104]

end Errno

def SameName (e o : W32) : Prop := ∃ name, (name, e, o) ∈ Errno.table

def seenErrno (translated : Bool) (e : W32) : W32 :=
  if translated then linuxToMacosErrno e else e

def unlisted : List W32 :=
  [35, 42, 43, 60, 61, 62, 63, 66, 67, 71, 72, 74, 75, 84, 87, 122, 125, 130, 131]

def Preserved (translated : Bool) (e : W32) : Prop :=
  if translated then unlisted.contains e = false else e.toNat ≤ 34 ∧ e ≠ 11

instance {translated : Bool} {e : W32} : Decidable (Preserved translated e) := by
  unfold Preserved
  infer_instance

lemma preserved_iff {translated : Bool} {e o : W32} (named : SameName e o) :
    SameName e (seenErrno translated e) ↔ Preserved translated e := by
  -- the numbers are compared as natural numbers, which the kernel does faster
  have rows : ∀ row ∈ Errno.table, ∀ translated : Bool,
      (row.2.1.toNat, (seenErrno translated row.2.1).toNat) ∈
          Errno.table.map (fun row => (row.2.1.toNat, row.2.2.toNat)) ↔
        Preserved translated row.2.1 := by
    decide +kernel
  obtain ⟨name, mem⟩ := named
  rw [← rows _ mem translated, List.mem_map]
  constructor
  · rintro ⟨name', mem'⟩
    exact ⟨_, mem', rfl⟩
  · rintro ⟨⟨name', e', seen⟩, mem', numbers⟩
    have linux : e' = e := BitVec.eq_of_toNat_eq (Prod.mk.inj numbers).1
    have macos : seen = seenErrno translated e := BitVec.eq_of_toNat_eq (Prod.mk.inj numbers).2
    rw [linux, macos] at mem'
    exact ⟨name', mem'⟩

lemma seenErrno_injective {translated translated' : Bool} {e e' o o' : W32}
    (named : SameName e o) (named' : SameName e' o') (pres : Preserved translated e)
    (pres' : Preserved translated' e') (same : seenErrno translated e = seenErrno translated' e') :
    e = e' := by
  have nodup : (Errno.table.map fun row => row.2.2.toNat).Nodup := by decide +kernel
  obtain ⟨name, mem⟩ := (preserved_iff named).mpr pres
  obtain ⟨name', mem'⟩ := (preserved_iff named').mpr pres'
  have row := List.inj_on_of_nodup_map nodup mem mem' (congrArg BitVec.toNat same)
  exact congrArg (fun row : Errno × W32 × W32 => row.2.1) row

inductive ShimCall where
  | connect (sockfd : W32) (addr : W64) (addrlen : W32)
  | bind (sockfd : W32) (addr : W64) (addrlen : W32)
  | accept (sockfd : W32) (addr addrlen : W64)
  | getsockname (sockfd : W32) (addr addrlen : W64)
  | sendto (sockfd : W32) (buf len : W64) (flags : W32) (destAddr : W64)
      (addrlen : W32)
  | recvfrom (sockfd : W32) (buf len : W64) (flags : W32) (srcAddr addrlen : W64)
  | mutexLock (m : W64)
  | mutexTrylock (m : W64)

namespace ShimCall

def plan (env : Env) (s : State) : ShimCall → Plan
  | connect sockfd addr addrlen => Shim.connect env sockfd addr addrlen s
  | bind sockfd addr addrlen => Shim.bind env sockfd addr addrlen s
  | accept sockfd addr addrlen => Shim.accept env sockfd addr addrlen s
  | getsockname sockfd addr addrlen => Shim.getsockname env sockfd addr addrlen s
  | sendto sockfd buf len flags destAddr addrlen => Shim.sendto env sockfd buf len flags destAddr addrlen s
  | recvfrom sockfd buf len flags srcAddr addrlen =>
    Shim.recvfrom env sockfd buf len flags srcAddr addrlen s
  | mutexLock m => pthreadMutexLock env m s
  | mutexTrylock m => pthreadMutexTrylock env m s

def error (reply : Reply) : ShimCall → W32
  | mutexLock _ | mutexTrylock _ => reply.ret.setWidth 32
  | _ => reply.state.errno

def Failed (e : W32) (reply : Reply) : ShimCall → Prop
  | mutexLock _ | mutexTrylock _ => reply.ret = e.setWidth 64
  | _ => reply.ret = -1 ∧ reply.state.errno = e

def translates : ShimCall → Bool
  | bind .. | accept .. | getsockname .. => false
  | _ => true

end ShimCall

inductive GuestCall where
  | raw (env : Syscall.Env) (kernel : Syscall.Kernel) (r : Syscall.Regs) (w : Syscall.World)
  | shim (env : Env) (lib : Libc) (s : State) (c : ShimCall)

namespace GuestCall

def FailsWith (e : W32) : GuestCall → Prop
  | raw env kernel r w => ∃ w', Syscall.dispatch env kernel r w = (.tail (-(e.setWidth 64)), w') ∨
      Syscall.dispatch env kernel r w = (.finish (-(e.setWidth 64)), w')
  | shim env lib s c => ∃ request state after, c.plan env s = .call request state after ∧
      c.Failed e (lib request state)

def seen : GuestCall → Option W32
  | raw env kernel r w =>
    match Syscall.sigillHandler env kernel r w with
    | .returned _ w' => some w'.errno
    | .ended _ _ => none
  | shim env lib s c =>
    match c.plan env s with
    | .done reply => some (c.error reply)
    | .call request state after => some (c.error (after (lib request state)))
    | .fault => none

def translated : GuestCall → Bool
  | raw .. => false
  | shim env _ _ c => c.translates && env.isMacos

end GuestCall

lemma SameName.small {e o : W32} (named : SameName e o) : 0 < e.toNat ∧ e.toNat < 132 := by
  have rows : ∀ row ∈ Errno.table, 0 < row.2.1.toNat ∧ row.2.1.toNat < 132 := by decide +kernel
  obtain ⟨name, mem⟩ := named
  exact rows _ mem

lemma isErr_neg {e : W32} (pos : 0 < e.toNat) (lt : e.toNat < 132) : Syscall.isErr (-(e.setWidth 64)) = true := by
  revert pos
  refine word_rule lt ?_
  decide +kernel

section Wrappers

variable {env : Env} {reply : Reply} {e : W32}

lemma translateErrno_failed (ret : reply.ret = -1) :
    (translateErrno env reply).state.errno = seenErrno env.isMacos reply.state.errno := by
  unfold translateErrno seenErrno
  cases macos : env.isMacos with
  | false => rw [if_neg fun h => Bool.false_ne_true h.2, if_neg Bool.false_ne_true]
  | true => rw [if_pos ⟨ret, rfl⟩, if_pos rfl]; rfl

lemma acceptAfter_failed {addr addrlen : W64} (ret : reply.ret = -1) :
    acceptAfter addr addrlen reply = reply := by
  rw [acceptAfter, if_neg (by rw [ret]; decide)]

lemma recvfromAfter_failed {srcAddr addrlen : W64} (ret : reply.ret = -1) :
    recvfromAfter env srcAddr addrlen reply = translateErrno env reply := by
  rw [recvfromAfter, if_pos ret]

lemma syncErrnoOut_failed (pos : 0 < e.toNat) (lt : e.toNat < 132) (ret : reply.ret = e.setWidth 64) :
    (syncErrnoOut env reply).ret.setWidth 32 = seenErrno env.isMacos e := by
  have back : reply.ret.setWidth 32 = e := by
    rw [ret, BitVec.setWidth_setWidth_of_le _ (by decide), BitVec.setWidth_eq]
  have ne_zero : reply.ret ≠ 0 := by rw [ret]; bv_omega
  have ne_neg : reply.ret ≠ -1 := by rw [ret]; bv_omega
  unfold syncErrnoOut seenErrno
  cases macos : env.isMacos with
  | false => rw [if_neg fun h => Bool.false_ne_true h.2.2, if_neg Bool.false_ne_true, back]
  | true =>
    rw [if_pos ⟨ne_zero, ne_neg, rfl⟩, if_pos rfl, back]
    exact setWidth_signExtend_self (by decide)

def ShimCall.after (env : Env) : ShimCall → Reply → Reply
  | connect .. | sendto .. => translateErrno env
  | bind .. => id
  | accept _ addr addrlen | getsockname _ addr addrlen => acceptAfter addr addrlen
  | recvfrom _ _ _ _ srcAddr addrlen => recvfromAfter env srcAddr addrlen
  | mutexLock _ | mutexTrylock _ => syncErrnoOut env

lemma ShimCall.plan_after {c : ShimCall} {s request state after}
    (plan : c.plan env s = .call request state after) : after = c.after env := by
  cases c with
  | connect sockfd addr addrlen =>
    change Shim.connect env sockfd addr addrlen s = _ at plan
    unfold Shim.connect at plan
    split at plan
    · cases plan
    · exact (Env.call_inv plan).2.2.2.symm
  | bind sockfd addr addrlen =>
    change Shim.bind env sockfd addr addrlen s = _ at plan
    unfold Shim.bind at plan
    split at plan
    · cases plan
    · exact (Env.call_inv plan).2.2.2.symm
  | sendto sockfd buf len flags destAddr addrlen =>
    change Shim.sendto env sockfd buf len flags destAddr addrlen s = _ at plan
    unfold Shim.sendto at plan
    dsimp only at plan
    split at plan
    · exact (Env.call_inv plan).2.2.2.symm
    · exact (Env.call_inv plan).2.2.2.symm
  | accept | getsockname | recvfrom | mutexLock | mutexTrylock => exact (Env.call_inv plan).2.2.2.symm

lemma ShimCall.error_after {c : ShimCall} (pos : 0 < e.toNat) (lt : e.toNat < 132) (failed : c.Failed e reply) :
    c.error (c.after env reply) = seenErrno (c.translates && env.isMacos) e := by
  cases c with
  | connect | sendto =>
    obtain ⟨ret, rfl⟩ := failed
    exact translateErrno_failed ret
  | bind =>
    obtain ⟨ret, rfl⟩ := failed
    rfl
  | accept _ addr addrlen | getsockname _ addr addrlen =>
    obtain ⟨ret, rfl⟩ := failed
    show (acceptAfter addr addrlen reply).state.errno = _
    rw [acceptAfter_failed ret]
    rfl
  | recvfrom _ _ _ _ srcAddr addrlen =>
    obtain ⟨ret, rfl⟩ := failed
    show (recvfromAfter env srcAddr addrlen reply).state.errno = _
    rw [recvfromAfter_failed ret]
    exact translateErrno_failed ret
  | mutexLock | mutexTrylock => exact syncErrnoOut_failed pos lt failed

end Wrappers

lemma GuestCall.seen_of_fails {call : GuestCall} {e o : W32} (named : SameName e o)
    (fails : call.FailsWith e) : call.seen = some (seenErrno call.translated e) := by
  obtain ⟨pos, lt⟩ := named.small
  cases call with
  | raw env kernel r w =>
    obtain ⟨w', run⟩ := fails
    obtain ⟨r', w', out, errno⟩ := Syscall.sigill_errno (isErr_neg pos lt) run
    rw [seen, out]
    show some w'.errno = some e
    rw [errno, BitVec.neg_neg, BitVec.setWidth_setWidth_of_le _ (by decide), BitVec.setWidth_eq]
  | shim env lib s c =>
    obtain ⟨request, state, after, plan, failed⟩ := fails
    rw [seen, plan]
    show some (c.error (after (lib request state))) = _
    rw [ShimCall.plan_after plan, ShimCall.error_after pos lt failed]
    rfl

/-- The macOS number is seen exactly when the error is `Preserved` on the way of its call, and no two such errors
    are seen as one. -/
theorem guest_errno_iff {call call' : GuestCall} {e e' o o' : W32} (named : SameName e o)
    (named' : SameName e' o') (fails : call.FailsWith e) (fails' : call'.FailsWith e') :
    ((∃ seen, call.seen = some seen ∧ SameName e seen) ↔ Preserved call.translated e) ∧
      (Preserved call.translated e → Preserved call'.translated e' → call.seen = call'.seen → e = e') := by
  rw [GuestCall.seen_of_fails named fails, GuestCall.seen_of_fails named' fails']
  refine ⟨?_, fun pres pres' same => ?_⟩
  · rw [← preserved_iff named]
    exact ⟨fun ⟨_, eq, same⟩ => Option.some.inj eq ▸ same, fun same => ⟨_, rfl, same⟩⟩
  · exact seenErrno_injective named named' pres pres' (Option.some.inj same)

def failing (e : W32) : Libc := fun request s =>
  match request with
  | .mutexLock _ | .mutexTrylock _ => ⟨e.setWidth 64, s⟩
  | _ => ⟨-1, { s with errno := e }⟩

theorem guest_errno_iff_recvfrom :
    ∃ seen, (GuestCall.shim (smallEnv 0x1800) (failing 11) emptyState (.recvfrom 3 0 0 0 0 0)).seen = some seen ∧
      SameName 11 seen :=
  have named : SameName 11 35 := ⟨.EAGAIN, by decide⟩
  have fails : (GuestCall.shim (smallEnv 0x1800) (failing 11) emptyState (.recvfrom 3 0 0 0 0 0)).FailsWith 11 :=
    ⟨_, _, _, rfl, rfl, rfl⟩
  (guest_errno_iff named named fails fails).1.mpr (by decide)

/-- `EADDRINUSE` of `bind` stays 98, and a mutex reports `EDEADLK` and `EAGAIN` as one number. -/
theorem guest_errno_lost :
    (GuestCall.shim (smallEnv 0x1800) (failing 98) emptyState (.bind 3 0x5000 16)).FailsWith 98 ∧
    (GuestCall.shim (smallEnv 0x1800) (failing 98) emptyState (.bind 3 0x5000 16)).seen = some 98 ∧
    SameName 98 48 ∧ ¬SameName 98 98 ∧
    (GuestCall.shim (smallEnv 0x1800) (failing 35) emptyState (.mutexLock 0x5000)).FailsWith 35 ∧
    (GuestCall.shim (smallEnv 0x1800) (failing 11) emptyState (.mutexLock 0x5000)).FailsWith 11 ∧
    (GuestCall.shim (smallEnv 0x1800) (failing 35) emptyState (.mutexLock 0x5000)).seen = some 35 ∧
    (GuestCall.shim (smallEnv 0x1800) (failing 11) emptyState (.mutexLock 0x5000)).seen = some 35 ∧
    SameName 35 11 ∧ SameName 11 35 := by
  have absent : ∀ row ∈ Errno.table, row.2 ≠ (98, 98) := by decide +kernel
  refine ⟨⟨_, _, _, rfl, rfl, rfl⟩, rfl, ⟨.EADDRINUSE, by decide⟩, fun ⟨_, mem⟩ => absent _ mem rfl,
    ⟨_, _, _, rfl, rfl⟩, ⟨_, _, _, rfl, rfl⟩, ?_, ?_, ⟨.EDEADLK, by decide⟩, ⟨.EAGAIN, by decide⟩⟩
  · decide +kernel
  · decide +kernel

end Macify.Shim
