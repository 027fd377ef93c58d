import Macify.Lib.CStrings
import Macify.Shim.Sockets

/-!
# Socket addresses there and back

An address that the guest gets from one of the wrappers of `Shim.Sockets` and hands to another one. On
the way to the guest the family of two bytes becomes a length and a family of one byte each. On the way
back the wrappers have to find out by these two bytes whether an address is in the format of macOS.
-/

namespace Macify.Shim
open Lib

/-- A path may fill the 108 bytes of `sun_path`; the kernel then counts a zero after it. -/
inductive KernelSockaddr where
  | unix (path : Buf) (short : path.length ≤ 109)
  | inet (portAddr : Buf) (six : portAddr.length = 6)
  | inet6 (rest : Buf) (whole : rest.length = 26)

namespace KernelSockaddr

def family : KernelSockaddr → UInt8
  | unix .. => 1
  | inet .. => 2
  | inet6 .. => LINUX_AF_INET6

def payload : KernelSockaddr → Buf
  | unix path _ => path
  | inet portAddr _ => portAddr ++ List.replicate 8 0
  | inet6 rest _ => rest

def bytes (a : KernelSockaddr) : Buf := a.family :: 0 :: a.payload

def Redirected (env : Env) (a : KernelSockaddr) : Prop :=
  env.dnsServer ≠ none ∧ a.family = 2 ∧ a.payload.take 6 = [0x00, 0x35, 0x7f, 0x00, 0x00, 0x01]

lemma length_bytes (a : KernelSockaddr) : a.bytes.length = a.payload.length + 2 := rfl

variable {portAddr rest : Buf} {six : portAddr.length = 6} {whole : rest.length = 26}

lemma length_inet : (inet portAddr six).bytes.length = 16 := by
  rw [length_bytes, payload, List.length_append, six]
  rfl

lemma length_inet6 : (inet6 rest whole).bytes.length = 28 := by
  rw [length_bytes, payload, whole]

lemma length_payload_le (a : KernelSockaddr) : a.payload.length ≤ 109 := by
  cases a with
  | unix path short => exact short
  | inet portAddr six => rw [payload, List.length_append, six]; decide
  | inet6 rest whole => rw [payload, whole]; decide

end KernelSockaddr

inductive AddressSource where
  | getsockname
  | getpeername
  | accept
  | recvfrom (buf len : W64) (flags : W32)

namespace AddressSource

def request (sockfd : W32) (addr addrlen : W64) : AddressSource → Request
  | getsockname => .getsockname sockfd addr addrlen
  | getpeername => .getpeername sockfd addr addrlen
  | accept => .accept sockfd addr addrlen
  | recvfrom buf len flags => .recvfrom sockfd buf len flags addr addrlen

def plan (env : Env) (sockfd : W32) (addr addrlen : W64) (s : State) : AddressSource → Plan
  | getsockname => Shim.getsockname env sockfd addr addrlen s
  | getpeername => Shim.getpeername env sockfd addr addrlen s
  | accept => Shim.accept env sockfd addr addrlen s
  | recvfrom buf len flags => Shim.recvfrom env sockfd buf len flags addr addrlen s

end AddressSource

inductive AddressSink where
  | connect
  | bind
  | sendto (buf len : W64) (flags : W32)

def AddressSink.plan (env : Env) (sockfd : W32) (addr : W64) (addrlen : W32) (s : State) : AddressSink → Plan
  | connect => Shim.connect env sockfd addr addrlen s
  | bind => Shim.bind env sockfd addr addrlen s
  | sendto buf len flags => Shim.sendto env sockfd buf len flags addr addrlen s

def Request.address : Request → Option (Buf × W32)
  | connect _ addr addrlen | bind _ addr addrlen | sendto _ _ _ _ (some addr) addrlen => some (addr, addrlen)
  | _ => none

def Reaches (a : KernelSockaddr) : Plan → Prop
  | .call request _ _ => ∃ buf len, request.address = some (buf, len) ∧ len.toNat = a.bytes.length ∧
      buf.take len.toNat = a.bytes
  | _ => False

/-- A call has succeeded and has written an address and its length, to objects apart from each other. -/
structure Delivers (r : Reply) (addr addrlen : W64) (a : KernelSockaddr) : Prop where
  success : (0 : W64).sle r.ret = true
  addr_ne : addr ≠ 0
  addrlen_ne : addrlen ≠ 0
  bytes : r.state.mem.Holds addr a.bytes
  length : r.state.mem.read32 addrlen = BitVec.ofNat 32 a.bytes.length
  apart : ∀ i < 4, a.bytes.length ≤ (addrlen + BitVec.ofNat 64 i - addr).toNat

section Incoming

variable {r : Reply} {addr addrlen : W64} {a : KernelSockaddr}

def macosHead (a : KernelSockaddr) : Buf := [UInt8.ofNat a.bytes.length, macosFamily a.family]

lemma macosHead_fits : (macosHead a).length ≤ 2 ^ 64 := by
  have two : (macosHead a).length = 2 := rfl
  rw [two]
  decide

lemma toNat_length (a : KernelSockaddr) : (BitVec.ofNat 32 a.bytes.length).toNat = a.bytes.length := by
  have := a.length_payload_le
  rw [BitVec.toNat_ofNat, Nat.mod_eq_of_lt (by rw [a.length_bytes]; omega)]

lemma convertSockaddr_mem (d : Delivers r addr addrlen a) :
    (r.convertSockaddr addr addrlen).state.mem = r.state.mem.store addr (macosHead a) := by
  have family : r.state.mem addr = a.family := (List.cons.inj d.bytes).1
  have two : 2 ≤ (r.state.mem.read32 addrlen).toNat := by
    rw [d.length, toNat_length, a.length_bytes]
    omega
  rw [Reply.convertSockaddr, if_pos ⟨d.addr_ne, d.addrlen_ne, two⟩]
  dsimp only
  rw [linuxToMacosSockaddr, if_neg (by rintro (null | short); exacts [d.addr_ne null, by omega]), family, d.length,
    toNat_length]
  rfl

lemma convertSockaddr_holds (d : Delivers r addr addrlen a) :
    (r.convertSockaddr addr addrlen).state.mem.Holds addr (macosHead a ++ a.payload) := by
  rw [convertSockaddr_mem d, Mem.holds_append]
  have := a.length_payload_le
  have payload : r.state.mem.Holds (addr + BitVec.ofNat 64 2) a.payload :=
    (@Mem.holds_append _ addr [a.family, 0] a.payload).mp d.bytes |>.2
  refine ⟨Mem.holds_store_self macosHead_fits, ?_⟩
  refine (Mem.load_store_apart macosHead_fits fun i lt => ?_).trans payload
  have : (macosHead a).length = 2 := rfl
  bv_omega

lemma convertSockaddr_length (d : Delivers r addr addrlen a) :
    (r.convertSockaddr addr addrlen).state.mem.read32 addrlen = BitVec.ofNat 32 a.bytes.length := by
  rw [convertSockaddr_mem d, Mem.read32_store_apart macosHead_fits, d.length]
  intro i lt
  have := d.apart i lt
  rw [a.length_bytes] at this
  exact Nat.le_of_add_left_le this

lemma Env.result_call {env : Env} {libc : Libc} {request : Request} {s : State} {after : Reply → Reply}
    {reply : Reply} (returned : (env.call request s after).result libc = some reply) :
    reply = after (libc request s) := by
  rw [Env.call] at returned
  split at returned
  · exact (Option.some.inj returned).symm
  · exact nomatch returned

lemma AddressSource.result_eq {src : AddressSource} {libc : Libc} {env : Env} {sockfd : W32} {s : State}
    {reply : Reply} (d : Delivers (libc (src.request sockfd addr addrlen) s) addr addrlen a)
    (returned : (src.plan env sockfd addr addrlen s).result libc = some reply) :
    reply = (libc (src.request sockfd addr addrlen) s).convertSockaddr addr addrlen := by
  cases src with
  | getsockname | getpeername | accept => exact (Env.result_call returned).trans (if_pos d.success)
  | recvfrom buf len flags =>
    refine (Env.result_call returned).trans (if_neg fun failed => ?_)
    have success : (0 : W64).sle (libc (.recvfrom sockfd buf len flags addr addrlen) s).ret = true :=
      d.success
    rw [failed] at success
    exact absurd success (by decide)

end Incoming

section Outgoing

variable {a : KernelSockaddr} {m : Mem} {p : W64} {portAddr rest : Buf} {six : portAddr.length = 6}
  {whole : rest.length = 26}

lemma first_byte (holds : m.Holds p (macosHead a ++ a.payload)) : m p = UInt8.ofNat a.bytes.length :=
  (List.cons.inj holds).1

lemma second_byte (holds : m.Holds p (macosHead a ++ a.payload)) : m (p + 1) = macosFamily a.family :=
  (List.cons.inj (List.cons.inj holds).2).1

lemma load_payload (holds : m.Holds p (macosHead a ++ a.payload)) : m.load (p + 2) a.payload.length = a.payload :=
  (Mem.holds_append.mp holds).2

lemma take_linuxCopy (holds : m.Holds p (macosHead a ++ a.payload)) :
    (linuxCopy m p (BitVec.ofNat 32 a.bytes.length)).take a.bytes.length = macosHead a ++ a.payload := by
  have := a.length_payload_le
  have whole : m.load p a.bytes.length = macosHead a ++ a.payload := holds
  rw [linuxCopy, toNat_length, Nat.min_eq_left (by rw [a.length_bytes, addrBuffer]; omega), whole, linuxAddr]
  exact List.take_left' rfl

lemma take_linuxIn6 (holds : m.Holds p (macosHead (.inet6 rest whole) ++ rest)) :
    (linuxIn6 m p).take 28 = (KernelSockaddr.inet6 rest whole).bytes := by
  have payload : m.load (p + 2) rest.length = rest := @load_payload (.inet6 rest whole) m p holds
  rw [whole] at payload
  rw [linuxIn6, payload, linuxAddr]
  exact List.take_left' (by rw [List.length_append, whole]; rfl)

lemma take_linuxIn (holds : m.Holds p (macosHead (.inet portAddr six) ++ (portAddr ++ List.replicate 8 0))) :
    m.load (p + 2) 6 = portAddr ∧ (linuxIn m p).take 16 = (KernelSockaddr.inet portAddr six).bytes := by
  have payload : m.Holds (p + 2) (portAddr ++ List.replicate 8 0) := (Mem.holds_append.mp holds).2
  have front : m.load (p + 2) portAddr.length = portAddr := (Mem.holds_append.mp payload).1
  rw [six] at front
  refine ⟨front, ?_⟩
  have room : addrBuffer - ([2, 0] ++ portAddr : Buf).length = 8 + 240 := by rw [List.length_append, six]; rfl
  rw [linuxIn, front, linuxAddr, room, List.replicate_add, ← List.append_assoc]
  exact List.take_left' (by rw [List.length_append, List.length_append, six]; rfl)

lemma inet_head (holds : m.Holds p (macosHead (.inet portAddr six) ++ (portAddr ++ List.replicate 8 0))) :
    m p = 16 ∧ m (p + 1) = 2 := by
  have p0 := @first_byte (.inet portAddr six) m p holds
  rw [KernelSockaddr.length_inet] at p0
  exact ⟨p0, (@second_byte (.inet portAddr six) m p holds).trans (show macosFamily 2 = 2 by decide)⟩

lemma inet6_head
    (holds : m.Holds p (macosHead (.inet6 rest whole) ++ rest)) : m p = 28 ∧ m (p + 1) = MACOS_AF_INET6 := by
  have p0 := @first_byte (.inet6 rest whole) m p holds
  rw [KernelSockaddr.length_inet6] at p0
  exact ⟨p0, (@second_byte (.inet6 rest whole) m p holds).trans (show macosFamily 10 = 30 by decide)⟩

lemma sockaddrFor_ip (holds : m.Holds p (macosHead a ++ a.payload)) (ip : a.family ≠ 1) :
    ∃ buf, sockaddrFor m p (BitVec.ofNat 32 a.bytes.length) = (buf, BitVec.ofNat 32 a.bytes.length) ∧
      buf.take a.bytes.length = a.bytes := by
  cases a with
  | unix path short => exact absurd rfl ip
  | inet portAddr six =>
    obtain ⟨p0, p1⟩ := inet_head holds
    refine ⟨linuxIn m p, ?_, KernelSockaddr.length_inet ▸ (take_linuxIn holds).2⟩
    rw [KernelSockaddr.length_inet, sockaddrFor, p0, p1, if_neg (by decide), if_pos (by decide)]
    rfl
  | inet6 rest whole =>
    obtain ⟨p0, p1⟩ := inet6_head holds
    refine ⟨linuxIn6 m p, ?_, KernelSockaddr.length_inet6 ▸ take_linuxIn6 holds⟩
    rw [KernelSockaddr.length_inet6, sockaddrFor, p0, p1, if_pos (by decide)]
    rfl

lemma sockaddrFor_unix {path : Buf} {short : path.length ≤ 109} {len : W32}
    (holds : m.Holds p (macosHead (.unix path short) ++ path)) :
    sockaddrFor m p len = (linuxCopy m p len, len) := by
  have p1 : m (p + 1) = 1 :=
    (@second_byte (.unix path short) m p holds).trans (show macosFamily 1 = 1 by decide)
  rw [sockaddrFor, p1, if_neg (fun met => absurd met.1 (by decide)), if_neg (fun met => absurd met.2.1 (by decide))]

lemma macosHead_ne : macosHead a ++ a.payload ≠ a.bytes := by
  intro same
  have family : macosFamily a.family = 0 := (List.cons.inj (List.cons.inj same).2).1
  cases a with
  | unix path short => exact absurd family (show macosFamily 1 ≠ 0 by decide)
  | inet portAddr six => exact absurd family (show macosFamily 2 ≠ 0 by decide)
  | inet6 rest whole => exact absurd family (show macosFamily 10 ≠ 0 by decide)

variable {env : Env} {sockfd : W32} {s : State}

lemma reaches_iff (found : env.found = true) {request : Request} {after : Reply → Reply} {buf : Buf}
    {len : W32} (address : request.address = some (buf, len)) :
    Reaches a (env.call request s after) ↔ len.toNat = a.bytes.length ∧ buf.take len.toNat = a.bytes := by
  rw [Env.call, if_pos found, Reaches, address]
  constructor
  · rintro ⟨buf', len', same, length, bytes⟩
    obtain ⟨rfl, rfl⟩ := Prod.mk.inj (Option.some.inj same)
    exact ⟨length, bytes⟩
  · rintro ⟨length, bytes⟩
    exact ⟨buf, len, rfl, length, bytes⟩

lemma sockaddrFor_iff (holds : m.Holds p (macosHead a ++ a.payload)) :
    (∃ buf, sockaddrFor m p (BitVec.ofNat 32 a.bytes.length) = (buf, BitVec.ofNat 32 a.bytes.length) ∧
      (buf.take a.bytes.length = a.bytes ↔ a.family ≠ 1)) := by
  by_cases ip : a.family ≠ 1
  · obtain ⟨buf, eq, bytes⟩ := sockaddrFor_ip holds ip
    exact ⟨buf, eq, iff_of_true bytes ip⟩
  · cases a with
    | unix path short =>
      refine ⟨_, sockaddrFor_unix holds, iff_of_false ?_ ip⟩
      rw [take_linuxCopy holds]
      exact macosHead_ne
    | inet portAddr six => exact absurd (show (2 : UInt8) ≠ 1 by decide) ip
    | inet6 rest whole => exact absurd (show (10 : UInt8) ≠ 1 by decide) ip

lemma linuxIn_port : ((linuxIn m p).drop 2).take 6 = m.load (p + 2) 6 := by
  rw [linuxIn, linuxAddr, List.append_assoc]
  exact List.take_left' Mem.length_load

lemma redirectDns_eq {family : UInt8} {addr : Buf}
    (other : env.dnsServer = none ∨ family ≠ 2 ∨ (addr.drop 2).take 6 ≠ [0x00, 0x35, 0x7f, 0x00, 0x00, 0x01]) :
    redirectDns env family addr = addr := by
  rw [redirectDns]
  split
  case isTrue met =>
    rcases other with missing | family | address
    · rw [missing]
    · exact absurd met.1 family
    · exact absurd met.2 address
  case isFalse => rfl

lemma connect_iff (found : env.found = true) (nonnull : p ≠ 0)
    (holds : s.mem.Holds p (macosHead a ++ a.payload)) (other : ¬a.Redirected env) :
    Reaches a (connect env sockfd p (BitVec.ofNat 32 a.bytes.length) s) ↔ a.family ≠ 1 := by
  have two : ¬(p = 0 ∨ (BitVec.ofNat 32 a.bytes.length).toNat < 2) := by
    rw [toNat_length, a.length_bytes]
    rintro (null | short)
    · exact nonnull null
    · omega
  rw [connect, if_neg two]
  dsimp only
  cases a with
  | unix path short =>
    have p1 : s.mem (p + 1) = 1 :=
      (@second_byte (.unix path short) s.mem p holds).trans (show macosFamily 1 = 1 by decide)
    refine iff_of_false ?_ (fun ip => ip rfl)
    split
    · -- the kernel gets an address of IPv4
      rw [p1, if_neg (by decide), redirectDns_eq (.inr (.inl (by decide))), reaches_iff found rfl]
      rintro ⟨-, bytes⟩
      exact absurd (List.cons.inj bytes).1 (show (2 : UInt8) ≠ 1 by decide)
    · rw [reaches_iff found rfl, toNat_length, take_linuxCopy holds]
      exact fun reached => macosHead_ne reached.2
  | inet portAddr six =>
    obtain ⟨p0, p1⟩ := inet_head holds
    obtain ⟨port, bytes⟩ := take_linuxIn holds
    rw [KernelSockaddr.length_inet]
    have macos : isMacosSockaddr s.mem p (BitVec.ofNat 32 16) = true := by
      rw [isMacosSockaddr, p0, p1]
      decide
    have same : redirectDns env 2 (linuxIn s.mem p) = linuxIn s.mem p := by
      apply redirectDns_eq
      by_contra met
      push Not at met
      refine other ⟨met.1, rfl, ?_⟩
      rw [KernelSockaddr.payload, List.take_left' six, ← port, ← linuxIn_port]
      exact met.2.2
    rw [if_pos macos, p1, if_neg (by decide), same, reaches_iff found rfl, KernelSockaddr.length_inet]
    exact iff_of_true ⟨rfl, bytes⟩ (show (2 : UInt8) ≠ 1 by decide)
  | inet6 rest whole =>
    obtain ⟨p0, p1⟩ := inet6_head holds
    rw [KernelSockaddr.length_inet6]
    have macos : isMacosSockaddr s.mem p (BitVec.ofNat 32 28) = true := by
      rw [isMacosSockaddr, p0, p1]
      decide
    rw [if_pos macos, p1, if_pos rfl, reaches_iff found rfl, KernelSockaddr.length_inet6]
    exact iff_of_true ⟨rfl, take_linuxIn6 holds⟩ (show (10 : UInt8) ≠ 1 by decide)

lemma AddressSink.reaches_iff {sink : AddressSink} (found : env.found = true) (nonnull : p ≠ 0)
    (holds : s.mem.Holds p (macosHead a ++ a.payload)) (other : ¬(sink = .connect ∧ a.Redirected env)) :
    Reaches a (sink.plan env sockfd p (BitVec.ofNat 32 a.bytes.length) s) ↔ a.family ≠ 1 := by
  have two : 2 ≤ (BitVec.ofNat 32 a.bytes.length).toNat := by
    rw [toNat_length, a.length_bytes]
    omega
  obtain ⟨buf, eq, bytes⟩ := sockaddrFor_iff holds
  cases sink with
  | connect => exact connect_iff found nonnull holds fun redirected => other ⟨rfl, redirected⟩
  | bind =>
    rw [plan, Shim.bind, if_neg (by rintro (null | short); exacts [nonnull null, by omega]), eq,
      Shim.reaches_iff found rfl, toNat_length]
    exact (and_iff_right rfl).trans bytes
  | sendto data len flags =>
    have := a.length_payload_le
    have short : min (BitVec.ofNat 32 a.bytes.length).toNat addrBuffer = a.bytes.length := by
      rw [toNat_length, a.length_bytes, addrBuffer]
      omega
    rw [plan, Shim.sendto, if_pos ⟨nonnull, two⟩, eq, Shim.reaches_iff found rfl, short, toNat_length]
    exact (and_iff_right rfl).trans bytes

end Outgoing

/-- For every address, every way to the guest and every way back, from any memory that still has the bytes, the
    redirection of a connection apart. -/
theorem sockaddr_round_trip_iff {src : AddressSource} {sink : AddressSink} {a : KernelSockaddr} {libc : Libc}
    {env env' : Env} {sockfd sockfd' : W32} {addr addrlen p : W64} {s s' : State} {reply : Reply}
    (delivers : Delivers (libc (src.request sockfd addr addrlen) s) addr addrlen a)
    (returned : (src.plan env sockfd addr addrlen s).result libc = some reply)
    (found : env'.found = true) (nonnull : p ≠ 0)
    (same : s'.mem.load p a.bytes.length = reply.state.mem.load addr a.bytes.length)
    (other : ¬(sink = .connect ∧ a.Redirected env')) :
    Reaches a (sink.plan env' sockfd' p (reply.state.mem.read32 addrlen) s') ↔ a.family ≠ 1 := by
  obtain rfl := AddressSource.result_eq delivers returned
  rw [convertSockaddr_length delivers]
  exact AddressSink.reaches_iff found nonnull (same.trans (convertSockaddr_holds delivers)) other

def addressLibc (a : KernelSockaddr) : Libc := fun _ s =>
  ⟨0, { s with mem := (s.mem.store 0x100 a.bytes).write32 0x80 (BitVec.ofNat 32 a.bytes.length) }⟩

def webAddress : KernelSockaddr := .inet [0, 80, 192, 0, 2, 7] rfl

def pathAddress : KernelSockaddr := .unix [0x2F, 0x74, 0x6D, 0x70, 0x2F, 0x73, 0] (by decide)

theorem sockaddr_round_trip_web :
    let env := smallEnv 0x1500
    let reply := ((addressLibc webAddress (.getpeername 3 0x100 0x80) emptyState).convertSockaddr 0x100 0x80)
    Reaches webAddress (Shim.connect env 4 0x100 (reply.state.mem.read32 0x80) reply.state) := by
  intro env reply
  refine (@sockaddr_round_trip_iff .getpeername .connect webAddress (addressLibc webAddress) env env 3 4
    0x100 0x80 0x100 emptyState reply.state reply ?_ ?_ ?_ ?_ ?_ ?_).mpr ?_
  · refine ⟨?_, ?_, ?_, ?_, ?_, ?_⟩ <;> decide +kernel
  · rfl
  · rfl
  · decide
  · rfl
  · rintro ⟨-, server, -⟩
    exact server rfl
  · decide

/-- An address that is a path comes back as one of IPv4 from `connect`, and with a wrong family from `bind`. -/
theorem sockaddr_path_lost :
    let env := smallEnv 0x1500
    let reply := ((addressLibc pathAddress (.getpeername 3 0x100 0x80) emptyState).convertSockaddr 0x100 0x80)
    Delivers (addressLibc pathAddress (.getpeername 3 0x100 0x80) emptyState) 0x100 0x80 pathAddress ∧
      (Shim.getpeername env 3 0x100 0x80 emptyState).result (addressLibc pathAddress) = some reply ∧
      (∀ sink : AddressSink,
        ¬Reaches pathAddress (sink.plan env 4 0x100 (reply.state.mem.read32 0x80) reply.state)) ∧
      (∃ after, Shim.connect env 4 0x100 (reply.state.mem.read32 0x80) reply.state =
        .call (.connect 4 (linuxAddr [2, 0, 0x2F, 0x74, 0x6D, 0x70, 0x2F, 0x73]) 16) reply.state after) ∧
      ∃ after, Shim.bind env 4 0x100 (reply.state.mem.read32 0x80) reply.state =
        .call (.bind 4 (linuxAddr [9, 1, 0x2F, 0x74, 0x6D, 0x70, 0x2F, 0x73, 0]) 9) reply.state after := by
  intro env reply
  have delivers : Delivers (addressLibc pathAddress (.getpeername 3 0x100 0x80) emptyState) 0x100 0x80
      pathAddress := by
    refine ⟨?_, ?_, ?_, ?_, ?_, ?_⟩ <;> decide +kernel
  have length : reply.state.mem.read32 0x80 = BitVec.ofNat 32 pathAddress.bytes.length :=
    convertSockaddr_length delivers
  refine ⟨delivers, rfl, fun sink reached => ?_, ⟨translateErrno env, ?_⟩, id, ?_⟩
  · rw [length, AddressSink.reaches_iff rfl (by decide) (convertSockaddr_holds delivers)] at reached
    · exact reached rfl
    · rintro ⟨-, server, -⟩
      exact server rfl
  · rw [length]
    rfl
  · rw [length]
    rfl

end Macify.Shim
