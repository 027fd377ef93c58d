import Macify.Shim.Calls

/-!
# Sockets

The wrappers of `shim/io/net.c`. A macOS socket address has its length in the first byte and the family
in the second one, where Linux has a family of two bytes; `AF_INET6` is `30` on macOS and `10` on Linux.
-/

namespace Macify.Shim
open Lib

abbrev MACOS_AF_INET6 : UInt8 := 30
abbrev LINUX_AF_INET6 : UInt8 := 10

abbrev addrBuffer : ℕ := 256

def linuxAddr (bytes : Buf) : Buf := bytes ++ List.replicate (addrBuffer - bytes.length) 0

def linuxIn6 (m : Mem) (p : W64) : Buf := linuxAddr ([LINUX_AF_INET6, 0] ++ m.load (p + 2) 26)

def linuxIn (m : Mem) (p : W64) : Buf := linuxAddr ([2, 0] ++ m.load (p + 2) 6)

def linuxCopy (m : Mem) (p : W64) (addrlen : W32) : Buf :=
  linuxAddr (m.load p (min addrlen.toNat addrBuffer))

def isMacosSockaddr (m : Mem) (p : W64) (addrlen : W32) : Bool :=
  let p0 := m p
  let p1 := m (p + 1)
  8 ≤ addrlen.toNat &&
    (p0 == 16 || p0 == 28 || p0 == 0 && (p1 == 2 || p1 == 30) ||
      !([1, 2, 10, 16, 17].contains p0) && (1 ≤ p1 && p1 ≤ 30))

/-- The address of the name server that a connection to `127.0.0.1:53` goes to. -/
def redirectDns (env : Env) (family : UInt8) (addr : Buf) : Buf :=
  if family = 2 ∧ (addr.drop 2).take 6 = [0x00, 0x35, 0x7f, 0x00, 0x00, 0x01] then
    match env.dnsServer with
    | some ip => addr.take 4 ++ Mem.leBytes 4 ip.toNat ++ addr.drop 8
    | none => addr
  else addr

def invalid (s : State) : Plan := .done ⟨-1, { s with errno := 22 }⟩

def connect (env : Env) (sockfd : W32) (addr : W64) (addrlen : W32) (s : State) : Plan :=
  if addr = 0 ∨ addrlen.toNat < 2 then invalid s
  else
    let (buf, len) :=
      if isMacosSockaddr s.mem addr addrlen then
        let family := s.mem (addr + 1)
        if family = MACOS_AF_INET6 then (linuxIn6 s.mem addr, 28)
        else (redirectDns env family (linuxIn s.mem addr), 16)
      else (linuxCopy s.mem addr addrlen, addrlen)
    env.call (.connect sockfd buf len) s (translateErrno env)

def sockaddrFor (m : Mem) (p : W64) (addrlen : W32) : Buf × W32 :=
  let p0 := m p
  let p1 := m (p + 1)
  if p1 = MACOS_AF_INET6 ∧ (p0 = 28 ∨ p0 = 0) ∧ 28 ≤ addrlen.toNat then (linuxIn6 m p, 28)
  else if (p0 = 16 ∨ p0 = 0) ∧ p1 = 2 ∧ 8 ≤ addrlen.toNat then (linuxIn m p, 16)
  else (linuxCopy m p addrlen, addrlen)

def bind (env : Env) (sockfd : W32) (addr : W64) (addrlen : W32) (s : State) : Plan :=
  if addr = 0 ∨ addrlen.toNat < 2 then invalid s
  else
    let (buf, len) := sockaddrFor s.mem addr addrlen
    env.call (.bind sockfd buf len) s id

abbrev MSG_NOSIGNAL : W32 := 0x4000

/-- An address that is copied is cut to the size of the buffer. -/
def sendto (env : Env) (sockfd : W32) (buf len : W64) (flags : W32)
    (destAddr : W64) (addrlen : W32) (s : State) : Plan :=
  let flags := flags ||| MSG_NOSIGNAL
  if destAddr ≠ 0 ∧ 2 ≤ addrlen.toNat then
    let (addr, addrlen) := sockaddrFor s.mem destAddr addrlen
    env.call
      (.sendto sockfd buf len flags (some addr) (BitVec.ofNat 32 (min addrlen.toNat addrBuffer))) s
      (translateErrno env)
  else env.call (.sendto sockfd buf len flags none 0) s (translateErrno env)

def macosFamily (linuxFamily : UInt8) : UInt8 :=
  if linuxFamily = LINUX_AF_INET6 then MACOS_AF_INET6 else linuxFamily

def linuxToMacosSockaddr (addr : W64) (addrlen : W32) (m : Mem) : Mem :=
  if addr = 0 ∨ addrlen.toNat < 2 then m
  else m.store addr [UInt8.ofNat addrlen.toNat, macosFamily (m addr)]

/-- `if (addr && addrlen && *addrlen >= 2) linux_to_macos_sockaddr(addr, *addrlen)`. -/
def Reply.convertSockaddr (addr addrlen : W64) (reply : Reply) : Reply :=
  let m := reply.state.mem
  if addr ≠ 0 ∧ addrlen ≠ 0 ∧ 2 ≤ (m.read32 addrlen).toNat then
    { reply with
      state := { reply.state with mem := linuxToMacosSockaddr addr (m.read32 addrlen) m } }
  else reply

def acceptAfter (addr addrlen : W64) (reply : Reply) : Reply :=
  if (0 : W64).sle reply.ret then reply.convertSockaddr addr addrlen else reply

def accept (env : Env) (sockfd : W32) (addr addrlen : W64) (s : State) : Plan :=
  env.call (.accept sockfd addr addrlen) s (acceptAfter addr addrlen)

def getsockname (env : Env) (sockfd : W32) (addr addrlen : W64) (s : State) : Plan :=
  env.call (.getsockname sockfd addr addrlen) s (acceptAfter addr addrlen)

def getpeername (env : Env) (sockfd : W32) (addr addrlen : W64) (s : State) : Plan :=
  env.call (.getpeername sockfd addr addrlen) s (acceptAfter addr addrlen)

def recvfromAfter (env : Env) (srcAddr addrlen : W64) (reply : Reply) : Reply :=
  if reply.ret = -1 then translateErrno env reply else reply.convertSockaddr srcAddr addrlen

def recvfrom (env : Env) (sockfd : W32) (buf len : W64) (flags : W32) (srcAddr addrlen : W64) (s : State) : Plan :=
  env.call (.recvfrom sockfd buf len flags srcAddr addrlen) s (recvfromAfter env srcAddr addrlen)

abbrev SOL_SOCKET : W32 := 1
abbrev SO_NOSIGPIPE : W32 := 0x1022

def translateSolSocketOptname (optname : W32) : W32 :=
  match optname.toNat with
  | 0x1 => 1
  | 0x4 => 2
  | 0x8 => 9
  | 0x10 => 5
  | 0x20 => 6
  | 0x80 => 13
  | 0x100 => 10
  | 0x200 => 15
  | 0x1001 => 7
  | 0x1002 => 8
  | 0x1003 => 19
  | 0x1004 => 18
  | 0x1005 => 47
  | 0x1006 => 20
  | 0x1007 => 4
  | 0x1008 => 3
  | 0x1016 => 38
  | 0x1022 => -1
  | _ => optname

def solLevel (level : W32) : W32 := if level = 0xFFFF then SOL_SOCKET else level

/-- An option that Linux does not know is taken as set. -/
def setsockoptAfter (env : Env) (reply : Reply) : Reply :=
  if reply.ret = -1 ∧ (reply.state.errno = 92 ∨ reply.state.errno = 22) then { reply with ret := 0 }
  else translateErrno env reply

def setsockopt (env : Env) (sockfd level optname : W32) (optval : W64) (optlen : W32) (s : State) : Plan :=
  let level := solLevel level
  if level = SOL_SOCKET ∧ optname = SO_NOSIGPIPE then .done ⟨0, s⟩
  else
    let translated := translateSolSocketOptname optname
    let optname :=
      if level = SOL_SOCKET ∧ translated ≠ optname ∧ (0 : W32).slt translated then translated
      else optname
    env.call (.setsockopt sockfd level optname optval optlen) s (setsockoptAfter env)

def getsockoptAfter (env : Env) (reply : Reply) : Reply :=
  if reply.ret = -1 ∧ reply.state.errno = 92 then { reply with ret := 0 } else translateErrno env reply

def getsockopt (env : Env) (sockfd level optname : W32) (optval optlen : W64) (s : State) : Plan :=
  let level := solLevel level
  if level = SOL_SOCKET ∧ optname = SO_NOSIGPIPE then
    if optval ≠ 0 ∧ optlen ≠ 0 ∧ 4 ≤ (s.mem.read32 optlen).toNat then
      .done ⟨0, { s with mem := s.mem.write32 optval 0 }⟩
    else .done ⟨0, s⟩
  else
    let optname := if level = SOL_SOCKET then translateSolSocketOptname optname else optname
    env.call (.getsockopt sockfd level optname optval optlen) s (getsockoptAfter env)

end Macify.Shim
