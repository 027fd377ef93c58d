import Macify.Lib.Loop
import Macify.Shim.Sockets
import Macify.Syscall.FlagTranslation

/-!
# Host lookup

`macify_getaddrinfo` (`shim/io/net.c`). The list that the C library returns is built again, as the nodes
have their two pointers in another order on macOS; the socket addresses in them are converted. A node is
given by its fields, a null pointer is `none`, and the empty list is one too.
-/

namespace Macify.Shim
open Lib
open Syscall (mapBits)

structure Hints where
  flags : W32
  family : W32
  socktype : W32
  protocol : W32

structure Addrinfo where
  flags : W32
  family : W32
  socktype : W32
  protocol : W32
  addrlen : W32
  addr : Option Buf
  canonname : Option Buf

structure Allocations where
  node : ℕ → Bool
  addr : ℕ → Bool
  canonname : ℕ → Bool

abbrev EAI_MEMORY : W32 := -10

abbrev RealGai := Option Buf → Option Buf → Option Hints → W32 × List Addrinfo

/-- The flags have other values, `AI_ADDRCONFIG` that is. -/
def linuxHints (mh : Hints) : Hints where
  flags :=
    mapBits mh.flags
      [(0x01, 0x01), (0x02, 0x02), (0x04, 0x04), (0x08, 0x08), (0x10, 0x10), (0x100, 0x20), (0x400, 0x400)] 0
  family := mh.family
  socktype := mh.socktype
  protocol := mh.protocol

/-- The copy of a socket address. What is copied for a known family does not depend on `addrlen`. -/
def addrCopy (family : W32) (addr : Buf) : Buf :=
  if family = 2 then [16, 2] ++ (addr.drop 2).take 6 ++ List.replicate (addr.length - 8) 0
  else if family = 10 then [28, 30] ++ (addr.drop 2).take 26 ++ List.replicate (addr.length - 28) 0
  else addr

def macosNode (alloc : Allocations) (i : ℕ) (p : Addrinfo) : Addrinfo where
  flags := p.flags
  family := p.family
  socktype := p.socktype
  protocol := p.protocol
  addrlen := p.addrlen
  addr := if 0 < p.addrlen.toNat ∧ alloc.addr i then p.addr.map (addrCopy p.family) else none
  canonname := if alloc.canonname i then p.canonname else none

def macosList (alloc : Allocations) (linuxRes : List Addrinfo) : Option (List Addrinfo) :=
  linuxRes.zipIdx.foldlM
    (fun built p => if alloc.node p.2 then some (built ++ [macosNode alloc p.2 p.1]) else none) []

def macifyGetaddrinfo (isMacos : Bool) (realGai : RealGai) (alloc : Allocations) (node service : Option Buf)
    (hints : Option Hints) : W32 × List Addrinfo :=
  if !isMacos then realGai node service hints
  else
    let (r, linuxRes) := realGai node service (hints.map linuxHints)
    if r ≠ 0 ∨ linuxRes.isEmpty then (r, [])
    else
      match macosList alloc linuxRes with
      | some macosHead => (r, macosHead)
      | none => (EAI_MEMORY, [])

inductive Addrinfo.IsIp (p : Addrinfo) : Prop where
  | v4 (rest : Buf) (length : rest.length = 14) (family : p.family = 2) (addrlen : p.addrlen = 16)
      (addr : p.addr = some (2 :: 0 :: rest))
  | v6 (rest : Buf) (length : rest.length = 26) (family : p.family = 10) (addrlen : p.addrlen = 28)
      (addr : p.addr = some (10 :: 0 :: rest))

def macosAf (family : W32) : W32 := if family = 10 then 30 else family

/-- How many bytes of an address follow the family: a port and an address, or all of `sockaddr_in6`. -/
def payloadSize (family : W32) : ℕ := if family = 10 then 26 else 6

/-- A node for the guest has the address of the node that it was made from, with its family in the numbers of macOS. -/
structure ConsistentNode (linux macos : Addrinfo) : Prop where
  address : ∃ b b', linux.addr = some b ∧ macos.addr = some b' ∧ (b'.drop 2).take (payloadSize linux.family) =
    (b.drop 2).take (payloadSize linux.family)
  rest : macos.flags = linux.flags ∧ macos.socktype = linux.socktype ∧ macos.protocol = linux.protocol ∧
    macos.addrlen = linux.addrlen ∧ macos.canonname = linux.canonname
  family : macos.family = macosAf linux.family
  byte : ∃ b', macos.addr = some b' ∧ (byte b' 1).toNat = macos.family.toNat

def HintKept (hints : Option Hints) : Prop := ∀ h, hints = some h → h.family = 30 → (linuxHints h).family = 10

section Families

variable {alloc : Allocations} {results : List Addrinfo}

def Allocations.Succeed (alloc : Allocations) : Prop :=
  ∀ i, alloc.node i = true ∧ alloc.addr i = true ∧ alloc.canonname i = true

lemma foldlM_nodes (memory : alloc.Succeed) (l : List (Addrinfo × ℕ)) (built : List Addrinfo) :
    l.foldlM (fun built p => if alloc.node p.2 then some (built ++ [macosNode alloc p.2 p.1]) else none) built =
      some (built ++ l.map fun p => macosNode alloc p.2 p.1) := by
  induction l generalizing built with
  | nil => exact congrArg some (List.append_nil built).symm
  | cons p l ih =>
    rw [List.foldlM_cons, if_pos (memory p.2).1, List.map_cons]
    exact (ih _).trans (congrArg some (List.append_cons _ _ _).symm)

lemma macosList_eq (memory : alloc.Succeed) :
    macosList alloc results = some (results.zipIdx.map fun p => macosNode alloc p.2 p.1) := by
  rw [macosList, foldlM_nodes memory, List.nil_append]

lemma consistentNode_iff (memory : alloc.Succeed) {p : Addrinfo} (ip : p.IsIp) (i : ℕ) :
    ConsistentNode p (macosNode alloc i p) ↔ p.family ≠ 10 := by
  cases ip with
  | v4 rest length family addrlen addr =>
    have copied : (macosNode alloc i p).addr =
        some ([16, 2] ++ rest.take 6 ++ List.replicate (16 - 8) 0) := by
      rw [macosNode, addrlen, if_pos ⟨by decide, (memory i).2.1⟩, addr, family, Option.map_some, addrCopy,
        if_pos rfl, List.length_cons, List.length_cons, length]
      rfl
    have name : (macosNode alloc i p).canonname = p.canonname := if_pos (memory i).2.2
    refine iff_of_true ⟨⟨_, _, addr, copied, ?_⟩, ⟨rfl, rfl, rfl, rfl, name⟩, ?_, _, copied, ?_⟩ ?_
    · rw [payloadSize, family, if_neg (by decide)]
      have six : (rest.take 6).length = 6 := by rw [List.length_take, length]; rfl
      exact List.take_left' six
    · rw [macosAf, family, if_neg (by decide)]
      exact family
    · exact (congrArg BitVec.toNat family).symm
    · rw [family]
      decide
  | v6 rest length family addrlen addr =>
    refine iff_of_false (fun consistent => ?_) fun other => other family
    have same := consistent.family
    rw [macosAf, if_pos family] at same
    exact absurd (family.symm.trans same) (by decide)

lemma hintKept_iff {hints : Option Hints} : HintKept hints ↔ ∀ h, hints = some h → h.family ≠ 30 := by
  refine forall₂_congr fun h _ => ⟨fun kept v6 => ?_, fun other v6 => absurd v6 other⟩
  exact absurd (v6.symm.trans (kept v6)) (by decide)

lemma forall₂_nodes_iff (memory : alloc.Succeed) (ip : ∀ p ∈ results, p.IsIp) (start : ℕ) :
    List.Forall₂ ConsistentNode results ((results.zipIdx start).map fun p => macosNode alloc p.2 p.1) ↔
      ∀ p ∈ results, p.family ≠ 10 := by
  induction results generalizing start with
  | nil => exact iff_of_true .nil nofun
  | cons p results ih =>
    rw [List.zipIdx_cons, List.map_cons, List.forall₂_cons, List.forall_mem_cons,
      consistentNode_iff memory (ip p List.mem_cons_self),
      ih (fun q mem => ip q (List.mem_cons_of_mem _ mem))]

/-- For every lookup by the guest that has results: the list has their length and order. -/
theorem getaddrinfo_families_iff {realGai : RealGai} {node service : Option Buf} {hints : Option Hints}
    (memory : alloc.Succeed) (answer : realGai node service (hints.map linuxHints) = (0, results))
    (nonempty : results ≠ []) (ip : ∀ p ∈ results, p.IsIp) :
    ∃ list, macifyGetaddrinfo true realGai alloc node service hints = (0, list) ∧
      list.length = results.length ∧
      (List.Forall₂ ConsistentNode results list ∧ HintKept hints ↔
        (∀ p ∈ results, p.family ≠ 10) ∧ ∀ h, hints = some h → h.family ≠ 30) := by
  refine ⟨results.zipIdx.map fun p => macosNode alloc p.2 p.1, ?_, ?_, ?_⟩
  · rw [macifyGetaddrinfo, if_neg (by decide), answer]
    dsimp only
    rw [if_neg (by rintro (failed | empty); exacts [failed rfl, nonempty (List.isEmpty_iff.mp empty)]),
      macosList_eq memory]
  · rw [List.length_map, List.length_zipIdx]
  · rw [forall₂_nodes_iff memory ip, hintKept_iff]

def webResults : List Addrinfo :=
  [⟨0, 10, 1, 6, 28, some (10 :: 0 :: List.replicate 26 1), none⟩,
   ⟨0, 2, 1, 6, 16, some (2 :: 0 :: List.replicate 14 1), none⟩]

def enoughMemory : Allocations := ⟨fun _ => true, fun _ => true, fun _ => true⟩

theorem getaddrinfo_families_v4 :
    ∃ list, macifyGetaddrinfo true (fun _ _ _ => (0, webResults.tail)) enoughMemory none none
        (some ⟨0, 2, 1, 0⟩) = (0, list) ∧
      List.Forall₂ ConsistentNode webResults.tail list := by
  have v4 : ∀ p ∈ webResults.tail, p.IsIp ∧ p.family ≠ 10 := by
    rintro p mem
    obtain rfl := List.mem_singleton.mp mem
    exact ⟨.v4 (List.replicate 14 1) rfl rfl rfl rfl, by decide⟩
  obtain ⟨list, result, -, consistent⟩ := @getaddrinfo_families_iff enoughMemory webResults.tail
    (fun _ _ _ => (0, webResults.tail)) none none (some ⟨0, 2, 1, 0⟩) (fun _ => ⟨rfl, rfl, rfl⟩) rfl
    (by decide) (fun p mem => (v4 p mem).1)
  refine ⟨list, result, (consistent.mpr ⟨fun p mem => (v4 p mem).2, ?_⟩).1⟩
  intro h given
  obtain rfl := Option.some.inj given
  decide

/-- A hint for IPv6 reaches the C library as family 30; without hints a node of IPv6 keeps the family 10. -/
theorem getaddrinfo_families_mixed :
    (linuxHints ⟨0, 30, 1, 0⟩).family = 30 ∧ ¬HintKept (some ⟨0, 30, 1, 0⟩) ∧
      ∃ v6 v4, macifyGetaddrinfo true (fun _ _ _ => (0, webResults)) enoughMemory none none none =
          (0, [v6, v4]) ∧
        v6.family = 10 ∧ (v6.addr.map fun b => byte b 1) = some 30 ∧
        ¬List.Forall₂ ConsistentNode webResults [v6, v4] := by
  refine ⟨rfl, fun kept => absurd (kept _ rfl rfl) (by decide), macosNode enoughMemory 0 webResults[0],
    macosNode enoughMemory 1 webResults[1], rfl, rfl, rfl, fun consistent => ?_⟩
  have first := (List.forall₂_cons.mp consistent).1.family
  exact absurd first (by decide)

end Families

end Macify.Shim
