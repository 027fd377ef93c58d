import Macify.Shim.Wrappers

/-!
# Transparency for Linux callers

A Linux library that calls a name of the shim should get the C library: the same call, the same result,
the same memory. `transparent_iff` says for which calls it does. The wrappers that ask for the caller
first are transparent; the others renumber options, locale categories and clocks and rewrite socket
addresses for every caller.
-/

namespace Macify.Shim
open Lib

inductive Interposed where
  | setsockopt (sockfd level optname : W32) (optval : W64) (optlen : W32)
  | getsockopt (sockfd level optname : W32) (optval optlen : W64)
  | accept (sockfd : W32) (addr addrlen : W64)
  | getsockname (sockfd : W32) (addr addrlen : W64)
  | recvfrom (sockfd : W32) (buf len : W64) (flags : W32) (srcAddr addrlen : W64)
  | setlocale (category : W32) (locale : W64)
  | clockGettime (clkId : W32) (tp : W64)
  | sigaction (signum : W32) (act oldact : W64)
  | sigprocmask (how : W32) (set oldset : W64)
  | fcntl (fd cmd : W32) (arg : W64)

namespace Interposed

def request : Interposed → Request
  | setsockopt sockfd level optname optval optlen => .setsockopt sockfd level optname optval optlen
  | getsockopt sockfd level optname optval optlen => .getsockopt sockfd level optname optval optlen
  | accept sockfd addr addrlen => .accept sockfd addr addrlen
  | getsockname sockfd addr addrlen => .getsockname sockfd addr addrlen
  | recvfrom sockfd buf len flags srcAddr addrlen => .recvfrom sockfd buf len flags srcAddr addrlen
  | setlocale category locale => .setlocale category locale
  | clockGettime clkId tp => .clockGettime clkId tp
  | sigaction signum act oldact => .sigaction signum act oldact
  | sigprocmask how set oldset => .sigprocmask how set oldset
  | fcntl fd cmd arg => .fcntl fd cmd (some arg)

def plan (env : Env) (guest : Plan) (s : State) : Interposed → Plan
  | setsockopt sockfd level optname optval optlen =>
    Shim.setsockopt env sockfd level optname optval optlen s
  | getsockopt sockfd level optname optval optlen =>
    Shim.getsockopt env sockfd level optname optval optlen s
  | accept sockfd addr addrlen => Shim.accept env sockfd addr addrlen s
  | getsockname sockfd addr addrlen => Shim.getsockname env sockfd addr addrlen s
  | recvfrom sockfd buf len flags srcAddr addrlen =>
    Shim.recvfrom env sockfd buf len flags srcAddr addrlen s
  | setlocale category locale => Shim.setlocale env category locale s
  | clockGettime clkId tp => Shim.clockGettime env clkId tp s
  | sigaction signum act oldact => Shim.sigaction env guest signum act oldact s
  | sigprocmask how set oldset => Shim.sigprocmask env guest how set oldset s
  | fcntl fd cmd arg => Shim.fcntl env fd cmd arg s

end Interposed

def Plan.Transparent (lib : Libc) (request : Request) (s : State) : Plan → Prop
  | call request' s' after => request' = request ∧ s' = s ∧ after (lib request s) = lib request s
  | done _ => False
  | fault => False

def macosOptnames : List W32 :=
  [0x4, 0x8, 0x10, 0x20, 0x80, 0x100, 0x200, 0x1001, 0x1002, 0x1003, 0x1004, 0x1005, 0x1006, 0x1007, 0x1008,
   0x1016, SO_NOSIGPIPE]

def OptionKept (level optname : W32) : Prop :=
  level ≠ 0xFFFF ∧ (level = SOL_SOCKET → macosOptnames.contains optname = false)

/-- There is no address in the reply, or its first two bytes happen to be right for macOS. -/
def SockaddrKept (addr addrlen : W64) (m : Mem) : Prop :=
  addr = 0 ∨ addrlen = 0 ∨ (m.read32 addrlen).toNat < 2 ∨
    m addr = UInt8.ofNat (m.read32 addrlen).toNat ∧ m (addr + 1) = macosFamily (m addr)

/-- The calls that no translation applies to; `reply` is what the C library answers. -/
def Interposed.Untouched (reply : Reply) : Interposed → Prop
  | setsockopt _ level optname _ _ => OptionKept level optname ∧
      ¬(reply.ret = -1 ∧ (reply.state.errno = 92 ∨ reply.state.errno = 22))
  | getsockopt _ level optname _ _ => OptionKept level optname ∧
      ¬(reply.ret = -1 ∧ reply.state.errno = 92)
  | accept _ addr addrlen | getsockname _ addr addrlen =>
      (0 : W64).sle reply.ret → SockaddrKept addr addrlen reply.state.mem
  | recvfrom _ _ _ _ srcAddr addrlen =>
      reply.ret ≠ -1 → SockaddrKept srcAddr addrlen reply.state.mem
  | setlocale category _ => 7 ≤ category.toNat
  | clockGettime clkId _ => [6, 12, 16, 8].contains clkId.toNat = false
  | sigaction .. | sigprocmask .. | fcntl .. => True

section Wrappers

variable {env : Env} {lib : Libc} {s : State} {reply : Reply} {request request' : Request}

lemma call_transparent_iff {after : Reply → Reply} :
    (env.call request' s after).Transparent lib request s ↔
      env.found = true ∧ request' = request ∧ after (lib request s) = lib request s := by
  unfold Env.call
  cases env.found with
  | false => exact ⟨False.elim, fun h => Bool.false_ne_true h.1⟩
  | true => exact ⟨fun ⟨same, _, kept⟩ => ⟨rfl, same, kept⟩, fun ⟨_, same, kept⟩ => ⟨same, rfl, kept⟩⟩

lemma pass_transparent_iff : (Plan.pass request' s).Transparent lib request s ↔ request' = request :=
  ⟨fun h => h.1, fun h => ⟨h, rfl, rfl⟩⟩

lemma found_transparent_iff {other : Plan} (otherwise : ¬other.Transparent lib request s) :
    (if env.found then Plan.pass request' s else other).Transparent lib request s ↔
      env.found = true ∧ request' = request := by
  cases env.found with
  | false => exact iff_of_false otherwise fun h => Bool.false_ne_true h.1
  | true => exact pass_transparent_iff.trans (and_iff_right rfl).symm

lemma translateSolSocketOptname_eq_iff {optname : W32} :
    translateSolSocketOptname optname = optname ↔ macosOptnames.contains optname = false := by
  cases mem : macosOptnames.contains optname with
  | true =>
    have renumbered : macosOptnames.all (fun name => translateSolSocketOptname name != name) = true := by
      decide +kernel
    have ne := List.all_eq_true.mp renumbered optname (List.contains_iff_mem.mp mem)
    exact iff_of_false (bne_iff_ne.mp ne) nofun
  | false =>
    have ne (k : ℕ) (key : macosOptnames.contains (BitVec.ofNat 32 k) = true) : optname.toNat ≠ k := by
      rintro rfl
      rw [BitVec.ofNat_toNat, BitVec.setWidth_eq, mem] at key
      cases key
    refine iff_of_true ?_ rfl
    unfold translateSolSocketOptname
    split
    next one => exact (BitVec.eq_of_toNat_eq one).symm
    all_goals first | rfl | exact absurd ‹_› (ne _ (by decide))

lemma positive_of_renumbered {optname : W32} (pipe : optname ≠ SO_NOSIGPIPE)
    (ne : translateSolSocketOptname optname ≠ optname) :
    (0 : W32).slt (translateSolSocketOptname optname) = true := by
  have positive : macosOptnames.all (fun name => name == SO_NOSIGPIPE ||
      (0 : W32).slt (translateSolSocketOptname name)) = true := by decide +kernel
  have mem : macosOptnames.contains optname = true := by
    rwa [ne_eq, translateSolSocketOptname_eq_iff, Bool.not_eq_false] at ne
  have this := List.all_eq_true.mp positive optname (List.contains_iff_mem.mp mem)
  rwa [beq_eq_false_iff_ne.mpr pipe, Bool.false_or] at this

lemma optionKept_iff {level optname : W32} :
    (solLevel level = level ∧ (solLevel level = SOL_SOCKET → translateSolSocketOptname optname = optname)) ↔
      OptionKept level optname := by
  rw [translateSolSocketOptname_eq_iff, OptionKept, solLevel]
  by_cases macos : level = 0xFFFF
  · rw [if_pos macos]
    exact iff_of_false (fun h => absurd (h.1.trans macos) (by decide)) fun h => h.1 macos
  · rw [if_neg macos]
    exact and_congr_left' (iff_of_true rfl macos)

lemma not_optionKept {level optname : W32} (level_eq : solLevel level = SOL_SOCKET)
    (optname_eq : optname = SO_NOSIGPIPE) : ¬OptionKept level optname := by
  rw [← optionKept_iff, optname_eq]
  exact fun h => absurd (h.2 level_eq) (by decide)

lemma hidden_eq_iff {p : Prop} [Decidable p] (failed : p → reply.ret = -1) (linux : env.isMacos = false) :
    (if p then { reply with ret := 0 } else translateErrno env reply) = reply ↔ ¬p := by
  split
  next hidden =>
    refine iff_of_false (fun same => ?_) (not_not_intro hidden)
    have ret : 0 = reply.ret := congrArg Reply.ret same
    exact absurd (ret.trans (failed hidden)) (by decide)
  next shown => exact iff_of_true (translateErrno_linux linux) shown

lemma setsockopt_transparent_iff {sockfd level optname optval optlen} (linux : env.isMacos = false) :
    (setsockopt env sockfd level optname optval optlen s).Transparent lib
        (.setsockopt sockfd level optname optval optlen) s ↔
      env.found = true ∧ (Interposed.setsockopt sockfd level optname optval optlen).Untouched
        (lib (.setsockopt sockfd level optname optval optlen) s) := by
  unfold setsockopt
  dsimp only
  split
  next pipe => exact iff_of_false nofun fun h => not_optionKept pipe.1 pipe.2 h.2.1
  next pipe =>
    rw [call_transparent_iff, setsockoptAfter, hidden_eq_iff And.left linux, Interposed.Untouched, ← optionKept_iff]
    refine and_congr_right fun _ => and_congr_left' ?_
    simp only [Request.setsockopt.injEq, true_and, and_true]
    refine and_congr_right fun _ => ?_
    split
    next h => exact iff_of_false h.2.1 fun kept => h.2.1 (kept h.1)
    next h =>
      refine iff_of_true rfl fun sol => ?_
      by_contra ne
      exact h ⟨sol, ne, positive_of_renumbered (fun same => pipe ⟨sol, same⟩) ne⟩

lemma getsockopt_transparent_iff {sockfd level optname optval optlen} (linux : env.isMacos = false) :
    (getsockopt env sockfd level optname optval optlen s).Transparent lib
        (.getsockopt sockfd level optname optval optlen) s ↔
      env.found = true ∧ (Interposed.getsockopt sockfd level optname optval optlen).Untouched
        (lib (.getsockopt sockfd level optname optval optlen) s) := by
  unfold getsockopt
  dsimp only
  split
  next pipe =>
    refine iff_of_false (fun h => ?_) fun h => not_optionKept pipe.1 pipe.2 h.2.1
    split at h
    · exact h
    · exact h
  next pipe =>
    rw [call_transparent_iff, getsockoptAfter, hidden_eq_iff And.left linux, Interposed.Untouched, ← optionKept_iff]
    refine and_congr_right fun _ => and_congr_left' ?_
    simp only [Request.getsockopt.injEq, true_and, and_true, ite_eq_right_iff]

lemma store_eq_iff {m : Mem} {a : W64} {v0 v1 : UInt8} :
    m.store a [v0, v1] = m ↔ m a = v0 ∧ m (a + 1) = v1 := by
  have stored (x : W64) :
      m.store a [v0, v1] x = if x = a + 1 then v1 else if x = a then v0 else m x := rfl
  have ne : a ≠ a + 1 := by bv_omega
  constructor
  · intro same
    refine ⟨?_, ?_⟩
    · rw [← same, stored, if_neg ne, if_pos rfl]
    · rw [← same, stored, if_pos rfl]
  · rintro ⟨rfl, rfl⟩
    funext x
    rw [stored]
    split
    next eq => rw [eq]
    next =>
      split
      next eq => rw [eq]
      next => rfl

lemma convertSockaddr_eq_iff {addr addrlen : W64} :
    reply.convertSockaddr addr addrlen = reply ↔ SockaddrKept addr addrlen reply.state.mem := by
  unfold Reply.convertSockaddr SockaddrKept
  dsimp only
  split
  next given =>
    obtain ⟨addr_ne, addrlen_ne, le⟩ := given
    have short : ¬(addr = 0 ∨ (reply.state.mem.read32 addrlen).toNat < 2) := by
      rintro (eq | lt)
      · exact addr_ne eq
      · omega
    rw [linuxToMacosSockaddr, if_neg short, or_iff_right addr_ne, or_iff_right addrlen_ne,
      or_iff_right (Nat.not_lt.mpr le), ← store_eq_iff]
    exact ⟨fun same => congrArg (fun reply => reply.state.mem) same, fun same => by rw [same]⟩
  next missing =>
    refine iff_of_true rfl ?_
    by_contra none
    push Not at none
    exact missing ⟨none.1, none.2.1, none.2.2.1⟩

lemma acceptAfter_eq_iff {addr addrlen : W64} :
    acceptAfter addr addrlen reply = reply ↔
      ((0 : W64).sle reply.ret → SockaddrKept addr addrlen reply.state.mem) := by
  rw [← convertSockaddr_eq_iff, acceptAfter]
  split
  next ok => exact ⟨fun same _ => same, fun same => same ok⟩
  next failed => exact iff_of_true rfl fun ok => absurd ok failed

lemma recvfromAfter_eq_iff {srcAddr addrlen : W64} (linux : env.isMacos = false) :
    recvfromAfter env srcAddr addrlen reply = reply ↔
      (reply.ret ≠ -1 → SockaddrKept srcAddr addrlen reply.state.mem) := by
  rw [← convertSockaddr_eq_iff, recvfromAfter]
  split
  next failed => exact iff_of_true (translateErrno_linux linux) fun ok => absurd failed ok
  next ok => exact ⟨fun same _ => same, fun same => same ok⟩

lemma category_kept_iff {category : W32} :
    (if (macosToLinuxCategory category).slt 0 then category else macosToLinuxCategory category) = category ↔
      7 ≤ category.toNat := by
  by_cases lt : category.toNat < 7
  · refine word_rule lt ?_
    decide
  · have unknown : macosToLinuxCategory category = -1 := by
      unfold macosToLinuxCategory
      split
      all_goals first | rfl | omega
    rw [unknown]
    exact iff_of_true rfl (Nat.le_of_not_lt lt)

lemma linuxClock_eq_iff {clkId : W32} :
    linuxClock clkId = clkId ↔ [6, 12, 16, 8].contains clkId.toNat = false := by
  by_cases lt : clkId.toNat < 17
  · refine word_rule lt ?_
    decide
  · have other : linuxClock clkId = clkId := by
      unfold linuxClock
      split
      all_goals first | rfl | omega
    refine iff_of_true other ?_
    simp only [List.contains_cons, List.contains_nil, Bool.or_false, Bool.or_eq_false_iff, beq_eq_false_iff_ne]
    omega

end Wrappers

/-- A call from outside every range is transparent exactly when the function is found and no translation applies. -/
theorem transparent_iff {env : Env} {guest : Plan} {lib : Libc} {s : State} {c : Interposed}
    (out : ¬env.text.Registered env.retAddr) :
    (c.plan env guest s).Transparent lib c.request s ↔
      env.found = true ∧ c.Untouched (lib c.request s) := by
  have linux : env.isMacos = false := callerIsMacosText_of_not_registered out
  have notGuest := ne_true_of_eq_false linux
  cases c with
  | setsockopt => exact setsockopt_transparent_iff linux
  | getsockopt => exact getsockopt_transparent_iff linux
  | accept | getsockname =>
    refine call_transparent_iff.trans (and_congr_right fun _ => ?_)
    rw [acceptAfter_eq_iff]
    exact and_iff_right rfl
  | recvfrom =>
    refine call_transparent_iff.trans (and_congr_right fun _ => ?_)
    rw [recvfromAfter_eq_iff linux]
    exact and_iff_right rfl
  | setlocale category locale =>
    show (setlocale env category locale s).Transparent lib (.setlocale category locale) s ↔ _
    unfold setlocale
    rw [found_transparent_iff id, Request.setlocale.injEq, category_kept_iff, and_iff_left rfl]
    rfl
  | clockGettime clkId tp =>
    show (clockGettime env clkId tp s).Transparent lib (.clockGettime clkId tp) s ↔ _
    unfold clockGettime
    rw [found_transparent_iff id, Request.clockGettime.injEq, linuxClock_eq_iff, and_iff_left rfl]
    rfl
  | sigaction signum act oldact =>
    show (sigaction env guest signum act oldact s).Transparent lib (.sigaction signum act oldact) s ↔ _
    rw [sigaction, if_neg notGuest]
    refine (found_transparent_iff ?_).trans (and_congr_right fun _ => iff_of_true rfl trivial)
    rw [pass_transparent_iff]
    exact nofun
  | sigprocmask how set oldset =>
    show (sigprocmask env guest how set oldset s).Transparent lib (.sigprocmask how set oldset) s ↔ _
    rw [sigprocmask, if_neg notGuest]
    refine (found_transparent_iff ?_).trans (and_congr_right fun _ => iff_of_true rfl trivial)
    rw [pass_transparent_iff]
    exact nofun
  | fcntl fd cmd arg =>
    show (fcntl env fd cmd arg s).Transparent lib (.fcntl fd cmd (some arg)) s ↔ _
    rw [fcntl, if_neg notGuest, call_transparent_iff]
    exact and_congr_right fun _ => iff_of_true ⟨rfl, rfl⟩ trivial

def succeeding : Libc := fun request s =>
  match request with
  | .accept _ addr addrlen => ⟨5, { s with mem := (s.mem.store addr [2, 0]).write32 addrlen 16 }⟩
  | _ => ⟨0, s⟩

lemma smallEnv_out : ¬(smallEnv 0x9000).text.Registered 0x9000 := by
  rintro (text | ⟨range, mem, has⟩)
  · exact absurd text (by decide)
  · obtain rfl : range = ⟨0x1000, 0x2000⟩ := List.mem_singleton.mp mem
    exact absurd has (by decide)

theorem transparent_iff_fcntl :
    ((Interposed.fcntl 3 4 0x800).plan (smallEnv 0x9000) .fault emptyState).Transparent succeeding
      (.fcntl 3 4 (some 0x800)) emptyState :=
  (transparent_iff (c := .fcntl 3 4 0x800) smallEnv_out).mpr ⟨rfl, trivial⟩

/-- `SO_ERROR` becomes `SO_REUSEADDR`, `LC_ALL` `LC_MESSAGES`, the coarse clock the exact one, and a peer's
    family is overwritten. -/
theorem transparent_fails :
    ¬(smallEnv 0x9000).text.Registered 0x9000 ∧
    (Interposed.getsockopt 3 1 4 0x5000 0x5008).plan (smallEnv 0x9000) .fault emptyState =
      .call (.getsockopt 3 1 2 0x5000 0x5008) emptyState (getsockoptAfter (smallEnv 0x9000)) ∧
    (Interposed.setlocale 6 0).plan (smallEnv 0x9000) .fault emptyState =
      .pass (.setlocale 5 0) emptyState ∧
    (Interposed.clockGettime 6 0x5000).plan (smallEnv 0x9000) .fault emptyState =
      .pass (.clockGettime 1 0x5000) emptyState ∧
    ¬((Interposed.accept 3 0x5000 0x6000).plan (smallEnv 0x9000) .fault emptyState).Transparent succeeding
      (.accept 3 0x5000 0x6000) emptyState := by
  refine ⟨smallEnv_out, rfl, rfl, rfl, fun kept => ?_⟩
  have family : (acceptAfter 0x5000 0x6000 (succeeding (.accept 3 0x5000 0x6000) emptyState)).state.mem 0x5000 =
      (succeeding (.accept 3 0x5000 0x6000) emptyState).state.mem 0x5000 := by rw [kept.2.2]
  exact absurd family (by decide +kernel)

end Macify.Shim
