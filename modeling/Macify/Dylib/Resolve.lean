import Macify.Dylib.Load

/-!
# Symbol resolution

Model of `resolve_symbol` (`src/segments.c`) and of `macho_dylib_lookup` (`src/macho_dylib.c`). A name is looked up
in the exports of the loaded dylibs and, with `dlsym`, in Linux libraries, of which the shim is the first. Some
names have to go to the shim: the branch for a library index looks at their list before it looks at the dylibs,
the branch for the flat namespace never does.
-/

namespace Macify.Dylib
open Lib Image

structure LoadedDylib where
  handle : W64
  libcHandle : W64
  libmHandle : W64

/-- What the resolver reads: `g_dylibs`, `g_extra_handles`, `g_macho_dylibs`, `dlsym`, and what a call
    of a function at an address returns for a name. -/
structure ResolveEnv where
  dylibs : List LoadedDylib
  extraHandles : List W64
  machoDylibs : List DylibEntry
  dlsym : W64 → Buf → W64
  call : W64 → Buf → W64

abbrev RTLD_DEFAULT : W64 := 0

def orElse (addr other : W64) : W64 := if addr = 0 then other else addr

def firstHit {α : Type} (f : α → W64) : List α → W64
  | [] => 0
  | x :: xs => orElse (f x) (firstHit f xs)

def exported (dylibs : List DylibEntry) (name : Buf) : Option Export :=
  (dylibs.flatMap DylibEntry.exports).find? fun e => e.name == name

/-- `macho_dylib_lookup`: a name is tried as it is, at the same time without its underscore, and then
    with an underscore if it has none. -/
def machoDylibLookup (dylibs : List DylibEntry) (sym : Buf) : W64 :=
  match (dylibs.flatMap DylibEntry.exports).find? fun e =>
    e.name == sym || (sym.head? == some 0x5F && e.name == sym.tail) with
  | some e => e.addr
  | none =>
    if sym.head? ≠ some 0x5F ∧ sym.length < 255 then
      match exported dylibs (0x5F :: sym) with
      | some e => e.addr
      | none => 0
    else 0

def dlsymIn (env : ResolveEnv) (handle : W64) (sym : Buf) : W64 :=
  if handle = 0 then 0 else env.dlsym handle sym

def searchDylib (env : ResolveEnv) (sym : Buf) (dy : LoadedDylib) : W64 :=
  orElse (env.dlsym dy.handle sym) <|
  orElse (dlsymIn env dy.libcHandle sym) (dlsymIn env dy.libmHandle sym)

def searchExtra (env : ResolveEnv) (sym : Buf) : W64 :=
  firstHit (env.dlsym · sym) env.extraHandles

/-- The name without its `$`-suffix, if it has one in the first 255 bytes. -/
def dollarBase (sym : Buf) : Option Buf :=
  let base := sym.take 255
  if 0x24 ∈ base then some (base.takeWhile (· != 0x24)) else none

def withBase (f : Buf → W64) (sym : Buf) : W64 := ((dollarBase sym).map f).getD 0

def shimHandle (env : ResolveEnv) : W64 := (env.dylibs.head?.map LoadedDylib.handle).getD 0

/-- Two names are bound to wrappers that the shim exports under other names. -/
def addrinfoWrapper (env : ResolveEnv) (sym : Buf) : W64 :=
  if sym = ascii "getaddrinfo" then dlsymIn env (shimHandle env) (ascii "macify_getaddrinfo")
  else if sym = ascii "freeaddrinfo" then dlsymIn env (shimHandle env) (ascii "macify_freeaddrinfo")
  else 0

def searchFlat (env : ResolveEnv) (sym : Buf) : W64 :=
  orElse (machoDylibLookup env.machoDylibs sym) <|
  orElse (firstHit (searchDylib env sym) env.dylibs) <|
  orElse (searchExtra env sym) (env.dlsym RTLD_DEFAULT sym)

def resolveFlat (env : ResolveEnv) (sym : Buf) : W64 :=
  orElse (searchFlat env sym) (withBase (searchFlat env) sym)

def interposeSyms : List Buf :=
  ["execve", "execvp", "execvpe", "execv", "execl", "execle", "execlp", "posix_spawn", "posix_spawnp",
    "system", "popen", "regcomp", "regexec", "regfree", "regerror", "setlocale", "newlocale",
    "uselocale", "duplocale", "freelocale", "realpath$DARWIN_EXTSN", "stat$INODE64", "lstat$INODE64",
    "fstat$INODE64", "fstatat$INODE64", "opendir$INODE64", "CFStringCreateWithBytes",
    "CFStringCreateWithBytesNoCopy", "CFStringCreateWithCString", "CFStringCreateWithCStringNoCopy",
    "CFStringCreateMutableCopy", "CFStringNormalize", "CFStringGetLength", "CFStringGetBytes",
    "CFStringGetCString", "CFStringGetCStringPtr", "CFStringGetMaximumSizeForEncoding",
    "CFStringCompare", "CFStringCreateExternalRepresentation", "CFStringGetFastestEncoding",
    "CFStringGetSystemEncoding", "CFStringGetTypeID", "CFGetTypeID", "CFRelease", "CFRetain"].map ascii

def interposed (env : ResolveEnv) (sym : Buf) : W64 :=
  if interposeSyms.contains sym then dlsymIn env (shimHandle env) sym else 0

def shimOverride (env : ResolveEnv) (sym : Buf) : W64 :=
  let getShimSym := dlsymIn env (shimHandle env) (ascii "macify_get_shim_symbol")
  if getShimSym = 0 then 0
  else orElse (env.call getShimSym sym) (withBase (env.call getShimSym) sym)

def resolveTwoLevel (env : ResolveEnv) (dy : LoadedDylib) (sym : Buf) : W64 :=
  let inDylib (sym : Buf) := orElse (searchDylib env sym dy) (searchExtra env sym)
  -- the strong definition of a data symbol gives way to an interposed symbol only
  let strong := if sym = ascii "environ" ∨ sym = ascii "__environ" then env.dlsym RTLD_DEFAULT sym else 0
  orElse (interposed env sym) <|
  orElse strong <|
  orElse (machoDylibLookup env.machoDylibs sym) <|
  orElse (shimOverride env sym) <|
  orElse (inDylib sym) <|
  orElse (withBase (fun base => orElse (machoDylibLookup env.machoDylibs base) (inDylib base)) sym)
    (env.dlsym RTLD_DEFAULT sym)

def resolveSymbol (env : ResolveEnv) (ordinalIdx : ℤ) (sym : Buf) : W64 :=
  orElse (addrinfoWrapper env sym) <|
    if ordinalIdx = -1 then resolveFlat env sym
    else if ordinalIdx < 0 then 0
    else
      match env.dylibs[ordinalIdx.toNat]? with
      | none => 0
      | some dy => resolveTwoLevel env dy sym

@[simp] lemma orElse_zero {a : W64} : orElse 0 a = a := if_pos rfl

lemma orElse_of_ne {a b : W64} (ne : a ≠ 0) : orElse a b = a := if_neg ne

structure PlainName (sym : Buf) : Prop where
  head : sym.head? ≠ some 0x5F
  short : sym.length < 255
  addrinfo : sym ≠ ascii "getaddrinfo" ∧ sym ≠ ascii "freeaddrinfo"

lemma interposeSyms_plain {sym : Buf} (mem : sym ∈ interposeSyms) : PlainName sym := by
  have all : ∀ s ∈ interposeSyms, s.head? ≠ some 0x5F ∧ s.length < 255 ∧
      s ≠ ascii "getaddrinfo" ∧ s ≠ ascii "freeaddrinfo" := by decide +kernel
  obtain ⟨head, short, addrinfo⟩ := all sym mem
  exact ⟨head, short, addrinfo⟩

def exportFor (dylibs : List DylibEntry) (sym : Buf) : Option Export :=
  (exported dylibs sym).or (exported dylibs (0x5F :: sym))

lemma machoDylibLookup_plain {dylibs : List DylibEntry} {sym : Buf} (plain : PlainName sym) :
    machoDylibLookup dylibs sym = ((exportFor dylibs sym).map Export.addr).getD 0 := by
  have pred : (fun e : Export => e.name == sym || (sym.head? == some 0x5F && e.name == sym.tail)) =
      fun e => e.name == sym := by
    funext e
    rw [beq_eq_false_iff_ne.mpr plain.head, Bool.false_and, Bool.or_false]
  rw [machoDylibLookup, pred, exportFor, ← exported]
  cases exported dylibs sym with
  | some e => rfl
  | none =>
    dsimp only
    rw [if_pos ⟨plain.head, plain.short⟩, Option.none_or]
    cases exported dylibs (0x5F :: sym) with
    | some e | none => rfl

section Interposed

variable {env : ResolveEnv} {shim : LoadedDylib} {others : List LoadedDylib} {sym : Buf}

lemma searchFlat_of_lookup (found : machoDylibLookup env.machoDylibs sym ≠ 0) :
    searchFlat env sym = machoDylibLookup env.machoDylibs sym := orElse_of_ne found

lemma searchFlat_of_shim (loaded : env.dylibs = shim :: others) (exports : env.dlsym shim.handle sym ≠ 0)
    (absent : machoDylibLookup env.machoDylibs sym = 0) :
    searchFlat env sym = env.dlsym shim.handle sym := by
  have inShim : searchDylib env sym shim = env.dlsym shim.handle sym := orElse_of_ne exports
  have first : firstHit (searchDylib env sym) env.dylibs = env.dlsym shim.handle sym := by
    rw [loaded, firstHit, inShim, orElse_of_ne exports]
  rw [searchFlat, absent, orElse_zero, first, orElse_of_ne exports]

lemma resolveTwoLevel_interposed (loaded : env.dylibs = shim :: others) (handle : shim.handle ≠ 0)
    (exports : env.dlsym shim.handle sym ≠ 0) (mem : sym ∈ interposeSyms) {dy} :
    resolveTwoLevel env dy sym = env.dlsym shim.handle sym := by
  have found : interposed env sym = env.dlsym shim.handle sym := by
    rw [interposed, if_pos (List.contains_iff_mem.mpr mem), shimHandle, loaded]
    exact if_neg handle
  rw [resolveTwoLevel]
  dsimp only
  rw [found, orElse_of_ne exports]

/-- Exactly when it is looked up in a library, or no Mach-O dylib exports it at another address. -/
theorem interposed_iff (loaded : env.dylibs = shim :: others) (handle : shim.handle ≠ 0)
    (mem : sym ∈ interposeSyms) (exports : env.dlsym shim.handle sym ≠ 0) {idx : ℤ} :
    resolveSymbol env idx sym = env.dlsym shim.handle sym ↔
      (0 ≤ idx ∧ idx < env.dylibs.length) ∨
      (idx = -1 ∧ ∀ e, exportFor env.machoDylibs sym = some e →
        e.addr = 0 ∨ e.addr = env.dlsym shim.handle sym) := by
  have plain := interposeSyms_plain mem
  have wrapper : addrinfoWrapper env sym = 0 := by
    rw [addrinfoWrapper, if_neg plain.addrinfo.1, if_neg plain.addrinfo.2]
  rw [resolveSymbol, wrapper, orElse_zero]
  split
  · next flat =>
    subst flat
    have lookup := @machoDylibLookup_plain env.machoDylibs sym plain
    rw [or_iff_right (by omega), and_iff_right rfl, resolveFlat]
    by_cases absent : machoDylibLookup env.machoDylibs sym = 0
    · rw [searchFlat_of_shim loaded exports absent, orElse_of_ne exports]
      refine iff_of_true rfl fun e first => ?_
      rw [first] at lookup
      exact .inl (lookup.symm.trans absent)
    · rw [searchFlat_of_lookup absent, orElse_of_ne absent, lookup]
      cases first : exportFor env.machoDylibs sym with
      | none =>
        rw [first] at lookup
        exact absurd lookup absent
      | some e =>
        rw [first] at lookup
        have ne : e.addr ≠ 0 := fun zero => absent (lookup.trans zero)
        simp only [Option.some.injEq, forall_eq', or_iff_right ne, Option.map_some, Option.getD_some]
  · next notFlat =>
    rw [or_iff_left (fun h => notFlat h.1)]
    split
    · next neg => exact iff_of_false exports.symm (by omega)
    · next nonneg =>
      cases dy : env.dylibs[idx.toNat]? with
      | none =>
        have := List.getElem?_eq_none_iff.mp dy
        exact iff_of_false exports.symm (by omega)
      | some dy' =>
        obtain ⟨lt, -⟩ := List.getElem?_eq_some_iff.mp dy
        exact iff_of_true (resolveTwoLevel_interposed loaded handle exports mem) (by omega)

end Interposed

def shimFirst (exports : List Export) : ResolveEnv where
  dylibs := [⟨1, 0, 0⟩]
  extraHandles := []
  machoDylibs := [⟨ascii "/a.dylib", ascii "/a.dylib", 0, exports⟩]
  dlsym handle sym := if handle = 1 ∧ sym = ascii "execve" then 0x5000 else 0
  call _ _ := 0

theorem interposed_iff_execve :
    ascii "execve" ∈ interposeSyms ∧ (shimFirst []).dlsym 1 (ascii "execve") ≠ 0 ∧
      resolveSymbol (shimFirst []) (-1) (ascii "execve") =
        (shimFirst []).dlsym 1 (ascii "execve") :=
  ⟨by decide +kernel, by decide +kernel,
    (@interposed_iff (shimFirst []) ⟨1, 0, 0⟩ [] _ rfl (by decide) (by decide +kernel)
      (by decide +kernel) (-1)).mpr (.inr ⟨rfl, fun _ h => by cases h⟩)⟩

/-- Through the first library `execve` goes to the shim, in the flat namespace to the dylib. -/
theorem interposed_missed :
    resolveSymbol (shimFirst [⟨ascii "execve", 0x7000⟩]) 0 (ascii "execve") = 0x5000 ∧
      resolveSymbol (shimFirst [⟨ascii "execve", 0x7000⟩]) (-1) (ascii "execve") = 0x7000 := by
  decide +kernel

end Macify.Dylib
