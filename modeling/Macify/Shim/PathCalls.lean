import Macify.Lib.Interaction
import Macify.Paths.Translate
import Macify.Syscall.FlagTranslation

/-!
# Wrappers that take a path

The wrappers of `shim/io/file.c`, `shim/io/dirent.c`, `shim/io/process.c` and `shim/io/attrlist.c` that hand a guest's
path to the C library. Most first ask `macify_should_hide_path` (`src/prefix.c`) whether the guest should not see it,
and translate it after that. `hidden_iff` says which calls keep such a path from the kernel.
-/

namespace Macify.Shim.Files
open Lib Image Paths
open Syscall (mapBits)

abbrev PATH_MAX : ℕ := 4096
abbrev ENOENT : W32 := 2
abbrev EINVAL : W32 := 22
abbrev ERANGE : W32 := 34

def hiddenDirs : List Buf :=
  [ascii ".config", ascii ".cache", ascii ".local", ascii ".pki", ascii ".gnupg"]

def shouldHidePath (home : Option Buf) (path : Buf) : Bool :=
  match home with
  | none => false
  | some home =>
    if home.isPrefixOf path ∧ (path.drop home.length).head? = some slash then
      hiddenDirs.any fun dir => inDir dir (path.drop (home.length + 1))
    else false

/-- A call of the C library; `times` says whether an array of times is given. -/
inductive FileRequest where
  | fstatat (dirfd : W32) (path : Option Buf) (flags : W32)
  | faccessat (dirfd : W32) (path : Option Buf) (mode flags : W32)
  | unlinkat (dirfd : W32) (path : Option Buf) (flags : W32)
  | linkat (fromfd : W32) (old : Option Buf) (tofd : W32) (new : Option Buf) (flags : W32)
  | symlinkat (target : Option Buf) (dirfd : W32) (linkpath : Option Buf)
  | readlinkat (dirfd : W32) (path : Option Buf) (bufsiz : ℕ)
  | utimensat (dirfd : W32) (path : Option Buf) (times : Bool) (flags : W32)
  | mkdir (path : Option Buf) (mode : W32)
  | rename (old new : Option Buf)
  | rmdir (path : Option Buf)
  | chdir (path : Option Buf)
  | opendir (name : Option Buf)
  | openat (dirfd : W32) (path : Option Buf) (flags : W32)
  | fdopendir (fd : W32)
  | close (fd : W32)
  | fopen (path : Option Buf) (mode : Buf)
  | stat (path : Option Buf)
  | lstat (path : Option Buf)
  deriving DecidableEq

def FileRequest.paths : FileRequest → List (Option Buf)
  | fstatat _ path _ | faccessat _ path _ _ | unlinkat _ path _ | readlinkat _ path _ | utimensat _ path _ _
  | mkdir path _ | rmdir path | chdir path | opendir path | openat _ path _ | fopen path _ | stat path
  | lstat path => [path]
  | linkat _ old _ new _ => [old, new]
  | symlinkat target _ linkpath => [target, linkpath]
  | rename old new => [old, new]
  | fdopendir _ | close _ => []

structure FileReply where
  ret : W64
  errno : W32
  deriving DecidableEq

abbrev FileScript := Script FileRequest FileReply

/-- The settings of the paths, whether the guest's code has called, and `errno` before the call. -/
structure FileEnv where
  paths : PathEnv
  isMacos : Bool
  errno : W32

def FileEnv.eff (env : FileEnv) (path : Option Buf) : Option Buf :=
  path.map fun path => kernelPath env.paths path PATH_MAX

def FileEnv.hides (env : FileEnv) (path : Option Buf) : Bool := path.any (shouldHidePath env.paths.home)

def FileEnv.checked {α : Type} (env : FileEnv) (path : Option Buf) (hidden : α) (next : Option Buf → α) : α :=
  if env.hides path then hidden else next (env.eff path)

def notFound (failure : W64) : FileScript := .done ⟨failure, ENOENT⟩

def linuxDirfd (dirfd : W32) : W32 := if dirfd = -2 then -100 else dirfd

section Wrappers

variable (env : FileEnv)

def fstatat (dirfd : W32) (path : Option Buf) (flags : W32) : FileScript :=
  if !env.isMacos then .pass (.fstatat dirfd path flags)
  else
    env.checked path (notFound (-1)) fun eff =>
      .call (.fstatat (linuxDirfd dirfd) eff (mapBits flags [(0x01, 0x200), (0x20, 0x100), (0x80, 0x200)] 0))
        fun r => .done (if r.ret = 0 then ⟨r.ret, 0⟩ else r)

def faccessat (dirfd : W32) (path : Option Buf) (mode flags : W32) : FileScript :=
  if !env.isMacos then .pass (.faccessat dirfd path mode flags)
  else
    env.checked path (notFound (-1)) fun eff =>
      .pass (.faccessat (linuxDirfd dirfd) eff mode (mapBits flags [(0x0010, 0x0200)] 0))

def unlinkat (dirfd : W32) (path : Option Buf) (flags : W32) : FileScript :=
  if !env.isMacos then .pass (.unlinkat dirfd path flags)
  else
    env.checked path (notFound (-1)) fun eff =>
      .pass (.unlinkat (linuxDirfd dirfd) eff (mapBits flags [(0x0200, 0x0100)] 0))

def linkat (fromfd : W32) (old : Option Buf) (tofd : W32) (new : Option Buf) (flags : W32) : FileScript :=
  if !env.isMacos then .pass (.linkat fromfd old tofd new flags)
  else
    .pass (.linkat (linuxDirfd fromfd) (env.eff old) (linuxDirfd tofd) (env.eff new)
      (mapBits flags [(0x0400, 0x0200)] 0))

def symlinkat (target : Option Buf) (dirfd : W32) (linkpath : Option Buf) : FileScript :=
  if !env.isMacos then .pass (.symlinkat target dirfd linkpath)
  else .pass (.symlinkat target (linuxDirfd dirfd) (env.eff linkpath))

def readlinkat (dirfd : W32) (path : Option Buf) (bufsiz : ℕ) : FileScript :=
  if !env.isMacos then .pass (.readlinkat dirfd path bufsiz)
  else env.checked path (notFound (-1)) fun eff => .pass (.readlinkat (linuxDirfd dirfd) eff bufsiz)

def utimensat (dirfd : W32) (path : Option Buf) (times : Bool) (flags : W32) : FileScript :=
  if !env.isMacos then .pass (.utimensat dirfd path times flags)
  else
    env.checked path (notFound (-1)) fun eff =>
      let linuxFlags := mapBits flags [(0x0200, 0x0100)] 0
      .call (.utimensat (linuxDirfd dirfd) eff times linuxFlags) fun r =>
        if r.ret.toInt < 0 ∧ r.errno = EINVAL then
          .pass (.utimensat (linuxDirfd dirfd) eff false linuxFlags)
        else .done r

def mkdir (path : Option Buf) (mode : W32) : FileScript :=
  env.checked path (notFound (-1)) fun eff => .pass (.mkdir eff mode)

def rename (old new : Option Buf) : FileScript := .pass (.rename (env.eff old) (env.eff new))

def rmdir (path : Option Buf) : FileScript := .pass (.rmdir (env.eff path))

def chdir (path : Option Buf) : FileScript := .pass (.chdir (env.eff path))

def opendir (name : Option Buf) : FileScript :=
  if !env.isMacos then .pass (.opendir name)
  else env.checked name (notFound 0) fun eff => .pass (.opendir eff)

/-- The name is not translated, whoever calls. -/
def opendirat (dirfd : W32) (name : Option Buf) : FileScript :=
  .call (.openat dirfd name 0x90000) fun fd =>
    if fd.ret.toInt < 0 then .done ⟨0, fd.errno⟩
    else
      .call (.fdopendir (fd.ret.setWidth 32)) fun dir =>
        if dir.ret = 0 then .call (.close (fd.ret.setWidth 32)) fun r => .done ⟨0, r.errno⟩ else .done dir

def hexDigit (c : UInt8) : Option UInt8 :=
  if 0x30 ≤ c ∧ c ≤ 0x39 then some (c - 0x30)
  else if 0x41 ≤ c ∧ c ≤ 0x46 then some (c - 0x37)
  else if 0x61 ≤ c ∧ c ≤ 0x66 then some (c - 0x57)
  else none

/-- Only one digit is allowed before the slash, so the code is never that of a letter. -/
def terminfoPath (path : Buf) : Option Buf :=
  match path.tails.findIdx? ((ascii "/terminfo/").isPrefixOf ·) with
  | none => none
  | some pos =>
    let hexStart := path.drop (pos + 10)
    if byte hexStart 1 = slash then
      match hexDigit (byte hexStart 0) with
      | none => none
      | some dir =>
        if 0x61 ≤ dir ∧ dir ≤ 0x7A then
          some (snprintf PATH_MAX (path.take (pos + 10) ++ dir :: hexStart.drop 2))
        else none
    else none

/-- The stream of the first call is lost if it succeeds. -/
def fopen (path : Option Buf) (mode : Buf) : FileScript :=
  match path with
  | none => .pass (.fopen none mode)
  | some _ =>
    env.checked path (notFound 0) fun eff =>
      .call (.fopen eff mode) fun fp =>
        match if fp.ret = 0 then eff.bind terminfoPath else none with
        | none => .pass (.fopen eff mode)
        | some alt =>
          .call (.fopen (some alt) mode) fun fp2 => if fp2.ret = 0 then .pass (.fopen eff mode) else .done fp2

structure AttrList where
  bitmapcount : BitVec 16
  commonattr : W32
  volattr : W32
  dirattr : W32
  fileattr : W32

abbrev ATTR_VOL_INFO : W32 := 0x80000000

def AttrList.valid (al : AttrList) : Bool :=
  al.bitmapcount = 5 && !(al.volattr &&& ~~~ATTR_VOL_INFO != 0 && al.volattr &&& ATTR_VOL_INFO = 0)

def align4 (n : ℕ) : ℕ := (n + 3) / 4 * 4

def fileName (path : Buf) : Buf := (path.reverse.takeWhile (· != slash)).reverse

def AttrList.sizes (al : AttrList) (path : Option Buf) : List ℕ :=
  let nl := min 255 (path.elim [] fileName).length
  let wanted (word : W32) (table : List (W32 × ℕ)) : List ℕ :=
    table.filterMap fun (bit, size) => if word &&& bit = 0 then none else some size
  wanted al.commonattr
      [(0x80000000, 20), (0x00000001, 8 + align4 (nl + 1)), (0x00000002, 8), (0x00000004, 8),
       (0x00000008, 4), (0x00000010, 4), (0x00000200, 16), (0x00000400, 16), (0x00000800, 16),
       (0x00001000, 16), (0x00004000, 32), (0x02000000, 4), (0x04000000, 4)] ++
    wanted al.volattr [(0x80000000, 4), (0x00020000, 32)] ++
    wanted al.dirattr [(0x00000001, 4), (0x00000002, 4)] ++
    wanted al.fileattr
      [(0x00000001, 4), (0x00000002, 8), (0x00000004, 8), (0x00000008, 4), (0x00000020, 8),
       (0x00000200, 8)]

/-- The packed size, or `none` where `NEED` fails; without a buffer nothing is checked. -/
def packedSize (bufsize : ℕ) (sizes : List ℕ) : Option ℕ :=
  sizes.foldlM (fun off n => if bufsize ≠ 0 ∧ bufsize - off < n then none else some (off + n)) 4

def attrlistFill (al : AttrList) (path : Option Buf) (nofollow : Bool) (bufsize : Option ℕ) : FileScript :=
  .call (if nofollow then .lstat path else .stat path) fun st =>
    if st.ret ≠ 0 then .done ⟨-1, st.errno⟩
    else
      match packedSize (bufsize.getD 0) (al.sizes path) with
      | none => .done ⟨-1, ERANGE⟩
      | some _ => .done ⟨0, if bufsize.isSome then 0 else st.errno⟩

/-- `bufsize` is `none` where no buffer is given. The path is translated before it is checked. -/
def getattrlist (path : Option Buf) (alist : Option AttrList) (bufsize : Option ℕ) (options : W64) : FileScript :=
  if !env.isMacos then .done ⟨-1, env.errno⟩
  else
    match alist with
    | none => .done ⟨-1, EINVAL⟩
    | some al =>
      if !al.valid then .done ⟨-1, EINVAL⟩
      else if env.hides (env.eff path) then .done ⟨-1, ENOENT⟩
      else if bufsize.any (· < 4) then .done ⟨-1, EINVAL⟩
      else attrlistFill al (env.eff path) (options &&& 1 != 0) bufsize

end Wrappers

inductive PathCall where
  | fstatat (dirfd : W32) (path : Option Buf) (flags : W32)
  | faccessat (dirfd : W32) (path : Option Buf) (mode flags : W32)
  | unlinkat (dirfd : W32) (path : Option Buf) (flags : W32)
  | linkat (fromfd : W32) (old : Option Buf) (tofd : W32) (new : Option Buf) (flags : W32)
  | symlinkat (target : Option Buf) (dirfd : W32) (linkpath : Option Buf)
  | readlinkat (dirfd : W32) (path : Option Buf) (bufsiz : ℕ)
  | utimensat (dirfd : W32) (path : Option Buf) (times : Bool) (flags : W32)
  | mkdir (path : Option Buf) (mode : W32)
  | rename (old new : Option Buf)
  | rmdir (path : Option Buf)
  | chdir (path : Option Buf)
  | opendir (name : Option Buf)
  | opendirat (dirfd : W32) (name : Option Buf)
  | fopen (path : Option Buf) (mode : Buf)
  | getattrlist (path : Option Buf) (alist : Option AttrList) (bufsize : Option ℕ) (options : W64)

namespace PathCall

def paths : PathCall → List (Option Buf)
  | fstatat _ path _ | faccessat _ path _ _ | unlinkat _ path _ | readlinkat _ path _ | utimensat _ path _ _
  | mkdir path _ | rmdir path | chdir path | opendir path | opendirat _ path | fopen path _
  | getattrlist path _ _ _ => [path]
  | linkat _ old _ new _ => [old, new]
  | symlinkat target _ linkpath => [target, linkpath]
  | rename old new => [old, new]

def script (env : FileEnv) : PathCall → FileScript
  | fstatat dirfd path flags => Files.fstatat env dirfd path flags
  | faccessat dirfd path mode flags => Files.faccessat env dirfd path mode flags
  | unlinkat dirfd path flags => Files.unlinkat env dirfd path flags
  | linkat fromfd old tofd new flags => Files.linkat env fromfd old tofd new flags
  | symlinkat target dirfd linkpath => Files.symlinkat env target dirfd linkpath
  | readlinkat dirfd path bufsiz => Files.readlinkat env dirfd path bufsiz
  | utimensat dirfd path times flags => Files.utimensat env dirfd path times flags
  | mkdir path mode => Files.mkdir env path mode
  | rename old new => Files.rename env old new
  | rmdir path => Files.rmdir env path
  | chdir path => Files.chdir env path
  | opendir name => Files.opendir env name
  | opendirat dirfd name => Files.opendirat dirfd name
  | fopen path mode => Files.fopen env path mode
  | getattrlist path alist bufsize options => Files.getattrlist env path alist bufsize options

def failure : PathCall → W64
  | opendir _ | opendirat _ _ | fopen _ _ => 0
  | _ => -1

/-- The call fails as for a file that is not there, and the kernel gets neither the path nor its translation. -/
def Hides (env : FileEnv) (call : PathCall) (path : Buf) : Prop :=
  ∀ libc : List FileRequest → FileReply,
    ((call.script env).run libc []).2 = ⟨call.failure, ENOENT⟩ ∧
      ∀ request ∈ ((call.script env).run libc []).1,
        some path ∉ request.paths ∧ env.eff (some path) ∉ request.paths

/-- For `getattrlist` the list of attributes has to be well formed, and the translation of the path hidden as well. -/
def Checks (env : FileEnv) : PathCall → Prop
  | fstatat .. | faccessat .. | unlinkat .. | readlinkat .. | utimensat .. | mkdir .. | opendir ..
  | fopen .. => True
  | linkat .. | symlinkat .. | rename .. | rmdir .. | chdir .. | opendirat .. => False
  | getattrlist path alist _ _ => alist.any (·.valid) = true ∧ env.hides (env.eff path) = true

end PathCall

section Hidden

variable {env : FileEnv} {call : PathCall} {path : Buf}

lemma hides_of_done (ends : call.script env = .done ⟨call.failure, ENOENT⟩) : call.Hides env path := by
  intro libc
  rw [ends]
  exact ⟨rfl, nofun⟩

lemma not_hides_of_call {request : FileRequest} {next : FileReply → FileScript}
    (begins : call.script env = .call request next)
    (given : some path ∈ request.paths ∨ env.eff (some path) ∈ request.paths) : ¬call.Hides env path := by
  intro hides
  obtain ⟨raw, translated⟩ := (hides fun _ => ⟨0, 0⟩).2 request (begins ▸ Script.mem_run_call)
  exact given.elim raw translated

lemma not_hides_of_errno {reply : FileReply} (ends : call.script env = .done reply)
    (other : reply.errno ≠ ENOENT) : ¬call.Hides env path := by
  intro hides
  have ret := (hides fun _ => ⟨0, 0⟩).1
  rw [ends] at ret
  exact other (congrArg FileReply.errno ret)

lemma checked_hidden {α : Type} {reply : α} {next : Option Buf → α}
    (hidden : shouldHidePath env.paths.home path = true) :
    env.checked (some path) reply next = reply := if_pos hidden

lemma getattrlist_hides_iff (guest : env.isMacos = true) {alist : Option AttrList} {bufsize : Option ℕ}
    {options : W64} :
    (PathCall.getattrlist (some path) alist bufsize options).Hides env path ↔
      alist.any (·.valid) = true ∧ env.hides (env.eff (some path)) = true := by
  have begins : (PathCall.getattrlist (some path) alist bufsize options).script env =
      getattrlist env (some path) alist bufsize options := rfl
  rw [getattrlist.eq_def, guest, if_neg (by decide)] at begins
  cases alist with
  | none => exact iff_of_false (not_hides_of_errno begins (by decide)) fun met => nomatch met.1
  | some al =>
    dsimp only at begins
    rw [Option.any_some]
    by_cases valid : al.valid = true
    · rw [valid, if_neg (by decide)] at begins
      by_cases hidden : env.hides (env.eff (some path)) = true
      · rw [if_pos hidden] at begins
        exact iff_of_true (hides_of_done begins) ⟨valid, hidden⟩
      · rw [if_neg hidden] at begins
        refine iff_of_false ?_ fun met => hidden met.2
        split at begins
        · exact not_hides_of_errno begins (by decide)
        · refine not_hides_of_call begins (.inr ?_)
          cases options &&& 1 != 0 <;> exact List.mem_cons_self
    · rw [Bool.not_eq_true] at valid
      rw [valid, if_pos (by decide)] at begins
      rw [valid]
      exact iff_of_false (not_hides_of_errno begins (by decide)) fun met => Bool.false_ne_true met.1

/-- For every path that should be hidden, every wrapper and every place of the path among its arguments. -/
theorem hidden_iff (guest : env.isMacos = true)
    (hidden : shouldHidePath env.paths.home path = true) (given : some path ∈ call.paths) :
    call.Hides env path ↔ call.Checks env := by
  have macos : ¬(!env.isMacos) = true := by rw [guest]; exact Bool.false_ne_true
  cases call with
  | fstatat _ p | faccessat _ p | unlinkat _ p | readlinkat _ p | utimensat _ p | opendir p =>
    obtain rfl := List.mem_singleton.mp given
    exact iff_of_true (hides_of_done ((if_neg macos).trans (checked_hidden hidden))) trivial
  | mkdir p | fopen p =>
    obtain rfl := List.mem_singleton.mp given
    exact iff_of_true (hides_of_done (if_pos hidden)) trivial
  | linkat fromfd old tofd new flags =>
    refine iff_of_false (not_hides_of_call (if_neg macos) (.inr ?_)) id
    rcases List.mem_pair.mp given with rfl | rfl
    · exact List.mem_cons_self
    · exact List.mem_cons_of_mem _ List.mem_cons_self
  | symlinkat target dirfd linkpath =>
    refine iff_of_false (not_hides_of_call (if_neg macos) ?_) id
    rcases List.mem_pair.mp given with rfl | rfl
    · exact .inl List.mem_cons_self
    · exact .inr (List.mem_cons_of_mem _ List.mem_cons_self)
  | rename old new =>
    refine iff_of_false (not_hides_of_call rfl (.inr ?_)) id
    rcases List.mem_pair.mp given with rfl | rfl
    · exact List.mem_cons_self
    · exact List.mem_cons_of_mem _ List.mem_cons_self
  | rmdir p | chdir p =>
    obtain rfl := List.mem_singleton.mp given
    exact iff_of_false (not_hides_of_call rfl (.inr List.mem_cons_self)) id
  | opendirat dirfd p =>
    obtain rfl := List.mem_singleton.mp given
    exact iff_of_false (not_hides_of_call rfl (.inl List.mem_cons_self)) id
  | getattrlist p alist bufsize options =>
    obtain rfl := List.mem_singleton.mp given
    exact getattrlist_hides_iff guest

def defaultFileEnv : FileEnv := ⟨⟨false, some (ascii "/home/u"), ascii "/home/u/.macify"⟩, true, 0⟩

theorem hidden_iff_fstatat :
    (PathCall.fstatat (-2) (some (ascii "/home/u/.config/bat")) 0).Hides defaultFileEnv
      (ascii "/home/u/.config/bat") :=
  (@hidden_iff defaultFileEnv _ (ascii "/home/u/.config/bat") rfl (by decide +kernel)
    List.mem_cons_self).mpr trivial

/-- A hidden file is renamed, a hidden name is given to a link, and `opendirat` opens the directory of the host. -/
theorem hidden_paths_reached :
    let path := ascii "/home/u/.config"
    shouldHidePath (some (ascii "/home/u")) path = true ∧
      (PathCall.rename (some path) (some (ascii "/x"))).script defaultFileEnv =
        .pass (.rename (some (ascii "/home/u/.macify/home/u/.config")) (some (ascii "/home/u/.macify/x"))) ∧
      ¬(PathCall.rename (some path) (some (ascii "/x"))).Hides defaultFileEnv path ∧
      ¬(PathCall.symlinkat (some path) (-2) (some (ascii "/x"))).Hides defaultFileEnv path ∧
      ¬(PathCall.opendirat (-2) (some path)).Hides defaultFileEnv path := by
  have path_eff : defaultFileEnv.eff (some (ascii "/home/u/.config")) =
      some (ascii "/home/u/.macify/home/u/.config") := by decide +kernel
  have new_eff : defaultFileEnv.eff (some (ascii "/x")) = some (ascii "/home/u/.macify/x") := by
    decide +kernel
  refine ⟨by decide +kernel, ?_, ?_, ?_, ?_⟩
  · rw [← path_eff, ← new_eff]
    rfl
  · exact not_hides_of_call rfl (.inr List.mem_cons_self)
  · exact not_hides_of_call rfl (.inl List.mem_cons_self)
  · exact not_hides_of_call rfl (.inl List.mem_cons_self)

end Hidden

def FileEnv.target (env : FileEnv) (path : Option Buf) : Option (Option Buf) :=
  env.checked path none some

def successes (made : List (FileRequest × FileReply)) : List (FileRequest × FileReply) :=
  made.filter fun call => call.2.ret ≠ 0

/-- `fopen` returns the only stream that was opened, and one if the path can be opened at the start. -/
def OpensOnce (libc : List FileRequest → FileReply) (env : FileEnv) (path : Option Buf) (mode : Buf) : Prop :=
  let call := fopen env path mode
  let result := (call.run libc []).2
  (result.ret ≠ 0 → ∃ request, successes (call.transcript libc []) = [(request, result)]) ∧
    ∀ eff, env.target path = some eff → (libc [.fopen eff mode]).ret ≠ 0 → result.ret ≠ 0

section Streams

variable {libc : List FileRequest → FileReply} {seen : List FileRequest} {request : FileRequest}
  {reply : FileReply} {made : List (FileRequest × FileReply)} {env : FileEnv} {path : Buf} {mode : Buf}

lemma successes_opened (opened : reply.ret ≠ 0) :
    successes ((request, reply) :: made) = (request, reply) :: successes made :=
  List.filter_cons_of_pos (decide_eq_true opened)

lemma successes_failed (failed : reply.ret = 0) : successes ((request, reply) :: made) = successes made :=
  List.filter_cons_of_neg fun opened => of_decide_eq_true opened failed

lemma successes_pass (opened : ((Script.pass request).run libc seen).2.ret ≠ 0) :
    successes ((Script.pass request).transcript libc seen) =
      [(request, ((Script.pass request).run libc seen).2)] :=
  successes_opened opened

lemma not_opensOnce (visible : env.hides (some path) = false)
    (opened : (libc [.fopen (env.eff (some path)) mode]).ret ≠ 0) :
    ¬OpensOnce libc env (some path) mode := by
  have shown : ¬env.hides (some path) = true := by rw [visible]; exact Bool.false_ne_true
  rw [OpensOnce, fopen, FileEnv.target, FileEnv.checked, FileEnv.checked, if_neg shown, if_neg shown]
  simp only [Script.run, Script.transcript, List.nil_append, if_neg opened]
  rintro ⟨only, succeeds⟩
  have again := succeeds _ rfl opened
  obtain ⟨request, alone⟩ := only again
  rw [successes_opened opened, successes_pass again] at alone
  exact List.cons_ne_nil _ _ (List.cons.inj alone).2

lemma opensOnce_of_failed (failed : (libc [.fopen (env.eff (some path)) mode]).ret = 0) :
    OpensOnce libc env (some path) mode := by
  by_cases hidden : env.hides (some path) = true
  · rw [OpensOnce, fopen, FileEnv.target, FileEnv.checked, FileEnv.checked, if_pos hidden, if_pos hidden]
    exact ⟨fun opened => absurd rfl opened, nofun⟩
  · rw [OpensOnce, fopen, FileEnv.target, FileEnv.checked, FileEnv.checked, if_neg hidden, if_neg hidden]
    simp only [Script.run, Script.transcript, List.nil_append, if_pos failed]
    refine ⟨?_, fun eff found opened => ?_⟩
    · rw [successes_failed failed]
      cases (env.eff (some path)).bind terminfoPath with
      | none => exact fun opened => ⟨_, successes_pass opened⟩
      | some alt =>
        simp only [Script.run, Script.transcript]
        split
        case isTrue again =>
          rw [successes_failed again]
          exact fun opened => ⟨_, successes_pass opened⟩
        case isFalse found => exact fun opened => ⟨_, successes_opened opened⟩
    · obtain rfl := Option.some.inj found
      exact absurd failed opened

/-- For every path, mode and behaviour of the C library, exclusive modes included. -/
theorem fopen_opens_once_iff (path : Option Buf) :
    OpensOnce libc env path mode ↔
      path = none ∨ env.hides path = true ∨ (libc [.fopen (env.eff path) mode]).ret = 0 := by
  cases path with
  | none =>
    refine iff_of_true ⟨fun opened => ⟨_, successes_pass opened⟩, fun eff target opened => ?_⟩ (.inl rfl)
    obtain rfl : none = eff := Option.some.inj target
    exact opened
  | some path =>
    constructor
    · intro once
      by_contra other
      obtain ⟨-, shown, opened⟩ : some path ≠ none ∧ _ := by push Not at other; exact other
      exact not_opensOnce (Bool.eq_false_of_not_eq_true shown) opened once
    · rintro (missing | hidden | failed)
      · exact nomatch missing
      · rw [OpensOnce, fopen, FileEnv.target, FileEnv.checked, FileEnv.checked, if_pos hidden, if_pos hidden]
        exact ⟨fun opened => absurd rfl opened, nofun⟩
      · exact opensOnce_of_failed failed

/-- Files are created: a path that was opened before is there, so that it cannot be created again. -/
def creating (made : List FileRequest) : FileReply :=
  if made.dropLast.contains (made.getLastD (.close 0)) then ⟨0, 17⟩ else ⟨0x1000, 0⟩

/-- A new file is created and the call fails, as the file exists; reading leaves a second stream open. -/
theorem fopen_opens_twice :
    ¬OpensOnce creating defaultFileEnv (some (ascii "/tmp/new")) (ascii "wx") ∧
      ((fopen defaultFileEnv (some (ascii "/tmp/new")) (ascii "wx")).run creating []).2 = ⟨0, 17⟩ ∧
      ¬OpensOnce (fun made => ⟨0x1000 * made.length, 0⟩) defaultFileEnv (some (ascii "/etc/hosts"))
        (ascii "r") := by
  have visible : ∀ name ∈ [ascii "/tmp/new", ascii "/etc/hosts"], defaultFileEnv.hides (some name) = false := by
    decide +kernel
  refine ⟨not_opensOnce (visible _ List.mem_cons_self) (by decide +kernel), by decide +kernel, ?_⟩
  exact not_opensOnce (visible _ (List.mem_cons_of_mem _ List.mem_cons_self)) (by decide +kernel)

end Streams

end Macify.Shim.Files
