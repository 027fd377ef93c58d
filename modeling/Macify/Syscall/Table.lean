import Macify.Lib.Bytes
import Macify.Lib.Loop

/-!
# The syscall table

The designated initialisers of `bsd_to_linux` and `bsd_arg_flags` (`src/syscall/syscall_table.c`), by BSD syscall
number. An index that none names reads as `0`, which stands both for an unused slot and for `SYS_read`. All are
non-negative, so the `int16_t` of the source is a natural number here.
-/

namespace Macify.Syscall
open Lib

def bsdSyscallMax : ℕ := 600

abbrev SYS_read : ℕ := 0
abbrev SYS_write : ℕ := 1
abbrev SYS_open : ℕ := 2
abbrev SYS_close : ℕ := 3
abbrev SYS_poll : ℕ := 7
abbrev SYS_lseek : ℕ := 8
abbrev SYS_mmap : ℕ := 9
abbrev SYS_mprotect : ℕ := 10
abbrev SYS_munmap : ℕ := 11
abbrev SYS_rt_sigaction : ℕ := 13
abbrev SYS_rt_sigprocmask : ℕ := 14
abbrev SYS_ioctl : ℕ := 16
abbrev SYS_pread64 : ℕ := 17
abbrev SYS_pwrite64 : ℕ := 18
abbrev SYS_readv : ℕ := 19
abbrev SYS_writev : ℕ := 20
abbrev SYS_access : ℕ := 21
abbrev SYS_pipe : ℕ := 22
abbrev SYS_select : ℕ := 23
abbrev SYS_msync : ℕ := 26
abbrev SYS_mincore : ℕ := 27
abbrev SYS_madvise : ℕ := 28
abbrev SYS_dup : ℕ := 32
abbrev SYS_dup2 : ℕ := 33
abbrev SYS_getitimer : ℕ := 36
abbrev SYS_setitimer : ℕ := 38
abbrev SYS_getpid : ℕ := 39
abbrev SYS_socket : ℕ := 41
abbrev SYS_connect : ℕ := 42
abbrev SYS_accept : ℕ := 43
abbrev SYS_sendto : ℕ := 44
abbrev SYS_recvfrom : ℕ := 45
abbrev SYS_sendmsg : ℕ := 46
abbrev SYS_recvmsg : ℕ := 47
abbrev SYS_shutdown : ℕ := 48
abbrev SYS_getsockname : ℕ := 51
abbrev SYS_getpeername : ℕ := 52
abbrev SYS_socketpair : ℕ := 53
abbrev SYS_getsockopt : ℕ := 55
abbrev SYS_fork : ℕ := 57
abbrev SYS_execve : ℕ := 59
abbrev SYS_wait4 : ℕ := 61
abbrev SYS_kill : ℕ := 62
abbrev SYS_fcntl : ℕ := 72
abbrev SYS_flock : ℕ := 73
abbrev SYS_fsync : ℕ := 74
abbrev SYS_fdatasync : ℕ := 75
abbrev SYS_truncate : ℕ := 76
abbrev SYS_ftruncate : ℕ := 77
abbrev SYS_chdir : ℕ := 80
abbrev SYS_fchdir : ℕ := 81
abbrev SYS_rename : ℕ := 82
abbrev SYS_mkdir : ℕ := 83
abbrev SYS_rmdir : ℕ := 84
abbrev SYS_link : ℕ := 86
abbrev SYS_unlink : ℕ := 87
abbrev SYS_symlink : ℕ := 88
abbrev SYS_readlink : ℕ := 89
abbrev SYS_chmod : ℕ := 90
abbrev SYS_fchmod : ℕ := 91
abbrev SYS_chown : ℕ := 92
abbrev SYS_fchown : ℕ := 93
abbrev SYS_umask : ℕ := 95
abbrev SYS_gettimeofday : ℕ := 96
abbrev SYS_getrusage : ℕ := 98
abbrev SYS_getuid : ℕ := 102
abbrev SYS_getgid : ℕ := 104
abbrev SYS_setuid : ℕ := 105
abbrev SYS_geteuid : ℕ := 107
abbrev SYS_getegid : ℕ := 108
abbrev SYS_setpgid : ℕ := 109
abbrev SYS_getppid : ℕ := 110
abbrev SYS_getpgrp : ℕ := 111
abbrev SYS_setsid : ℕ := 112
abbrev SYS_setreuid : ℕ := 113
abbrev SYS_setregid : ℕ := 114
abbrev SYS_getgroups : ℕ := 115
abbrev SYS_setgroups : ℕ := 116
abbrev SYS_getpgid : ℕ := 121
abbrev SYS_sigaltstack : ℕ := 131
abbrev SYS_mknod : ℕ := 133
abbrev SYS_getpriority : ℕ := 140
abbrev SYS_setpriority : ℕ := 141
abbrev SYS_mlock : ℕ := 149
abbrev SYS_munlock : ℕ := 150
abbrev SYS_chroot : ℕ := 161
abbrev SYS_sync : ℕ := 162
abbrev SYS_settimeofday : ℕ := 164
abbrev SYS_utimes : ℕ := 235
abbrev SYS_openat : ℕ := 257
abbrev SYS_fchownat : ℕ := 260
abbrev SYS_unlinkat : ℕ := 263
abbrev SYS_renameat : ℕ := 264
abbrev SYS_readlinkat : ℕ := 267
abbrev SYS_fchmodat : ℕ := 268
abbrev SYS_faccessat : ℕ := 269
abbrev SYS_getrandom : ℕ := 318

def bsdToLinuxEntries : List (ℕ × ℕ) :=
  [(1, 231), (2, SYS_fork), (3, SYS_read), (4, SYS_write), (5, SYS_open), (6, SYS_close),
   (7, SYS_wait4), (9, SYS_link), (10, SYS_unlink), (12, SYS_chdir), (13, SYS_fchdir),
   (14, SYS_mknod), (15, SYS_chmod), (16, SYS_chown), (20, SYS_getpid), (23, SYS_setuid),
   (24, SYS_getuid), (25, SYS_geteuid), (27, SYS_recvmsg), (28, SYS_sendmsg), (29, SYS_recvfrom),
   (30, SYS_accept), (31, SYS_getpeername), (32, SYS_getsockname), (33, SYS_access),
   (36, SYS_sync), (37, SYS_kill), (39, SYS_getppid), (41, SYS_dup), (42, SYS_pipe),
   (43, SYS_getegid), (46, SYS_rt_sigaction), (47, SYS_getgid), (48, SYS_rt_sigprocmask),
   (53, SYS_sigaltstack), (54, SYS_ioctl), (57, SYS_symlink), (58, SYS_readlink),
   (59, SYS_execve), (60, SYS_umask), (61, SYS_chroot), (65, SYS_msync), (73, SYS_munmap),
   (74, SYS_mprotect), (75, SYS_madvise), (78, SYS_mincore), (79, SYS_getgroups),
   (80, SYS_setgroups), (81, SYS_getpgrp), (82, SYS_setpgid), (83, SYS_setitimer),
   (86, SYS_getitimer), (90, SYS_dup2), (92, SYS_fcntl), (93, SYS_select), (95, SYS_fsync),
   (96, SYS_setpriority), (97, SYS_socket), (98, SYS_connect), (100, SYS_getpriority),
   (116, SYS_gettimeofday), (117, SYS_getrusage), (118, SYS_getsockopt), (120, SYS_readv),
   (121, SYS_writev), (122, SYS_settimeofday), (123, SYS_fchown), (124, SYS_fchmod),
   (126, SYS_setreuid), (127, SYS_setregid), (128, SYS_rename), (131, SYS_flock),
   (133, SYS_sendto), (134, SYS_shutdown), (135, SYS_socketpair), (136, SYS_mkdir),
   (137, SYS_rmdir), (138, SYS_utimes), (147, SYS_setsid), (151, SYS_getpgid),
   (153, SYS_pread64), (154, SYS_pwrite64), (187, SYS_fdatasync), (197, SYS_mmap),
   (199, SYS_lseek), (200, SYS_truncate), (201, SYS_ftruncate), (203, SYS_mlock),
   (204, SYS_munlock), (230, SYS_poll), (396, SYS_read), (397, SYS_write), (398, SYS_open),
   (399, SYS_close), (400, SYS_wait4), (401, SYS_recvmsg), (402, SYS_sendmsg),
   (403, SYS_recvfrom), (404, SYS_accept), (405, SYS_msync), (406, SYS_fcntl), (407, SYS_select),
   (408, SYS_fsync), (409, SYS_connect), (411, SYS_readv), (412, SYS_writev), (413, SYS_sendto),
   (414, SYS_pread64), (415, SYS_pwrite64), (417, SYS_poll), (463, SYS_openat),
   (464, SYS_openat), (465, SYS_renameat), (466, SYS_faccessat), (467, SYS_fchmodat),
   (468, SYS_fchownat), (472, SYS_unlinkat), (473, SYS_readlinkat), (500, SYS_getrandom)]

def bsdToLinux (nr : ℕ) : ℕ := (bsdToLinuxEntries.lookup nr).getD 0

def HasEntry (nr n : ℕ) : Prop := (nr, n) ∈ bsdToLinuxEntries

instance {nr n} : Decidable (HasEntry nr n) := inferInstanceAs (Decidable (_ ∈ _))

abbrev ARG_OPEN_FLAGS : BitVec 16 := 0x0001
abbrev ARG_MMAP_FLAGS : BitVec 16 := 0x0002
abbrev ARG_FCNTL_CMD : BitVec 16 := 0x0004
abbrev ARG_KILL_SIGNAL : BitVec 16 := 0x0008
abbrev ARG_MADVISE : BitVec 16 := 0x0010
abbrev ARG_SIGACTION : BitVec 16 := 0x0020
abbrev ARG_SIGPROCMASK : BitVec 16 := 0x0040
abbrev ARG_FORCE_SLOW : BitVec 16 := 0x0080
abbrev ARG_SIGALTSTACK : BitVec 16 := 0x0100

def bsdArgFlagsEntries : List (ℕ × BitVec 16) :=
  [(1, ARG_FORCE_SLOW), (5, ARG_OPEN_FLAGS), (37, ARG_KILL_SIGNAL),
   (46, ARG_SIGACTION ||| ARG_FORCE_SLOW), (48, ARG_SIGPROCMASK ||| ARG_FORCE_SLOW),
   (53, ARG_SIGALTSTACK ||| ARG_FORCE_SLOW), (75, ARG_MADVISE), (92, ARG_FCNTL_CMD),
   (197, ARG_MMAP_FLAGS), (398, ARG_OPEN_FLAGS), (406, ARG_FCNTL_CMD), (463, ARG_OPEN_FLAGS),
   (464, ARG_OPEN_FLAGS)]

def bsdArgFlags (nr : ℕ) : BitVec 16 := (bsdArgFlagsEntries.lookup nr).getD 0

lemma HasEntry.of_pos {nr} (pos : 0 < bsdToLinux nr) : HasEntry nr (bsdToLinux nr) := by
  unfold bsdToLinux at pos ⊢
  cases h : bsdToLinuxEntries.lookup nr with
  | none => rw [h] at pos; cases pos
  | some n => exact mem_of_lookup h

lemma HasEntry.lookup {nr n} (e : HasEntry nr n) : bsdToLinux nr = n := by
  have all : ∀ p ∈ bsdToLinuxEntries, bsdToLinux p.1 = p.2 := by decide +kernel
  exact all (nr, n) e

lemma HasEntry.lt {nr n} (e : HasEntry nr n) : nr < bsdSyscallMax := by
  have all : ∀ p ∈ bsdToLinuxEntries, p.1 < bsdSyscallMax := by decide +kernel
  exact all (nr, n) e

end Macify.Syscall
