import Macify.Image.LoadCommands
import Macify.Image.Mapping

/-!
# Every load command once

Two loops over the load commands of a dylib use `continue` in a body that moves the cursor at its end, and look at the
same command from then on: the mapping pass at an empty segment and at a guard, and the dependency pass at a
`libncurses` that is not there. Main result: `commands_handled_iff`.
-/

namespace Macify.Image
open Lib Dylib

/-- The load commands lie in the file, each has at least 8 bytes, and they fill `sizeofcmds`. -/
structure WellFormed (file : Buf) : Prop where
  header : Pass.dylibMap.validHeader file = true
  inside : lcEnd file ≤ file.length
  long : ∀ k < ncmds file, 8 ≤ cmdsize file (commandOffset file k)
  sum : commandOffset file (ncmds file) = lcEnd file

def commands (img : Buf) : List ℕ := (List.range (ncmds img)).map (commandOffset img)

def isCopied (img : Buf) (c : ℕ) : Bool :=
  cmd img c == LC_SEGMENT_64 && !dylibSkips (segmentAt img c)

def Pass.cursors (p : Pass) (env : PassEnv) (file : Buf) : List ℕ :=
  (p.walk env file).cursors (ncmds (env.image file)) sizeofHeader env.start

structure HandledOnce (env : PassEnv) (file : Buf) : Prop where
  copies : (Pass.dylibMap.cursors env file).filter (isCopied (env.image file)) =
    (commands (env.image file)).filter (isCopied (env.image file))
  loads : Pass.dylibDeps.cursors env file = commands (env.image file)

def mapPass (env : PassEnv) (file : Buf) (view : FileView) : Walk Mem where
  guard _ := true
  size := cmdsize (env.image file)
  reads _ _ := []
  move c _ := (Step.dylibMap (env.image file) c env.start).move
  update c m :=
    if cmd (env.image file) c = LC_SEGMENT_64 then
      mapDylibSegment env.slide view (segmentAt (env.image file) c) m
    else m

def mapDylibFile (env : PassEnv) (file : Buf) (view : FileView) (m : Mem) : Mem :=
  (mapPass env file view).final (ncmds (env.image file)) sizeofHeader m

section Passes

variable {env : PassEnv} {file : Buf} {view : FileView} {c k : ℕ} {s : PassState} {m : Mem}

lemma move_of_stalls {move : Move} {stalls : Bool} (stay : move = .stay ↔ stalls = true)
    (goes : move ≠ .leave) : move = if stalls then .stay else .next := by
  cases stalls with
  | true => exact stay.mpr rfl
  | false =>
    cases move with
    | next => rfl
    | stay => exact absurd (stay.mp rfl) Bool.false_ne_true
    | leave => exact absurd rfl goes

lemma dylibMap_move : (Step.dylibMap (env.image file) c s).move =
    if Pass.dylibMap.stalls env file c then .stay else .next := by
  refine move_of_stalls (@move_eq_stay_iff env file c s .dylibMap) ?_
  unfold Step.dylibMap
  split_ifs <;> exact nofun

lemma dylibDeps_move : (Step.dylibDeps env (env.image file) c s).move =
    if Pass.dylibDeps.stalls env file c then .stay else .next := by
  refine move_of_stalls (@move_eq_stay_iff env file c s .dylibDeps) ?_
  unfold Step.dylibDeps
  split_ifs <;> exact nofun

lemma dylibMap_steady : (Pass.dylibMap.walk env file).Steady (Pass.dylibMap.stalls env file) :=
  ⟨fun _ => rfl, fun _ _ => dylibMap_move⟩

lemma dylibDeps_steady : (Pass.dylibDeps.walk env file).Steady (Pass.dylibDeps.stalls env file) :=
  ⟨fun _ => rfl, fun _ _ => dylibDeps_move⟩

lemma mapPass_steady : (mapPass env file view).Steady (Pass.dylibMap.stalls env file) :=
  ⟨fun _ => rfl, fun _ _ => dylibMap_move⟩

lemma stalls_eq : Pass.dylibMap.stalls env file c =
    (cmd (env.image file) c == LC_SEGMENT_64 && dylibSkips (segmentAt (env.image file) c)) := by
  rw [Bool.eq_iff_iff, Bool.and_eq_true, beq_iff_eq]
  simp only [Pass.stalls, dylibSkips, decide_eq_true_eq, Bool.or_eq_true, Bool.and_eq_true]

lemma not_copied_of_stalls (stalled : Pass.dylibMap.stalls env file c = true) :
    isCopied (env.image file) c = false := by
  rw [stalls_eq, Bool.and_eq_true] at stalled
  rw [isCopied, stalled.1, stalled.2]
  rfl

lemma mapPass_update : (mapPass env file view).update c m =
    if isCopied (env.image file) c then
      copySegment view ((segmentAt (env.image file) c).vmaddr + env.slide) (segmentAt (env.image file) c) m
    else m := by
  show (if cmd (env.image file) c = LC_SEGMENT_64 then _ else m) = _
  unfold mapDylibSegment isCopied
  by_cases segment : cmd (env.image file) c = LC_SEGMENT_64
  · rw [if_pos segment, segment]
    cases dylibSkips (segmentAt (env.image file) c) with
    | true | false => rfl
  · rw [if_neg segment, beq_false_of_ne segment]
    rfl

/-- The segments at which the pass has copied are in the memory, in that order, and nothing else has changed. -/
theorem mapDylibFile_eq : mapDylibFile env file view m =
    ((Pass.dylibMap.cursors env file).filter (isCopied (env.image file))).foldl
      (fun m c => copySegment view ((segmentAt (env.image file) c).vmaddr + env.slide)
        (segmentAt (env.image file) c) m) m := by
  have same : (mapPass env file view).cursors (ncmds (env.image file)) sizeofHeader m =
      Pass.dylibMap.cursors env file := mapPass_steady.cursors_congr dylibMap_steady rfl
  rw [mapDylibFile, mapPass_steady.final_eq, same, List.foldl_filter]
  simp only [mapPass_update]

end Passes

namespace WellFormed

variable {file after : Buf} {k : ℕ}
variable (wf : WellFormed file)
include wf

lemma le_lcEnd (le : k ≤ ncmds file) : commandOffset file k ≤ lcEnd file := by
  rw [← wf.sum]
  induction le using Nat.decreasingInduction with
  | self => exact le_rfl
  | of_succ j _ ih => exact (Nat.le_add_right _ _).trans ih

lemma ncmds_append : ncmds (file ++ after) = ncmds file := by
  have header := wf.header
  rw [Pass.validHeader, Bool.and_eq_true, Bool.and_eq_true, Bool.and_eq_true] at header
  have long : sizeofHeader ≤ file.length := of_decide_eq_true header.1.1.1
  exact congrArg BitVec.toNat (u32_append (le_trans (by decide) long))

lemma cmdsize_append (lt : k < ncmds file) :
    cmdsize (file ++ after) (commandOffset file k) = cmdsize file (commandOffset file k) := by
  have long := wf.long k lt
  have next : commandOffset file k + cmdsize file (commandOffset file k) ≤ lcEnd file :=
    wf.le_lcEnd (Nat.succ_le_of_lt lt)
  have inside := wf.inside
  exact congrArg BitVec.toNat (u32_append (by omega))

lemma commandOffset_append (le : k ≤ ncmds file) :
    commandOffset (file ++ after) k = commandOffset file k := by
  induction k with
  | zero => rfl
  | succ k ih => rw [commandOffset, ih (by omega), wf.cmdsize_append le, ← commandOffset]

lemma nonempty {env : PassEnv} {p : Pass} (lt : k < ncmds (env.image file)) :
    (p.walk env file).size ((p.walk env file).offsetAt sizeofHeader k) ≠ 0 := by
  have lt : k < ncmds file := @ncmds_append file env.after wf ▸ lt
  have long := wf.long k lt
  rw [offsetAt_walk]
  show cmdsize (file ++ env.after) (commandOffset (file ++ env.after) k) ≠ 0
  rw [wf.commandOffset_append lt.le, wf.cmdsize_append lt]
  omega

end WellFormed

lemma offsetAt_walk_eq {env : PassEnv} {file : Buf} {p : Pass} :
    (p.walk env file).offsetAt sizeofHeader = commandOffset (env.image file) :=
  funext fun _ => offsetAt_walk

/-- The commands of a well-formed file are handled exactly when no segment to be copied comes after one at which
    the mapping pass stalls, and the dependency pass stalls only at the last. -/
theorem commands_handled_iff {env : PassEnv} {file : Buf} (wf : WellFormed file) :
    HandledOnce env file ↔
      (∀ k < ncmds (env.image file), ∀ j < k,
        Pass.dylibMap.stalls env file (commandOffset (env.image file) j) = true →
          isCopied (env.image file) (commandOffset (env.image file) k) = false) ∧
      (∀ k, k + 1 < ncmds (env.image file) →
        Pass.dylibDeps.stalls env file (commandOffset (env.image file) k) = false) := by
  have copies := @dylibMap_steady.filter_cursors_iff _ _ (ncmds (env.image file)) sizeofHeader env.start _
    (isCopied (env.image file)) fun c => @not_copied_of_stalls env file c
  have loads := @dylibDeps_steady.cursors_eq_iff _ _ (ncmds (env.image file)) sizeofHeader env.start _
    fun j lt => wf.nonempty lt
  rw [offsetAt_walk_eq] at copies loads
  exact ⟨fun once => ⟨copies.mp once.copies, loads.mp once.loads⟩,
    fun ⟨fst, snd⟩ => ⟨copies.mpr fst, loads.mpr snd⟩⟩

def segmentBytes (vmaddr vmsize : ℕ) : Buf :=
  [0x19, 72, 0, 0, 0, 0, vmaddr, 0, vmsize, 0, 0, 0, 0, 0, 7, 5, 0, 0].flatMap leBytes32

def dylibBytes (name : Buf) (pad : ℕ) : Buf :=
  [0x0C, 24 + name.length + pad, 24, 0, 0, 0].flatMap leBytes32 ++ name ++ List.replicate pad 0

def plainDylib : Buf :=
  headerOf MH_DYLIB 2 112 ++ segmentBytes 0x1000 0x1000 ++ dylibBytes (ascii "/usr/b.dylib") 4

def emptyFirst : Buf := headerOf MH_DYLIB 2 144 ++ segmentBytes 0x1000 0 ++ segmentBytes 0x1000 0x1000

def ncursesFirst : Buf :=
  headerOf MH_DYLIB 2 88 ++ dylibBytes (ascii "/usr/lib/libncurses.dylib") 7 ++ dylibBytes (ascii "/b.dylib") 0

lemma wellFormed_of_all {file : Buf} (all : Pass.dylibMap.validHeader file = true ∧ lcEnd file ≤ file.length ∧
      (∀ k < ncmds file, 8 ≤ cmdsize file (commandOffset file k)) ∧
      commandOffset file (ncmds file) = lcEnd file) : WellFormed file :=
  ⟨all.1, all.2.1, all.2.2.1, all.2.2.2⟩

theorem commands_handled_iff_plain : HandledOnce bareEnv plainDylib :=
  (commands_handled_iff (wellFormed_of_all (by decide +kernel))).mpr
    ⟨by decide +kernel, fun k lt => by
      obtain rfl : k = 0 := by
        have two : ncmds (bareEnv.image plainDylib) = 2 := by decide +kernel
        omega
      decide +kernel⟩

/-- In the first file nothing is copied, in the second the dependency at 88 is never looked at. -/
theorem commands_not_handled :
    (WellFormed emptyFirst ∧
      (commands (bareEnv.image emptyFirst)).filter (isCopied (bareEnv.image emptyFirst)) = [104] ∧
      (Pass.dylibMap.cursors bareEnv emptyFirst).filter (isCopied (bareEnv.image emptyFirst)) = [] ∧
      ¬HandledOnce bareEnv emptyFirst) ∧
    (WellFormed ncursesFirst ∧ commands (bareEnv.image ncursesFirst) = [32, 88] ∧
      Pass.dylibDeps.cursors bareEnv ncursesFirst = [32, 32] ∧ ¬HandledOnce bareEnv ncursesFirst) := by
  have wanted : (commands (bareEnv.image emptyFirst)).filter (isCopied (bareEnv.image emptyFirst)) =
      [104] := by decide +kernel
  have copied : (Pass.dylibMap.cursors bareEnv emptyFirst).filter (isCopied (bareEnv.image emptyFirst)) =
      [] := by decide +kernel
  have listed : commands (bareEnv.image ncursesFirst) = [32, 88] := by decide +kernel
  have met : Pass.dylibDeps.cursors bareEnv ncursesFirst = [32, 32] := by decide +kernel
  refine ⟨⟨wellFormed_of_all (by decide +kernel), wanted, copied, fun once => ?_⟩,
    wellFormed_of_all (by decide +kernel), listed, met, fun once => ?_⟩
  · exact absurd (copied.symm.trans (once.copies.trans wanted)) (by decide)
  · exact absurd (met.symm.trans (once.loads.trans listed)) (by decide)

end Macify.Image
