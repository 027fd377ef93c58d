import Macify.Lib.CStrings
import Macify.Lib.Fields

/-!
# BSD string functions

`strlcpy` and `strlcat` (`shim/misc/string.c`), with the bytes from the destination on before and after a call,
and its result. A program builds a string by one call of `strlcpy` and further ones of `strlcat` with the size of
its buffer; `strl_builds` says what it gets.
-/

namespace Macify.Shim
open Lib

def strlcpy (dst : Buf) (src : CString) (siz : ℕ) : Buf × ℕ :=
  let len := src.bytes.length
  if 0 < siz then
    let copy := if len < siz then len else siz - 1
    (putAt dst 0 (src.bytes.take copy ++ [0]), len)
  else (dst, len)

def strlcat (dst : Buf) (src : CString) (siz : ℕ) : Buf × ℕ :=
  let dlen := (textOf dst).length
  let slen := src.bytes.length
  if siz ≤ dlen then (dst, slen + siz)
  else
    let copy := if slen < siz - dlen then slen else siz - dlen - 1
    (putAt dst dlen (src.bytes.take copy ++ [0]), dlen + slen)

def build (dst : Buf) (siz : ℕ) (first : CString) (more : List CString) : Buf × ℕ :=
  more.foldl (fun r src => strlcat r.1 src siz) (strlcpy dst first siz)

/-- As much of a text as a buffer of `siz` bytes holds, its terminator, and what was behind. -/
def held (dst : Buf) (siz : ℕ) (text : Buf) : Buf :=
  text.take (siz - 1) ++ 0 :: dst.drop ((text.take (siz - 1)).length + 1)

section Calls

variable {dst text : Buf} {src : CString} {siz room : ℕ}

lemma take_copy (pos : 0 < room) : src.bytes.take
    (if src.bytes.length < room then src.bytes.length else room - 1) = src.bytes.take (room - 1) := by
  split
  · rw [List.take_length, List.take_of_length_le (by omega)]
  · rfl

lemma strlcpy_eq (pos : 0 < siz) : strlcpy dst src siz = (held dst siz src.bytes, src.bytes.length) := by
  unfold strlcpy
  dsimp only
  rw [if_pos pos, take_copy pos, putAt, List.take_zero, List.nil_append, List.length_append, Nat.zero_add]
  exact congrArg (·, _) (List.append_assoc ..)

lemma strlcat_held (pos : 0 < siz) (nonzero : 0 ∉ text) : strlcat (held dst siz text) src siz =
    (held dst siz (text ++ src.bytes), (text.take (siz - 1)).length + src.bytes.length) := by
  have before : textOf (held dst siz text) = text.take (siz - 1) :=
    textOf_append fun mem => nonzero (List.mem_of_mem_take mem)
  have lt : (text.take (siz - 1)).length < siz := by
    rw [List.length_take]
    omega
  have all : (text ++ src.bytes).take (siz - 1) =
      text.take (siz - 1) ++ src.bytes.take (siz - (text.take (siz - 1)).length - 1) := by
    rw [List.take_append, List.length_take]
    congr 2
    omega
  unfold strlcat
  dsimp only
  rw [before, if_neg (Nat.not_le.mpr lt), take_copy (by omega), putAt]
  generalize src.bytes.take (siz - (text.take (siz - 1)).length - 1) = copied at all
  rw [held, held, all, List.take_left, ← List.drop_drop, List.drop_left]
  simp [Nat.add_comm, Nat.add_left_comm]

end Calls

/-- The buffer has as much of the texts, one after the other, as it holds; nothing behind it is written; and if
    all of them fit, their length is returned last. -/
theorem strl_builds (dst : Buf) {siz : ℕ} (first : CString) (more : List CString) (pos : 0 < siz) :
    let text := (first :: more).flatMap CString.bytes
    (build dst siz first more).1 = held dst siz text ∧
      (text.length < siz → (build dst siz first more).2 = text.length) := by
  intro text
  induction more using List.reverseRecOn with
  | nil =>
    have only : text = first.bytes := List.flatMap_singleton ..
    rw [build, List.foldl_nil, strlcpy_eq pos, only]
    exact ⟨rfl, fun _ => rfl⟩
  | append_singleton more src ih =>
    have last : text = (first :: more).flatMap CString.bytes ++ src.bytes := by
      rw [← List.flatMap_singleton CString.bytes src, ← List.flatMap_append]
      rfl
    have nonzero : 0 ∉ (first :: more).flatMap CString.bytes := by
      rw [List.mem_flatMap]
      rintro ⟨s, -, zero⟩
      exact s.nonzero zero
    rw [build, List.foldl_append, List.foldl_cons, List.foldl_nil, ← build, ih.1, strlcat_held pos nonzero, last]
    refine ⟨rfl, fun fits => ?_⟩
    rw [List.length_append] at fits
    rw [List.take_of_length_le (by omega), List.length_append]

theorem strl_builds_two :
    (build [9, 9, 9, 9, 9] 4 ⟨[1, 2], by decide⟩ [⟨[3, 4], by decide⟩]).1 = [1, 2, 3, 0, 9] :=
  (strl_builds [9, 9, 9, 9, 9] ⟨[1, 2], by decide⟩ [⟨[3, 4], by decide⟩] (by decide : 0 < 4)).1

end Macify.Shim
