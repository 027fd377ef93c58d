import Macify.Lib.Code

/-!
# Packing of optional fields

Fields that are wanted are packed one behind the other: each one is checked against the room that is left, written,
and the offset moves on by its size. The room is a difference of unsigned words, which is only right as long as the
offset has not passed the end. `layout` says where the fields end up.
-/

namespace Macify.Lib

structure PackField (τ : Type*) where
  tag : τ
  size : ℕ
  data : Buf
  inside : data.length ≤ size

namespace Packing

variable {τ ρ : Type*}

structure State (ρ : Type*) where
  off : ℕ
  seen : ρ
  stores : List (ℕ × Buf)

section Pack

variable (wants : PackField τ → Bool) (mark : ρ → PackField τ → ρ)

/-- A field without room ends the packing; what was written before stays. -/
def pack (buffer : Bool) (bufsize : W64) (s : State ρ) (f : PackField τ) : Except (List (ℕ × Buf)) (State ρ) :=
  if !wants f then .ok s
  else if bufsize ≠ 0 ∧ f.size > (bufsize - BitVec.ofNat 64 s.off).toNat then .error s.stores
  else .ok ⟨s.off + f.size, mark s.seen f, if buffer then s.stores ++ [(s.off, f.data)] else s.stores⟩

def layout : ℕ → List (PackField τ) → List (PackField τ × ℕ)
  | _, [] => []
  | off, f :: fs => if wants f then (f, off) :: layout (off + f.size) fs else layout off fs

def totalSize (fs : List (PackField τ)) : ℕ := ((fs.filter wants).map PackField.size).sum

def placed (l : List (PackField τ × ℕ)) : List (ℕ × Buf) := l.map fun f => (f.2, f.1.data)

def marks (seen : ρ) (fs : List (PackField τ)) : ρ :=
  (fs.filter wants).foldl mark seen

end Pack

section Lemmas

variable {wants wants' : PackField τ → Bool} {mark : ρ → PackField τ → ρ} {buffer : Bool}
  {bufsize : W64} {s : State ρ} {f : PackField τ} {fs : List (PackField τ)} {off o : ℕ} {m : Code}

lemma totalSize_cons_of_pos (wanted : wants f = true) :
    totalSize wants (f :: fs) = f.size + totalSize wants fs := by
  rw [totalSize, List.filter_cons_of_pos wanted, List.map_cons, List.sum_cons, totalSize]

lemma totalSize_cons_of_neg (other : ¬wants f = true) : totalSize wants (f :: fs) = totalSize wants fs := by
  rw [totalSize, List.filter_cons_of_neg other, totalSize]

lemma marks_cons_of_pos {seen : ρ} (wanted : wants f = true) :
    marks wants mark seen (f :: fs) = marks wants mark (mark seen f) fs := by
  rw [marks, List.filter_cons_of_pos wanted, List.foldl_cons, marks]

lemma marks_cons_of_neg {seen : ρ} (other : ¬wants f = true) :
    marks wants mark seen (f :: fs) = marks wants mark seen fs := by
  rw [marks, List.filter_cons_of_neg other, marks]

lemma layout_congr (same : ∀ f ∈ fs, wants f = wants' f) : layout wants off fs = layout wants' off fs := by
  induction fs generalizing off with
  | nil => rfl
  | cons f fs ih =>
    have rest := fun {off} => @ih off fun g mem => same g (List.mem_cons_of_mem _ mem)
    rw [layout, layout, same f List.mem_cons_self, rest, rest]

lemma mem_of_mem_layout {p : PackField τ × ℕ} (mem : p ∈ layout wants off fs) :
    p.1 ∈ fs ∧ wants p.1 = true ∧ off ≤ p.2 := by
  induction fs generalizing off with
  | nil => exact absurd mem List.not_mem_nil
  | cons f fs ih =>
    rw [layout] at mem
    split at mem
    case isTrue wanted =>
      rcases List.mem_cons.mp mem with rfl | later
      · exact ⟨List.mem_cons_self, wanted, Nat.le_refl _⟩
      · obtain ⟨field, asked, ge⟩ := ih later
        exact ⟨List.mem_cons_of_mem _ field, asked, by omega⟩
    case isFalse other =>
      obtain ⟨field, asked, ge⟩ := ih mem
      exact ⟨List.mem_cons_of_mem _ field, asked, ge⟩

lemma exists_mem_layout (mem : f ∈ fs) (wanted : wants f = true) : ∃ o, (f, o) ∈ layout wants off fs := by
  induction fs generalizing off with
  | nil => exact absurd mem List.not_mem_nil
  | cons g fs ih =>
    rw [layout]
    rcases List.mem_cons.mp mem with rfl | later
    · exact ⟨off, by rw [if_pos wanted]; exact List.mem_cons_self⟩
    · split
      · obtain ⟨o, found⟩ := @ih (off + g.size) later
        exact ⟨o, List.mem_cons_of_mem _ found⟩
      · exact ih later

lemma layout_end {p : PackField τ × ℕ} (mem : p ∈ layout wants off fs) :
    p.2 + p.1.size ≤ off + totalSize wants fs := by
  induction fs generalizing off with
  | nil => exact absurd mem List.not_mem_nil
  | cons f fs ih =>
    rw [layout] at mem
    split at mem
    case isTrue wanted =>
      rw [totalSize_cons_of_pos wanted]
      rcases List.mem_cons.mp mem with rfl | later
      · dsimp only
        omega
      · have := ih later
        omega
    case isFalse other =>
      rw [totalSize_cons_of_neg other]
      exact ih mem

lemma placed_ge {a : ℕ × Buf} (mem : a ∈ placed (layout wants off fs)) : off ≤ a.1 := by
  obtain ⟨p, found, rfl⟩ := List.mem_map.mp mem
  exact (mem_of_mem_layout found).2.2

lemma placed_end {a : ℕ × Buf} (mem : a ∈ placed (layout wants off fs)) :
    a.1 + a.2.length ≤ off + totalSize wants fs := by
  obtain ⟨p, found, rfl⟩ := List.mem_map.mp mem
  exact (Nat.add_le_add_left p.1.inside _).trans (layout_end found)

lemma holds_of_mem_layout (mem : (f, o) ∈ layout wants off fs) :
    (m.storeAll (placed (layout wants off fs))).Holds o f.data := by
  induction fs generalizing off m with
  | nil => exact absurd mem List.not_mem_nil
  | cons g fs ih =>
    rw [layout] at mem ⊢
    split at mem
    case isTrue wanted =>
      rw [if_pos wanted]
      rcases List.mem_cons.mp mem with same | later
      · -- the fields behind it are written behind it
        obtain ⟨rfl, rfl⟩ := Prod.mk.inj same
        have fits := f.inside
        refine Code.holds_store.storeAll_apart fun a found => .inl ?_
        have := placed_ge found
        dsimp only
        omega
      · exact ih later
    case isFalse other =>
      rw [if_neg other]
      exact ih mem

lemma pack_other (other : ¬wants f = true) : pack wants mark buffer bufsize s f = .ok s :=
  if_pos (by rw [Bool.not_eq_true] at other; rw [other]; rfl)

lemma pack_wanted (wanted : wants f = true) (room : bufsize = 0 ∨ f.size ≤ (bufsize - BitVec.ofNat 64 s.off).toNat) :
    pack wants mark buffer bufsize s f =
      .ok ⟨s.off + f.size, mark s.seen f, if buffer then s.stores ++ [(s.off, f.data)] else s.stores⟩ := by
  rw [pack, if_neg (by rw [wanted]; decide), if_neg fun met => room.elim met.1 (Nat.not_le_of_lt met.2)]

lemma pack_query (s : State ρ) :
    fs.foldlM (pack wants mark false 0) s =
      .ok ⟨s.off + totalSize wants fs, marks wants mark s.seen fs, s.stores⟩ := by
  induction fs generalizing s with
  | nil => rfl
  | cons f fs ih =>
    rw [List.foldlM_cons]
    by_cases wanted : wants f = true
    · rw [pack_wanted wanted (.inl rfl), totalSize_cons_of_pos wanted, marks_cons_of_pos wanted, ← Nat.add_assoc]
      exact ih _
    · rw [pack_other wanted, totalSize_cons_of_neg wanted, marks_cons_of_neg wanted]
      exact ih s

lemma room_eq (le : off ≤ bufsize.toNat) : (bufsize - BitVec.ofNat 64 off).toNat = bufsize.toNat - off := by
  rw [BitVec.toNat_sub, BitVec.toNat_ofNat]
  have := bufsize.isLt
  omega

lemma pack_room (s : State ρ) (room : s.off + totalSize wants fs ≤ bufsize.toNat) :
    fs.foldlM (pack wants mark true bufsize) s =
      .ok ⟨s.off + totalSize wants fs, marks wants mark s.seen fs,
        s.stores ++ placed (layout wants s.off fs)⟩ := by
  induction fs generalizing s with
  | nil => exact congrArg Except.ok (by rw [layout, placed, List.map_nil, List.append_nil]; rfl)
  | cons f fs ih =>
    rw [List.foldlM_cons, layout]
    by_cases wanted : wants f = true
    · rw [totalSize_cons_of_pos wanted] at room ⊢
      have fits : f.size ≤ (bufsize - BitVec.ofNat 64 s.off).toNat := by
        rw [room_eq (by omega)]
        omega
      rw [pack_wanted wanted (.inr fits), marks_cons_of_pos wanted, if_pos wanted, if_pos rfl, ← Nat.add_assoc]
      refine (ih _ (by dsimp only; omega)).trans ?_
      rw [List.append_assoc]
      rfl
    · rw [totalSize_cons_of_neg wanted] at room ⊢
      rw [pack_other wanted, marks_cons_of_neg wanted, if_neg wanted]
      exact ih s room

lemma pack_full (s : State ρ) (nonzero : bufsize ≠ 0) (inside : s.off ≤ bufsize.toNat)
    (full : bufsize.toNat < s.off + totalSize wants fs)
    (before : ∀ a ∈ s.stores, a.1 + a.2.length ≤ bufsize.toNat) :
    ∃ stores, fs.foldlM (pack wants mark true bufsize) s = .error stores ∧
      ∀ a ∈ stores, a.1 + a.2.length ≤ bufsize.toNat := by
  induction fs generalizing s with
  | nil =>
    have : totalSize wants ([] : List (PackField τ)) = 0 := rfl
    omega
  | cons f fs ih =>
    rw [List.foldlM_cons]
    by_cases wanted : wants f = true
    · rw [totalSize_cons_of_pos wanted] at full
      rcases Nat.lt_or_ge (bufsize.toNat - s.off) f.size with less | room
      · refine ⟨s.stores, ?_, before⟩
        rw [pack, if_neg (by rw [wanted]; decide), if_pos ⟨nonzero, by rw [room_eq inside]; exact less⟩]
        rfl
      · rw [pack_wanted wanted (.inr (by rw [room_eq inside]; exact room)), if_pos rfl]
        refine ih ⟨s.off + f.size, _, _⟩ (by dsimp only; omega) (by dsimp only; omega) fun a mem => ?_
        rcases List.mem_append.mp mem with old | new
        · exact before a old
        · obtain rfl := List.mem_singleton.mp new
          have := f.inside
          dsimp only
          omega
    · rw [totalSize_cons_of_neg wanted] at full
      rw [pack_other wanted]
      exact ih s inside full before

end Lemmas

end Packing

end Macify.Lib
