import ClassSplice.Slots
import Mathlib.Algebra.GroupWithZero.Nat
import Mathlib.Data.List.Chain

/-!
# Lookup in slots

Entries lie side by side, so their first slots increase as long as every element takes a slot. The
bisection of `get?` then finds what stands at a slot, and nothing inside a wide element.
-/

namespace ClassSplice

variable {α : Type} [Width α] {start stop : Nat} {entries : List (Nat × α)}

/-! ## Entries side by side -/

theorem Laid.start_le_stop (h : Laid start entries stop) : start ≤ stop := by
  induction entries generalizing start with
  | nil => exact Nat.le_of_eq h
  | cons e rest ih => exact Nat.le_trans (Nat.le_add_right _ _) (ih h.2)

theorem Laid.mem_bounds (h : Laid start entries stop) {e : Nat × α} (he : e ∈ entries) :
    start ≤ e.1 ∧ e.1 + width e.2 ≤ stop := by
  induction entries generalizing start with
  | nil => cases he
  | cons f rest ih =>
      obtain ⟨rfl, h⟩ := h
      rcases List.mem_cons.mp he with rfl | he
      · exact ⟨Nat.le_refl _, h.start_le_stop⟩
      · exact ⟨Nat.le_trans (Nat.le_add_right _ _) (ih h he).1, (ih h he).2⟩

theorem Laid.pairwise (h : Laid start entries stop) :
    entries.Pairwise fun e f => e.1 + width e.2 ≤ f.1 := by
  induction entries generalizing start with
  | nil => exact .nil
  | cons e rest ih =>
      obtain ⟨rfl, h⟩ := h
      exact .cons (fun f hf => (h.mem_bounds hf).1) (ih h)

namespace Slots

variable {s : Slots start α}

/-! ## Bounds -/

theorem mem_bounds {e : Nat × α} (he : e ∈ s.toList) : start ≤ e.1 ∧ e.1 + width e.2 ≤ s.next :=
  s.laid.mem_bounds he

theorem pairwise_lt (hw : ∀ e ∈ s.toList, 0 < width e.2) :
    s.toList.Pairwise fun e f => e.1 < f.1 :=
  s.laid.pairwise.imp_of_mem fun he _ h =>
    Nat.lt_of_lt_of_le (Nat.lt_add_of_pos_right (hw _ he)) h

theorem getElem_lt_getElem (hw : ∀ e ∈ s.toList, 0 < width e.2) {i j : Nat}
    (hij : i < j) (hj : j < s.entries.size) : s.entries[i].1 < s.entries[j].1 := by
  have := List.pairwise_iff_getElem.mp (pairwise_lt hw) i j (by simp [toList]; omega)
    (by simpa [toList] using hj) hij
  simpa [toList] using this

/-! ## Bisection -/

theorem bisect_eq (hw : ∀ e ∈ s.toList, 0 < width e.2) {slot base size k : Nat}
    {h : base + size ≤ s.entries.size} (hk : base ≤ k ∧ k < base + size)
    (heq : s.entries[k].1 = slot) : bisect s.entries slot base size h = k := by
  fun_induction bisect s.entries slot base size h with
  | case1 base size h hs half hgt ih =>
      -- The middle entry starts behind the slot, so what stands at the slot is on its left.
      have hlt : k < base + half := by
        rcases Nat.lt_trichotomy k (base + half) with hlt | rfl | hlt
        · exact hlt
        · omega
        · have := getElem_lt_getElem hw hlt (by omega)
          omega
      exact ih ⟨hk.1, by omega⟩ heq
  | case2 base size h hs half hle ih =>
      have hge : base + half ≤ k := by
        rcases Nat.lt_or_ge k (base + half) with hlt | hge
        · have := getElem_lt_getElem hw hlt (by omega)
          omega
        · exact hge
      exact ih ⟨hge, by omega⟩ heq
  | case3 base size h hs => omega

theorem get?_eq_some_iff (hw : ∀ e ∈ s.toList, 0 < width e.2) {slot : Nat} {a : α} :
    s.get? slot = some a ↔ (slot, a) ∈ s.toList := by
  constructor
  · intro h
    simp only [get?] at h
    split at h
    · rename_i first b hb
      split at h
      · rename_i hf
        cases hf
        cases h
        exact Array.mem_toList_iff.mpr (Array.mem_of_getElem? hb)
      · cases h
    · cases h
  · intro h
    obtain ⟨k, hk, he⟩ := Array.mem_iff_getElem.mp (Array.mem_toList_iff.mp h)
    have hb : bisect s.entries slot 0 s.entries.size (by omega) = k :=
      bisect_eq hw ⟨Nat.zero_le k, by omega⟩ (congrArg Prod.fst he)
    simp [get?, hb, hk, he]

theorem ext {t : Slots start α} (hl : s.toList = t.toList) (hn : s.next = t.next) : s = t := by
  obtain ⟨⟨xs⟩, _, _⟩ := s
  obtain ⟨⟨ys⟩, _, _⟩ := t
  simp only [toList] at hl hn
  subst hl hn
  rfl

@[simp] theorem append_nil (s : Slots start α) : s.append [] = s := rfl

@[simp] theorem append_cons (s : Slots start α) (a : α) (as : List α) :
    s.append (a :: as) = (s.push a).append as := rfl

theorem elements_append (s : Slots start α) (as : List α) :
    (s.append as).toList.map (·.2) = s.toList.map (·.2) ++ as := by
  induction as generalizing s with
  | nil => simp
  | cons a as ih => simpa using ih (s.push a)

theorem next_le_append (s : Slots start α) (as : List α) : s.next ≤ (s.append as).next := by
  induction as generalizing s with
  | nil => simp
  | cons a as ih => exact Nat.le_trans (by simp) (ih (s.push a))

theorem append_laid {more : List (Nat × α)} (h : Laid s.next more stop) :
    (s.append (more.map (·.2))).toList = s.toList ++ more ∧
      (s.append (more.map (·.2))).next = stop := by
  induction more generalizing s with
  | nil => exact ⟨by simp, h⟩
  | cons e rest ih =>
      obtain ⟨slot, a⟩ := e
      obtain ⟨rfl, h⟩ := h
      have := ih (s := s.push a) h
      simpa using this

theorem elements_ofList (as : List α) : (ofList as : Slots start α).toList.map (·.2) = as := by
  simpa [ofList] using elements_append (empty : Slots start α) as

/-- Whatever the slots hold, pushing their elements in order builds them. -/
theorem ofList_elements (s : Slots start α) : ofList (s.toList.map (·.2)) = s := by
  obtain ⟨hl, hn⟩ := append_laid (s := (empty : Slots start α)) s.laid
  exact ext hl hn

end Slots

end ClassSplice
