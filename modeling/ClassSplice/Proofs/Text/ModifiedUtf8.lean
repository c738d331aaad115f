import ClassSplice.Proofs.Outcome
import ClassSplice.Proofs.Text.Utf16
import ClassSplice.Text.ModifiedUtf8

/-!
# Decoding what was encoded

A group of bytes is accepted exactly when it is the group of the unit it gives, so no text has a
second form. Decoding and encoding are inverse.
-/

namespace ClassSplice.ModifiedUtf8

variable {a b c : UInt8} {u : UInt16} {bytes : Bytes} {us : List UInt16}

/-! ## Groups that are read -/

theorem continuation_eq_ok_iff {y : Nat} :
    continuation b = .ok y ↔ 0x80 ≤ b.toNat ∧ b.toNat < 0xC0 ∧ y = b.toNat - 0x80 := by
  unfold continuation
  simp only [UInt8.le_iff_toNat_le, UInt8.lt_iff_toNat_lt, UInt8.reduceToNat]
  split
  · rename_i h
    simp only [Except.ok.injEq]
    omega
  · rename_i h
    simp only [reduceCtorEq, false_iff]
    omega

theorem group_single (h0 : a ≠ 0) (h : a < 0x80) : group a.toUInt16 = [a] := by
  have h0' : a.toNat ≠ 0 := fun h => h0 (UInt8.toNat.inj h)
  rw [UInt8.lt_iff_toNat_lt] at h
  simp only [UInt8.reduceToNat] at h
  simp [group, h0', h]

theorem group_pairUnit (hlow : 0xC0 ≤ a) (hhigh : a < 0xE0) (h : pairUnit a b = .ok u) :
    group u = [a, b] := by
  simp only [pairUnit, bind_eq_ok_iff, continuation_eq_ok_iff] at h
  obtain ⟨y, ⟨hb, hb', hy⟩, h⟩ := h
  simp only [UInt8.le_iff_toNat_le, UInt8.lt_iff_toNat_lt, UInt8.reduceToNat] at hlow hhigh
  split at h
  · cases h
  · rename_i hlong
    cases h
    have hn : (UInt16.ofNat (a.toNat % 0x20 * 0x40 + y)).toNat =
        (a.toNat - 0xC0) * 0x40 + y := by
      rw [UInt16.toNat_ofNat']
      omega
    simp only [← UInt16.toNat_inj, UInt16.lt_iff_toNat_lt, UInt16.reduceToNat, hn, ne_eq] at hlong
    unfold group
    simp only [hn]
    rw [if_neg (by omega), if_pos (by omega)]
    simp only [List.cons.injEq, and_true]
    constructor <;> apply UInt8.toNat.inj <;> rw [UInt8.toNat_ofNat'] <;> omega

theorem group_tripleUnit (hlow : 0xE0 ≤ a) (hhigh : a < 0xF0) (h : tripleUnit a b c = .ok u) :
    group u = [a, b, c] := by
  simp only [tripleUnit, bind_eq_ok_iff, continuation_eq_ok_iff] at h
  obtain ⟨y, ⟨hb, hb', hy⟩, z, ⟨hc, hc', hz⟩, h⟩ := h
  simp only [UInt8.le_iff_toNat_le, UInt8.lt_iff_toNat_lt, UInt8.reduceToNat] at hlow hhigh
  split at h
  · cases h
  · rename_i hlong
    cases h
    have hn : (UInt16.ofNat (a.toNat % 0x10 * 0x1000 + y * 0x40 + z)).toNat =
        (a.toNat - 0xE0) * 0x1000 + y * 0x40 + z := by
      rw [UInt16.toNat_ofNat']
      omega
    simp only [UInt16.lt_iff_toNat_lt, UInt16.reduceToNat, hn] at hlong
    unfold group
    simp only [hn]
    rw [if_neg (by omega), if_neg (by omega)]
    simp only [List.cons.injEq, and_true]
    refine ⟨?_, ?_, ?_⟩ <;> apply UInt8.toNat.inj <;> rw [UInt8.toNat_ofNat'] <;> omega

/-! ## Groups that were written -/

theorem pairUnit_group (hlow : u.toNat = 0 ∨ 0x80 ≤ u.toNat) (hhigh : u.toNat < 0x800) :
    pairUnit (UInt8.ofNat (0xC0 + u.toNat / 0x40)) (UInt8.ofNat (0x80 + u.toNat % 0x40)) =
      .ok u := by
  have h1 : (UInt8.ofNat (0xC0 + u.toNat / 0x40)).toNat = 0xC0 + u.toNat / 0x40 := by
    rw [UInt8.toNat_ofNat']
    omega
  have h2 : (UInt8.ofNat (0x80 + u.toNat % 0x40)).toNat = 0x80 + u.toNat % 0x40 := by
    rw [UInt8.toNat_ofNat']
    omega
  have hy : continuation (UInt8.ofNat (0x80 + u.toNat % 0x40)) = .ok (u.toNat % 0x40) := by
    rw [continuation_eq_ok_iff, h2]
    omega
  have hu : (0xC0 + u.toNat / 0x40) % 0x20 * 0x40 + u.toNat % 0x40 = u.toNat := by omega
  have hlong : ¬ (u ≠ 0 ∧ u < 0x80) := by
    simp only [← UInt16.toNat_inj, UInt16.lt_iff_toNat_lt, UInt16.reduceToNat, ne_eq]
    omega
  simp only [pairUnit, bind_eq_ok_iff]
  exact ⟨_, hy, by simp only [h1, hu, UInt16.ofNat_toNat, if_neg hlong]⟩

theorem tripleUnit_group (hlow : 0x800 ≤ u.toNat) :
    tripleUnit (UInt8.ofNat (0xE0 + u.toNat / 0x1000))
      (UInt8.ofNat (0x80 + u.toNat / 0x40 % 0x40)) (UInt8.ofNat (0x80 + u.toNat % 0x40)) =
      .ok u := by
  have hlt := u.toNat_lt
  have h1 : (UInt8.ofNat (0xE0 + u.toNat / 0x1000)).toNat = 0xE0 + u.toNat / 0x1000 := by
    rw [UInt8.toNat_ofNat']
    omega
  have hy : continuation (UInt8.ofNat (0x80 + u.toNat / 0x40 % 0x40)) =
      .ok (u.toNat / 0x40 % 0x40) := by
    rw [continuation_eq_ok_iff, UInt8.toNat_ofNat']
    omega
  have hz : continuation (UInt8.ofNat (0x80 + u.toNat % 0x40)) = .ok (u.toNat % 0x40) := by
    rw [continuation_eq_ok_iff, UInt8.toNat_ofNat']
    omega
  have hu : (0xE0 + u.toNat / 0x1000) % 0x10 * 0x1000 + u.toNat / 0x40 % 0x40 * 0x40 +
      u.toNat % 0x40 = u.toNat := by
    omega
  have hlong : ¬ u < 0x800 := by
    simp only [UInt16.lt_iff_toNat_lt, UInt16.reduceToNat]
    omega
  simp only [tripleUnit, bind_eq_ok_iff]
  exact ⟨_, hy, _, hz, by simp only [h1, hu, UInt16.ofNat_toNat, if_neg hlong]⟩

theorem not_ascii (h : 0xC0 ≤ a) : ¬ a = 0 ∧ ¬ a < 0x80 := by
  simp only [UInt8.le_iff_toNat_le, UInt8.lt_iff_toNat_lt, ← UInt8.toNat_inj,
    UInt8.reduceToNat] at h ⊢
  omega

theorem unitsAfter_single (h0 : a ≠ 0) (h : a < 0x80) (done : List UInt16) (rest : Bytes) :
    unitsAfter done (a :: rest) = unitsAfter (a.toUInt16 :: done) rest := by
  rw [unitsAfter.eq_def]
  simp only [h0, h, ↓reduceIte]

theorem unitsAfter_pair (hlow : 0xC0 ≤ a) (hhigh : a < 0xE0) (h : pairUnit a b = .ok u)
    (done : List UInt16) (rest : Bytes) :
    unitsAfter done (a :: b :: rest) = unitsAfter (u :: done) rest := by
  obtain ⟨h0, h1⟩ := not_ascii hlow
  rw [unitsAfter.eq_def]
  simp only [h0, h1, hlow, hhigh, and_self, h, ↓reduceIte]

theorem unitsAfter_triple (hlow : 0xE0 ≤ a) (hhigh : a < 0xF0) (h : tripleUnit a b c = .ok u)
    (done : List UInt16) (rest : Bytes) :
    unitsAfter done (a :: b :: c :: rest) = unitsAfter (u :: done) rest := by
  obtain ⟨h0, h1⟩ := not_ascii (UInt8.le_trans (by decide) hlow)
  have h2 : ¬ (0xC0 ≤ a ∧ a < 0xE0) := fun h => UInt8.not_lt.mpr hlow h.2
  rw [unitsAfter.eq_def]
  simp only [h0, h1, h2, hlow, hhigh, and_self, h, ↓reduceIte]

theorem unitsAfter_group (done : List UInt16) (u : UInt16) (rest : Bytes) :
    unitsAfter done (group u ++ rest) = unitsAfter (u :: done) rest := by
  have hlt := u.toNat_lt
  unfold group
  simp only
  split
  · rename_i h
    have hn : (UInt8.ofNat u.toNat).toNat = u.toNat := by
      rw [UInt8.toNat_ofNat']
      omega
    have hu : (UInt8.ofNat u.toNat).toUInt16 = u := by
      apply UInt16.toNat.inj
      rw [UInt8.toNat_toUInt16, hn]
    rw [List.cons_append, List.nil_append, unitsAfter_single, hu]
    · rw [ne_eq, ← UInt8.toNat_inj, hn]
      exact h.1
    · rw [UInt8.lt_iff_toNat_lt, hn]
      exact h.2
  · split
    · rename_i hone htwo
      refine unitsAfter_pair ?_ ?_ (pairUnit_group (by omega) htwo) done rest
      · simp only [UInt8.le_iff_toNat_le, UInt8.toNat_ofNat', UInt8.reduceToNat]
        omega
      · simp only [UInt8.lt_iff_toNat_lt, UInt8.toNat_ofNat', UInt8.reduceToNat]
        omega
    · rename_i hone htwo
      refine unitsAfter_triple ?_ ?_ (tripleUnit_group (by omega)) done rest
      · simp only [UInt8.le_iff_toNat_le, UInt8.toNat_ofNat', UInt8.reduceToNat]
        omega
      · simp only [UInt8.lt_iff_toNat_lt, UInt8.toNat_ofNat', UInt8.reduceToNat]
        omega

/-! ## Whole texts -/

theorem unitsAfter_eq_ok_iff {done : List UInt16} :
    unitsAfter done bytes = .ok us ↔
      ∃ more, us = done.reverse ++ more ∧ bytes = more.flatMap group := by
  constructor
  · intro h
    fun_induction unitsAfter done bytes with
    | case1 done =>
        cases h
        exact ⟨[], by simp⟩
    | case3 done a rest h0 h1 ih =>
        obtain ⟨more, rfl, rfl⟩ := ih h
        exact ⟨a.toUInt16 :: more, by simp, by simp [group_single h0 h1]⟩
    | case6 done a h0 h1 h2 b rest u hu ih =>
        obtain ⟨more, rfl, rfl⟩ := ih h
        exact ⟨u :: more, by simp, by simp [group_pairUnit h2.1 h2.2 hu]⟩
    | case11 done a h0 h1 h2 h3 b c rest u hu ih =>
        obtain ⟨more, rfl, rfl⟩ := ih h
        exact ⟨u :: more, by simp, by simp [group_tripleUnit h3.1 h3.2 hu]⟩
    | _ => cases h
  · rintro ⟨more, rfl, rfl⟩
    induction more generalizing done with
    | nil => simp [unitsAfter]
    | cons u more ih => simpa [unitsAfter_group] using @ih (u :: done)

/-- Bytes decode to a text exactly when they are its encoding. -/
theorem decode_eq_ok_iff {text : String} : decode bytes = .ok text ↔ encode text = bytes := by
  unfold decode encode
  constructor
  · intro h
    split at h
    · cases h
    · rename_i us hus
      split at h
      · cases h
      · rename_i cs hcs
        cases h
        obtain ⟨more, rfl, rfl⟩ := unitsAfter_eq_ok_iff.mp hus
        rw [String.toList_ofList, Utf16.chars_eq_some_iff.mp hcs]
  · rintro rfl
    have hus : unitsAfter [] ((text.toList.flatMap Utf16.units).flatMap group) =
        .ok (text.toList.flatMap Utf16.units) := unitsAfter_eq_ok_iff.mpr ⟨_, rfl, rfl⟩
    simp only [hus, Utf16.chars_eq_some_iff.mpr rfl, String.ofList_toList]

end ClassSplice.ModifiedUtf8
