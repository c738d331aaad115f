import ClassSplice.Text.Utf16

/-!
# Joining surrogates

`chars` gives the characters whose units are exactly the ones given. A unit outside the surrogates
is a character on its own, and a pair of surrogates is one beyond the basic plane. There are no such
characters exactly when some surrogate does not stand beside its partner.
-/

namespace ClassSplice.Utf16

variable {u v : UInt16} {us : List UInt16} {cs : List Char} {c : Char}

theorem isHigh_iff : isHigh u = true ↔ 0xD800 ≤ u.toNat ∧ u.toNat < 0xDC00 := by
  simp [isHigh, UInt16.le_iff_toNat_le, UInt16.lt_iff_toNat_lt]

theorem isLow_iff : isLow u = true ↔ 0xDC00 ≤ u.toNat ∧ u.toNat < 0xE000 := by
  simp [isLow, UInt16.le_iff_toNat_le, UInt16.lt_iff_toNat_lt]

theorem char_toNat_ofNat {n : Nat} (h : n.isValidChar) : (Char.ofNat n).toNat = n := by
  unfold Char.ofNat
  rw [dif_pos h]
  rfl

/-! ## The units of a joined character -/

theorem units_ofNat (hh : isHigh u = false) (hl : isLow u = false) :
    units (Char.ofNat u.toNat) = [u] := by
  have hu := u.toNat_lt
  rw [← Bool.not_eq_true, isHigh_iff] at hh
  rw [← Bool.not_eq_true, isLow_iff] at hl
  have hvalid : u.toNat.isValidChar := by
    unfold Nat.isValidChar
    omega
  have hn := char_toNat_ofNat hvalid
  simp [units, hn, hu]

theorem units_pairChar (hh : isHigh u = true) (hl : isLow v = true) :
    units (pairChar u v) = [u, v] := by
  rw [isHigh_iff] at hh
  rw [isLow_iff] at hl
  have hn : (pairChar u v).toNat = 0x10000 + (u.toNat - 0xD800) * 0x400 + (v.toNat - 0xDC00) :=
    char_toNat_ofNat (by unfold Nat.isValidChar; omega)
  have h1 : UInt16.ofNat (0xD800 + ((pairChar u v).toNat - 0x10000) / 0x400) = u := by
    apply UInt16.toNat.inj
    rw [hn, UInt16.toNat_ofNat']
    omega
  have h2 : UInt16.ofNat (0xDC00 + ((pairChar u v).toNat - 0x10000) % 0x400) = v := by
    apply UInt16.toNat.inj
    rw [hn, UInt16.toNat_ofNat']
    omega
  unfold units
  rw [if_neg (by omega)]
  simp only [h1, h2]

/-! ## One character at a time -/

theorem charsAfter_units (done : List Char) (c : Char) (rest : List UInt16) :
    charsAfter done (units c ++ rest) = charsAfter (c :: done) rest := by
  have hvalid : c.toNat.isValidChar := c.valid
  unfold Nat.isValidChar at hvalid
  unfold units
  split
  · rename_i hlt
    have hn : (UInt16.ofNat c.toNat).toNat = c.toNat := by
      rw [UInt16.toNat_ofNat']
      omega
    have hh : ¬ isHigh (UInt16.ofNat c.toNat) = true := by
      rw [isHigh_iff, hn]
      omega
    have hl : ¬ isLow (UInt16.ofNat c.toNat) = true := by
      rw [isLow_iff, hn]
      omega
    rw [List.cons_append, List.nil_append, charsAfter.eq_def]
    simp only [hh, hl, hn, Bool.false_eq_true, ↓reduceIte, Char.ofNat_toNat]
  · rename_i hge
    have h1 : (UInt16.ofNat (0xD800 + (c.toNat - 0x10000) / 0x400)).toNat =
        0xD800 + (c.toNat - 0x10000) / 0x400 := by
      rw [UInt16.toNat_ofNat']
      omega
    have h2 : (UInt16.ofNat (0xDC00 + (c.toNat - 0x10000) % 0x400)).toNat =
        0xDC00 + (c.toNat - 0x10000) % 0x400 := by
      rw [UInt16.toNat_ofNat']
      omega
    have hh : isHigh (UInt16.ofNat (0xD800 + (c.toNat - 0x10000) / 0x400)) = true := by
      rw [isHigh_iff, h1]
      omega
    have hl : isLow (UInt16.ofNat (0xDC00 + (c.toNat - 0x10000) % 0x400)) = true := by
      rw [isLow_iff, h2]
      omega
    have hc : 0x10000 + (0xD800 + (c.toNat - 0x10000) / 0x400 - 0xD800) * 0x400 +
        (0xDC00 + (c.toNat - 0x10000) % 0x400 - 0xDC00) = c.toNat := by
      omega
    simp only [List.cons_append, List.nil_append, charsAfter, hh, hl, ↓reduceIte, pairChar, h1, h2,
      hc, Char.ofNat_toNat]

theorem charsAfter_eq_some_iff {done : List Char} :
    charsAfter done us = some cs ↔
      ∃ more, cs = done.reverse ++ more ∧ us = more.flatMap units := by
  constructor
  · intro h
    fun_induction charsAfter done us with
    | case1 done =>
        cases h
        exact ⟨[], by simp⟩
    | case2 => cases h
    | case3 done u hh v rest hl ih =>
        obtain ⟨more, rfl, rfl⟩ := ih h
        exact ⟨pairChar u v :: more, by simp, by simp [units_pairChar hh hl]⟩
    | case4 => cases h
    | case5 => cases h
    | case6 done u rest hh hl ih =>
        obtain ⟨more, rfl, rfl⟩ := ih h
        exact ⟨Char.ofNat u.toNat :: more, by simp,
          by simp [units_ofNat (Bool.not_eq_true _ ▸ hh) (Bool.not_eq_true _ ▸ hl)]⟩
  · rintro ⟨more, rfl, rfl⟩
    induction more generalizing done with
    | nil => simp [charsAfter]
    | cons c more ih => simpa [charsAfter_units] using @ih (c :: done)

/-- The characters given back are those whose units these are. -/
theorem chars_eq_some_iff : chars us = some cs ↔ cs.flatMap units = us := by
  simp only [chars, charsAfter_eq_some_iff, List.reverse_nil, List.nil_append, exists_eq_left',
    eq_comm (a := us)]

/-! ## Surrogates without a partner -/

/-- The unit at position `i` is a surrogate and its other half does not stand beside it. -/
inductive Unpaired (us : List UInt16) (i : Nat) : Prop
  | high {u : UInt16} (hu : us[i]? = some u) (hh : isHigh u = true)
      (hnext : ∀ v, us[i + 1]? = some v → isLow v = false)
  | low {u : UInt16} (hu : us[i]? = some u) (hl : isLow u = true)
      (hprev : ∀ j v, i = j + 1 → us[j]? = some v → isHigh v = false)

theorem isHigh_eq_false_of_isLow (h : isLow u = true) : isHigh u = false := by
  rw [isLow_iff] at h
  rw [← Bool.not_eq_true, isHigh_iff]
  omega

/-- A unit in front takes part only in the pair it begins, which leaves position 0 behind it. -/
theorem unpaired_cons_iff {i : Nat} (h : isHigh u = true → 0 < i) :
    Unpaired (u :: us) (i + 1) ↔ Unpaired us i := by
  constructor
  · rintro (⟨hu, hh, hnext⟩ | ⟨hu, hl, hprev⟩)
    · exact .high hu hh hnext
    · exact .low hu hl fun j v hj hv => hprev (j + 1) v (by rw [hj]) hv
  · rintro (⟨hu, hh, hnext⟩ | ⟨hu, hl, hprev⟩)
    · exact .high hu hh hnext
    · refine .low hu hl fun j v hj hv => ?_
      cases j with
      | zero =>
          cases hv
          exact Bool.eq_false_iff.mpr fun hh => absurd (h hh) (by omega)
      | succ j => exact hprev j v (by omega) hv

theorem exists_unpaired_cons_iff (hh : isHigh u = false) (hl : isLow u = false) :
    (∃ i, Unpaired (u :: us) i) ↔ ∃ i, Unpaired us i := by
  constructor
  · rintro ⟨i, hi⟩
    cases i with
    | zero => rcases hi with ⟨hu, h, -⟩ | ⟨hu, h, -⟩ <;> cases hu <;> simp_all
    | succ i => exact ⟨i, (unpaired_cons_iff (by simp [hh])).mp hi⟩
  · rintro ⟨i, hi⟩
    exact ⟨i + 1, (unpaired_cons_iff (by simp [hh])).mpr hi⟩

theorem exists_unpaired_pair_iff (hh : isHigh u = true) (hl : isLow v = true) :
    (∃ i, Unpaired (u :: v :: us) i) ↔ ∃ i, Unpaired us i := by
  have hv := isHigh_eq_false_of_isLow hl
  have hshift : ∀ i, Unpaired (u :: v :: us) (i + 2) ↔ Unpaired us i := fun i =>
    (unpaired_cons_iff fun _ => Nat.succ_pos i).trans (unpaired_cons_iff (by simp [hv]))
  constructor
  · rintro ⟨i, hi⟩
    match i with
    | 0 =>
        rcases hi with ⟨hu, -, hnext⟩ | ⟨hu, h, -⟩
        · simp [hnext v rfl] at hl
        · cases hu
          simp [isHigh_eq_false_of_isLow h] at hh
    | 1 =>
        rcases hi with ⟨hu, h, -⟩ | ⟨hu, -, hprev⟩
        · cases hu
          simp [hv] at h
        · simp [hprev 0 u rfl rfl] at hh
    | i + 2 => exact ⟨i, (hshift i).mp hi⟩
  · rintro ⟨i, hi⟩
    exact ⟨i + 2, (hshift i).mpr hi⟩

theorem charsAfter_eq_none_iff {done : List Char} :
    charsAfter done us = none ↔ ∃ i, Unpaired us i := by
  fun_induction charsAfter done us with
  | case1 done =>
      simp only [reduceCtorEq, false_iff]
      rintro ⟨i, ⟨hu, -, -⟩ | ⟨hu, -, -⟩⟩ <;> cases hu
  | case2 done u hh => simpa using ⟨0, .high rfl hh (by simp)⟩
  | case3 done u hh v rest hl ih => rw [ih, exists_unpaired_pair_iff hh hl]
  | case4 done u hh v rest hl => simpa using ⟨0, .high rfl hh (by simpa using hl)⟩
  | case5 done u rest hh hl => simpa using ⟨0, .low rfl hl (by simp)⟩
  | case6 done u rest hh hl ih =>
      rw [ih, exists_unpaired_cons_iff (Bool.not_eq_true _ ▸ hh) (Bool.not_eq_true _ ▸ hl)]

theorem chars_eq_none_iff : chars us = none ↔ ∃ i, Unpaired us i := charsAfter_eq_none_iff

end ClassSplice.Utf16
