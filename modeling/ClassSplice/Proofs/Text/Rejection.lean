import ClassSplice.Proofs.Text.ModifiedUtf8

/-!
# Bytes that are no text

A group is a leading byte and as many continuation bytes as it asks for. Decoding goes from group to
group and refuses the bytes for the first place at which no group stands, or else for a surrogate
without its partner. `Rejected` has these reasons; bytes for which it has none are the encoding of
the one text they decode to.
-/

namespace ClassSplice.ModifiedUtf8

variable {a b c : UInt8} {u : UInt16} {bytes rest : Bytes} {us : List UInt16} {e : TextError}

/-! ## Places without a group -/

/-- The byte stands in a group, behind the first one. -/
def Continues (b : UInt8) : Prop := 0x80 ≤ b ∧ b < 0xC0

/-- The byte opens a group in which `more` bytes follow it. -/
inductive Leads : UInt8 → Nat → Prop
  | pair {a : UInt8} (hlow : 0xC0 ≤ a) (hhigh : a < 0xE0) : Leads a 1
  | triple {a : UInt8} (hlow : 0xE0 ≤ a) (hhigh : a < 0xF0) : Leads a 2

/-- No group stands at the front of the bytes, for this reason. -/
inductive Misfit : Bytes → TextError → Prop
  | null (rest : Bytes) : Misfit (0 :: rest) .nullByte
  /-- A continuation byte with no group before it, or the start of a form with four bytes. -/
  | leading {a : UInt8} (ha : Continues a ∨ 0xF0 ≤ a) (rest : Bytes) :
      Misfit (a :: rest) (.badLeading a)
  | truncated {a : UInt8} {more : Nat} (front : Bytes) (ha : Leads a more)
      (hf : ∀ b ∈ front, Continues b) (hlen : front.length < more) : Misfit (a :: front) .truncated
  | interrupted {a b : UInt8} {more : Nat} (front : Bytes) (ha : Leads a more)
      (hf : ∀ b ∈ front, Continues b) (hlen : front.length < more) (hb : ¬ Continues b)
      (rest : Bytes) : Misfit (a :: front ++ b :: rest) (.badContinuation b)
  /-- Two bytes for a unit below `80`, other than the form of the null unit. -/
  | overlongPair {a b : UInt8} {unit : UInt16} (ha : a = 0xC0 ∧ b ≠ 0x80 ∨ a = 0xC1)
      (hb : Continues b) (hu : unit.toNat = (a.toNat - 0xC0) * 0x40 + (b.toNat - 0x80))
      (rest : Bytes) : Misfit (a :: b :: rest) (.overlongPair unit)
  /-- Three bytes for a unit below `800`. -/
  | overlongTriple {b c : UInt8} {unit : UInt16} (hb : 0x80 ≤ b ∧ b < 0xA0) (hc : Continues c)
      (hu : unit.toNat = (b.toNat - 0x80) * 0x40 + (c.toNat - 0x80)) (rest : Bytes) :
      Misfit (0xE0 :: b :: c :: rest) (.overlongTriple unit)

/-! ## Groups that are refused -/

theorem continues_iff : Continues b ↔ 0x80 ≤ b.toNat ∧ b.toNat < 0xC0 := by
  simp only [Continues, UInt8.le_iff_toNat_le, UInt8.lt_iff_toNat_lt, UInt8.reduceToNat]

theorem continuation_eq_error_iff :
    continuation b = .error e ↔ ¬ Continues b ∧ e = .badContinuation b := by
  unfold continuation Continues
  split <;> simp_all [eq_comm]

theorem continuation_of_continues (h : Continues b) : continuation b = .ok (b.toNat - 0x80) :=
  continuation_eq_ok_iff.mpr ⟨(continues_iff.mp h).1, (continues_iff.mp h).2, rfl⟩

theorem continuation_of_not_continues (h : ¬ Continues b) :
    continuation b = .error (.badContinuation b) :=
  continuation_eq_error_iff.mpr ⟨h, rfl⟩

theorem misfit_of_pairUnit (hlow : 0xC0 ≤ a) (hhigh : a < 0xE0) (h : pairUnit a b = .error e)
    (rest : Bytes) : Misfit (a :: b :: rest) e := by
  simp only [pairUnit, bind_eq_error_iff, continuation_eq_error_iff, continuation_eq_ok_iff] at h
  obtain ⟨hb, rfl⟩ | ⟨y, ⟨hb, hb', hy⟩, h⟩ := h
  · exact .interrupted [] (.pair hlow hhigh) (by simp) (by simp) hb rest
  · simp only [UInt8.le_iff_toNat_le, UInt8.lt_iff_toNat_lt, UInt8.reduceToNat] at hlow hhigh
    have hn : (UInt16.ofNat (a.toNat % 0x20 * 0x40 + y)).toNat =
        (a.toNat - 0xC0) * 0x40 + (b.toNat - 0x80) := by
      rw [UInt16.toNat_ofNat']
      omega
    split at h
    · rename_i hlong
      cases h
      refine .overlongPair ?_ (continues_iff.mpr ⟨hb, hb'⟩) hn rest
      simp only [← UInt16.toNat_inj, UInt16.lt_iff_toNat_lt, UInt16.reduceToNat, hn, ne_eq] at hlong
      simp only [← UInt8.toNat_inj, UInt8.reduceToNat, ne_eq]
      omega
    · cases h

theorem misfit_of_tripleUnit (hlow : 0xE0 ≤ a) (hhigh : a < 0xF0) (h : tripleUnit a b c = .error e)
    (rest : Bytes) : Misfit (a :: b :: c :: rest) e := by
  simp only [tripleUnit, bind_eq_error_iff, continuation_eq_error_iff, continuation_eq_ok_iff] at h
  obtain ⟨hb, rfl⟩ | ⟨y, ⟨hb, hb', hy⟩, ⟨hc, rfl⟩ | ⟨z, ⟨hc, hc', hz⟩, h⟩⟩ := h
  · exact .interrupted [] (.triple hlow hhigh) (by simp) (by simp) hb (c :: rest)
  · exact .interrupted [b] (.triple hlow hhigh)
      (by simpa using continues_iff.mpr ⟨hb, hb'⟩) (by simp) hc rest
  · simp only [UInt8.le_iff_toNat_le, UInt8.lt_iff_toNat_lt, UInt8.reduceToNat] at hlow hhigh
    have hn : (UInt16.ofNat (a.toNat % 0x10 * 0x1000 + y * 0x40 + z)).toNat =
        (a.toNat - 0xE0) * 0x1000 + (b.toNat - 0x80) * 0x40 + (c.toNat - 0x80) := by
      rw [UInt16.toNat_ofNat']
      omega
    split at h
    · rename_i hlong
      cases h
      simp only [UInt16.lt_iff_toNat_lt, UInt16.reduceToNat, hn] at hlong
      obtain rfl : a = 0xE0 := UInt8.toNat.inj (show a.toNat = 0xE0 by omega)
      refine .overlongTriple ?_ (continues_iff.mpr ⟨hc, hc'⟩) (by simpa using hn) rest
      simp only [UInt8.le_iff_toNat_le, UInt8.lt_iff_toNat_lt, UInt8.reduceToNat] at hlong ⊢
      omega
    · cases h

theorem pairUnit_of_overlong (ha : a = 0xC0 ∧ b ≠ 0x80 ∨ a = 0xC1) (hb : Continues b)
    (hu : u.toNat = (a.toNat - 0xC0) * 0x40 + (b.toNat - 0x80)) :
    pairUnit a b = .error (.overlongPair u) := by
  have hc := continues_iff.mp hb
  simp only [← UInt8.toNat_inj, UInt8.reduceToNat, ne_eq] at ha
  have heq : UInt16.ofNat (a.toNat % 0x20 * 0x40 + (b.toNat - 0x80)) = u := by
    apply UInt16.toNat.inj
    rw [UInt16.toNat_ofNat', hu]
    omega
  have hlong : u ≠ 0 ∧ u < 0x80 := by
    simp only [← UInt16.toNat_inj, UInt16.lt_iff_toNat_lt, UInt16.reduceToNat, hu, ne_eq]
    omega
  simp only [pairUnit, bind_eq_error_iff]
  exact .inr ⟨_, continuation_of_continues hb, by simp only [heq, if_pos hlong]⟩

theorem tripleUnit_of_overlong (hb : 0x80 ≤ b ∧ b < 0xA0) (hc : Continues c)
    (hu : u.toNat = (b.toNat - 0x80) * 0x40 + (c.toNat - 0x80)) :
    tripleUnit 0xE0 b c = .error (.overlongTriple u) := by
  have hb' : Continues b := ⟨hb.1, UInt8.lt_trans hb.2 (by decide)⟩
  have hc' := continues_iff.mp hc
  simp only [UInt8.le_iff_toNat_le, UInt8.lt_iff_toNat_lt, UInt8.reduceToNat] at hb
  have heq : UInt16.ofNat ((0xE0 : UInt8).toNat % 0x10 * 0x1000 + (b.toNat - 0x80) * 0x40 +
      (c.toNat - 0x80)) = u := by
    apply UInt16.toNat.inj
    simp only [UInt16.toNat_ofNat', hu, UInt8.reduceToNat]
    omega
  have hlong : u < 0x800 := by
    simp only [UInt16.lt_iff_toNat_lt, UInt16.reduceToNat, hu]
    omega
  simp only [tripleUnit, bind_eq_error_iff]
  exact .inr ⟨_, continuation_of_continues hb',
    .inr ⟨_, continuation_of_continues hc, by simp only [heq, if_pos hlong]⟩⟩

/-! ## Where reading stops -/

theorem unitsAfter_pair_error (hlow : 0xC0 ≤ a) (hhigh : a < 0xE0) (h : pairUnit a b = .error e)
    (done : List UInt16) (rest : Bytes) : unitsAfter done (a :: b :: rest) = .error e := by
  obtain ⟨h0, h1⟩ := not_ascii hlow
  rw [unitsAfter.eq_def]
  simp only [h0, h1, hlow, hhigh, and_self, h, ↓reduceIte]

theorem not_leads_pair (hlow : 0xE0 ≤ a) : ¬ (0xC0 ≤ a ∧ a < 0xE0) :=
  fun h => UInt8.not_lt.mpr hlow h.2

theorem unitsAfter_triple_error (hlow : 0xE0 ≤ a) (hhigh : a < 0xF0)
    (h : tripleUnit a b c = .error e) (done : List UInt16) (rest : Bytes) :
    unitsAfter done (a :: b :: c :: rest) = .error e := by
  obtain ⟨h0, h1⟩ := not_ascii (UInt8.le_trans (by decide) hlow)
  rw [unitsAfter.eq_def]
  simp only [h0, h1, not_leads_pair hlow, hlow, hhigh, and_self, h, ↓reduceIte]

theorem unitsAfter_leading (ha : Continues a ∨ 0xF0 ≤ a) (done : List UInt16) (rest : Bytes) :
    unitsAfter done (a :: rest) = .error (.badLeading a) := by
  have hnone : ¬ a = 0 ∧ ¬ a < 0x80 ∧ ¬ (0xC0 ≤ a ∧ a < 0xE0) ∧ ¬ (0xE0 ≤ a ∧ a < 0xF0) := by
    simp only [Continues, UInt8.le_iff_toNat_le, UInt8.lt_iff_toNat_lt, ← UInt8.toNat_inj,
      UInt8.reduceToNat] at ha ⊢
    omega
  obtain ⟨h0, h1, h2, h3⟩ := hnone
  rw [unitsAfter.eq_def]
  simp only [h0, h1, h2, h3, ↓reduceIte]

theorem unitsAfter_truncated {more : Nat} {front : Bytes} (ha : Leads a more)
    (hf : ∀ b ∈ front, Continues b) (hlen : front.length < more) (done : List UInt16) :
    unitsAfter done (a :: front) = .error .truncated := by
  cases ha with
  | pair hlow hhigh =>
      obtain rfl : front = [] := List.eq_nil_of_length_eq_zero (by omega)
      obtain ⟨h0, h1⟩ := not_ascii hlow
      simp only [unitsAfter, h0, h1, hlow, hhigh, and_self, ↓reduceIte]
  | triple hlow hhigh =>
      obtain ⟨h0, h1⟩ := not_ascii (UInt8.le_trans (by decide) hlow)
      cases front with
      | nil =>
          simp only [unitsAfter, h0, h1, not_leads_pair hlow, hlow, hhigh, and_self, ↓reduceIte]
      | cons b front =>
          rw [List.length_cons] at hlen
          obtain rfl : front = [] := List.eq_nil_of_length_eq_zero (by omega)
          have hb := continuation_of_continues (hf b (by simp))
          simp only [unitsAfter, h0, h1, not_leads_pair hlow, hlow, hhigh, and_self, hb, ↓reduceIte]

theorem unitsAfter_interrupted {more : Nat} {front : Bytes} (ha : Leads a more)
    (hf : ∀ b ∈ front, Continues b) (hlen : front.length < more) (hb : ¬ Continues b)
    (done : List UInt16) (rest : Bytes) :
    unitsAfter done (a :: front ++ b :: rest) = .error (.badContinuation b) := by
  have hbad := continuation_of_not_continues hb
  cases ha with
  | pair hlow hhigh =>
      obtain rfl : front = [] := List.eq_nil_of_length_eq_zero (by omega)
      exact unitsAfter_pair_error hlow hhigh (by simp [pairUnit, hbad]) done rest
  | triple hlow hhigh =>
      cases front with
      | nil =>
          cases rest with
          | nil =>
              obtain ⟨h0, h1⟩ := not_ascii (UInt8.le_trans (by decide) hlow)
              simp only [List.singleton_append, unitsAfter, h0, h1, not_leads_pair hlow, hlow,
                hhigh, and_self, hbad, ↓reduceIte]
          | cons c rest =>
              exact unitsAfter_triple_error hlow hhigh (by simp [tripleUnit, hbad]) done rest
      | cons b' front =>
          rw [List.length_cons] at hlen
          obtain rfl : front = [] := List.eq_nil_of_length_eq_zero (by omega)
          have hb' := continuation_of_continues (hf b' (by simp))
          exact unitsAfter_triple_error hlow hhigh (by simp [tripleUnit, hb', hbad]) done rest

theorem Misfit.unitsAfter_eq (h : Misfit rest e) (done : List UInt16) :
    unitsAfter done rest = .error e := by
  cases h with
  | null rest =>
      rw [unitsAfter.eq_def]
      rfl
  | leading ha rest => exact unitsAfter_leading ha done rest
  | truncated front ha hf hlen => exact unitsAfter_truncated ha hf hlen done
  | interrupted front ha hf hlen hb rest => exact unitsAfter_interrupted ha hf hlen hb done rest
  | overlongPair ha hb hu rest =>
      refine unitsAfter_pair_error ?_ ?_ (pairUnit_of_overlong ha hb hu) done rest
      · obtain ⟨rfl, -⟩ | rfl := ha <;> decide
      · obtain ⟨rfl, -⟩ | rfl := ha <;> decide
  | overlongTriple hb hc hu rest =>
      exact unitsAfter_triple_error (by decide) (by decide) (tripleUnit_of_overlong hb hc hu) done
        rest

theorem unitsAfter_groups (us done : List UInt16) (rest : Bytes) :
    unitsAfter done (us.flatMap group ++ rest) = unitsAfter (us.reverse ++ done) rest := by
  induction us generalizing done with
  | nil => rfl
  | cons u us ih =>
      rw [List.flatMap_cons, List.append_assoc, unitsAfter_group, ih, List.reverse_cons,
        List.append_assoc, List.singleton_append]

theorem unitsAfter_eq_error_iff {done : List UInt16} :
    unitsAfter done bytes = .error e ↔
      ∃ (us : List UInt16) (rest : Bytes), bytes = us.flatMap group ++ rest ∧ Misfit rest e := by
  constructor
  · intro h
    fun_induction unitsAfter done bytes with
    | case1 => cases h
    | case2 done rest =>
        cases h
        exact ⟨[], _, rfl, .null rest⟩
    | case3 done a rest h0 h1 ih =>
        obtain ⟨us, left, rfl, hm⟩ := ih h
        exact ⟨a.toUInt16 :: us, left, by simp [group_single h0 h1], hm⟩
    | case4 done a h0 h1 h2 =>
        cases h
        exact ⟨[], _, rfl, .truncated [] (.pair h2.1 h2.2) (by simp) (by simp)⟩
    | case5 done a h0 h1 h2 b rest e' he =>
        cases h
        exact ⟨[], _, rfl, misfit_of_pairUnit h2.1 h2.2 he rest⟩
    | case6 done a h0 h1 h2 b rest u hu ih =>
        obtain ⟨us, left, rfl, hm⟩ := ih h
        exact ⟨u :: us, left, by simp [group_pairUnit h2.1 h2.2 hu], hm⟩
    | case7 done a h0 h1 h2 h3 =>
        cases h
        exact ⟨[], _, rfl, .truncated [] (.triple h3.1 h3.2) (by simp) (by simp)⟩
    | case8 done a h0 h1 h2 h3 b e' he =>
        cases h
        obtain ⟨hb, rfl⟩ := continuation_eq_error_iff.mp he
        exact ⟨[], _, rfl, .interrupted [] (.triple h3.1 h3.2) (by simp) (by simp) hb []⟩
    | case9 done a h0 h1 h2 h3 b y hy =>
        cases h
        obtain ⟨hlow, hhigh, -⟩ := continuation_eq_ok_iff.mp hy
        exact ⟨[], _, rfl, .truncated [b] (.triple h3.1 h3.2)
          (by simpa using continues_iff.mpr ⟨hlow, hhigh⟩) (by simp)⟩
    | case10 done a h0 h1 h2 h3 b c rest e' he =>
        cases h
        exact ⟨[], _, rfl, misfit_of_tripleUnit h3.1 h3.2 he rest⟩
    | case11 done a h0 h1 h2 h3 b c rest u hu ih =>
        obtain ⟨us, left, rfl, hm⟩ := ih h
        exact ⟨u :: us, left, by simp [group_tripleUnit h3.1 h3.2 hu], hm⟩
    | case12 done a rest h0 h1 h2 h3 =>
        cases h
        refine ⟨[], _, rfl, .leading ?_ rest⟩
        simp only [Continues, UInt8.le_iff_toNat_le, UInt8.lt_iff_toNat_lt, ← UInt8.toNat_inj,
          UInt8.reduceToNat] at h0 h1 h2 h3 ⊢
        omega
  · rintro ⟨us, rest, rfl, hm⟩
    rw [unitsAfter_groups]
    exact hm.unitsAfter_eq _

/-! ## Texts that are refused -/

/-- No text is encoded by the bytes, for this reason. What stands in front of the fault is made of
sound groups. -/
inductive Rejected : Bytes → TextError → Prop
  | misfit (us : List UInt16) {rest : Bytes} {e : TextError} (h : Misfit rest e) :
      Rejected (us.flatMap group ++ rest) e
  | unpaired {us : List UInt16} {i : Nat} (h : Utf16.Unpaired us i) :
      Rejected (us.flatMap group) .unpairedSurrogate

theorem decode_eq_error_iff : decode bytes = .error e ↔ Rejected bytes e := by
  unfold decode
  constructor
  · intro h
    split at h
    · rename_i e' hus
      cases h
      obtain ⟨us, rest, rfl, hm⟩ := unitsAfter_eq_error_iff.mp hus
      exact .misfit us hm
    · rename_i us hus
      obtain ⟨us, rfl, rfl⟩ := unitsAfter_eq_ok_iff.mp hus
      split at h
      · rename_i hcs
        cases h
        obtain ⟨i, hi⟩ := Utf16.chars_eq_none_iff.mp hcs
        exact .unpaired hi
      · cases h
  · rintro (⟨us, hm⟩ | ⟨hi⟩)
    · rw [unitsAfter_eq_error_iff.mpr ⟨us, _, rfl, hm⟩]
    · rename_i us i
      have hus : unitsAfter [] (us.flatMap group) = .ok us := unitsAfter_eq_ok_iff.mpr ⟨_, rfl, rfl⟩
      simp only [hus, Utf16.chars_eq_none_iff.mpr ⟨i, hi⟩]

/-! ## Bytes that are written -/

theorem group_bounds (u : UInt16) : ∀ b ∈ group u, b ≠ 0 ∧ b < 0xF0 := by
  have hu := u.toNat_lt
  have hbounds : ∀ n : Nat, n ≠ 0 → n < 0xF0 → UInt8.ofNat n ≠ 0 ∧ UInt8.ofNat n < 0xF0 := by
    intro n h0 h1
    simp only [← UInt8.toNat_inj, UInt8.lt_iff_toNat_lt, UInt8.toNat_ofNat', UInt8.reduceToNat,
      ne_eq]
    omega
  unfold group
  simp only
  split
  · exact List.forall_mem_singleton.mpr (hbounds _ (by omega) (by omega))
  · split
    · exact List.forall_mem_cons.mpr ⟨hbounds _ (by omega) (by omega),
        List.forall_mem_singleton.mpr (hbounds _ (by omega) (by omega))⟩
    · exact List.forall_mem_cons.mpr ⟨hbounds _ (by omega) (by omega),
        List.forall_mem_cons.mpr ⟨hbounds _ (by omega) (by omega),
          List.forall_mem_singleton.mpr (hbounds _ (by omega) (by omega))⟩⟩

theorem encode_bounds {text : String} {b : UInt8} (h : b ∈ encode text) : b ≠ 0 ∧ b < 0xF0 := by
  obtain ⟨u, -, hb⟩ := List.mem_flatMap.mp h
  exact group_bounds u b hb

/-- Decoding undoes encoding and accepts nothing else: bytes that no text is encoded by are refused
for a place where no group stands or for a surrogate without its partner. Encoded text holds no zero
byte and no byte that would start a form with four bytes. -/
theorem decode_inverts_encode (bytes : Bytes) (text : String) :
    (decode bytes = .ok text ↔ encode text = bytes) ∧
    (∀ e, decode bytes = .error e ↔ Rejected bytes e) ∧
    0 ∉ encode text ∧ ∀ b ∈ encode text, b < 0xF0 :=
  ⟨decode_eq_ok_iff, fun _ => decode_eq_error_iff, fun h => (encode_bounds h).1 rfl,
    fun _ h => (encode_bounds h).2⟩

end ClassSplice.ModifiedUtf8
