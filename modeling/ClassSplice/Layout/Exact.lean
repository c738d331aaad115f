import ClassSplice.Layout

/-!
# Exact layouts

The layouts of numbers, lists and counted bytes give back what they write, whatever follows it, and
accept nothing else.
-/

namespace ClassSplice.Layout

variable {α β : Type}

/-! ## Numbers -/

theorem toNat_joined (a b : UInt8) :
    (UInt16.ofNat (a.toNat * 0x100 + b.toNat)).toNat = a.toNat * 0x100 + b.toNat := by
  have := a.toNat_lt
  have := b.toNat_lt
  rw [UInt16.toNat_ofNat']
  omega

theorem exact_u16 : u16.Exact := by
  intro bytes n rest
  constructor
  · intro h
    simp only [u16] at h
    split at h
    · rename_i a b r
      simp only [Except.ok.injEq, Prod.mk.injEq] at h
      obtain ⟨rfl, rfl⟩ := h
      have ha := a.toNat_lt
      have hb := b.toNat_lt
      refine ⟨trivial, ?_⟩
      simp only [u16, toNat_joined, List.cons_append, List.nil_append, List.cons.injEq, and_true]
      constructor <;> apply UInt8.toNat.inj <;> rw [UInt8.toNat_ofNat'] <;> omega
    · simp at h
  · rintro ⟨-, rfl⟩
    simp only [u16, List.cons_append, List.nil_append, Except.ok.injEq, Prod.mk.injEq, and_true]
    apply UInt16.toNat.inj
    have := n.toNat_lt
    rw [toNat_joined, UInt8.toNat_ofNat', UInt8.toNat_ofNat']
    omega

theorem exact_u32 : u32.Exact := by
  refine (exact_u16.pair exact_u16).imap ?_ ?_
  · intro n
    apply UInt32.toNat.inj
    have := n.toNat_lt
    simp only [UInt32.toNat_ofNat', UInt16.toNat_ofNat']
    omega
  · rintro ⟨a, b⟩
    have := a.toNat_lt
    have := b.toNat_lt
    refine Prod.ext (UInt16.toNat.inj ?_) (UInt16.toNat.inj ?_) <;>
      simp only [UInt32.toNat_ofNat', UInt16.toNat_ofNat'] <;> omega

theorem exact_u64 : u64.Exact := by
  refine (exact_u32.pair exact_u32).imap ?_ ?_
  · intro n
    apply UInt64.toNat.inj
    have := n.toNat_lt
    simp only [UInt64.toNat_ofNat', UInt32.toNat_ofNat']
    omega
  · rintro ⟨a, b⟩
    have := a.toNat_lt
    have := b.toNat_lt
    refine Prod.ext (UInt32.toNat.inj ?_) (UInt32.toNat.inj ?_) <;>
      simp only [UInt64.toNat_ofNat', UInt32.toNat_ofNat'] <;> omega

theorem exact_i32 : i32.Exact :=
  exact_u32.imap (fun _ => rfl) fun _ => rfl

theorem exact_i64 : i64.Exact :=
  exact_u64.imap (fun _ => rfl) fun _ => rfl

/-! ## Sequences -/

theorem readMany_eq_ok_iff {item : Layout α} (h : item.Exact) {n : Nat} {done as : List α}
    {bytes rest : Bytes} :
    item.readMany n done bytes = .ok (as, rest) ↔
      ∃ more, more.length = n ∧ as = done.reverse ++ more ∧ (∀ a ∈ more, item.Fits a) ∧
        bytes = more.flatMap item.write ++ rest := by
  induction n generalizing done bytes with
  | zero =>
    simp only [readMany, Except.ok.injEq, Prod.mk.injEq, List.length_eq_zero_iff]
    constructor
    · rintro ⟨rfl, rfl⟩
      exact ⟨[], by simp⟩
    · rintro ⟨more, rfl, rfl, -, rfl⟩
      simp
  | succ n ih =>
    constructor
    · intro hr
      simp only [readMany] at hr
      split at hr
      · simp at hr
      · rename_i a mid ha
        obtain ⟨more, rfl, rfl, fits, rfl⟩ := ih.1 hr
        obtain ⟨fa, rfl⟩ := (h _ _ _).1 ha
        exact ⟨a :: more, by simp, by simp, by simpa using ⟨fa, fits⟩, by simp⟩
    · rintro ⟨more, hl, rfl, fits, rfl⟩
      obtain ⟨a, more, rfl⟩ := List.exists_cons_of_length_eq_add_one hl
      rw [List.forall_mem_cons] at fits
      have ha := (h (item.write a ++ (more.flatMap item.write ++ rest)) a _).2 ⟨fits.1, rfl⟩
      simp only [readMany, List.flatMap_cons, List.append_assoc, ha]
      exact ih.2 ⟨more, by simpa using hl, by simp, fits.2, rfl⟩

theorem Exact.list {item : Layout α} (h : item.Exact) : item.list.Exact := by
  intro bytes as rest
  constructor
  · intro hr
    simp only [Layout.list] at hr
    split at hr
    · simp at hr
    · rename_i n mid hn
      obtain ⟨-, rfl⟩ := (exact_u16 _ _ _).1 hn
      obtain ⟨more, hl, rfl, fits, rfl⟩ := (readMany_eq_ok_iff h).1 hr
      have := n.toNat_lt
      exact ⟨⟨by simpa [hl] using this, by simpa using fits⟩, by simp [Layout.list, hl]⟩
  · rintro ⟨⟨hl, fits⟩, rfl⟩
    have hn := (exact_u16 (u16.write (UInt16.ofNat as.length) ++ (as.flatMap item.write ++ rest))
      _ _).2 ⟨trivial, rfl⟩
    simp only [Layout.list, List.append_assoc, hn]
    refine (readMany_eq_ok_iff h).2 ⟨as, ?_, by simp, fits, rfl⟩
    rw [UInt16.toNat_ofNat']
    omega

theorem takeBytes_eq_ok_iff {n : Nat} {bytes body rest : Bytes} :
    takeBytes n bytes = .ok (body, rest) ↔ body.length = n ∧ bytes = body ++ rest := by
  simp only [takeBytes, List.splitAt_eq]
  constructor
  · intro h
    split at h
    · rename_i hl
      simp only [Except.ok.injEq, Prod.mk.injEq] at h
      obtain ⟨rfl, rfl⟩ := h
      exact ⟨hl, (List.take_append_drop n bytes).symm⟩
    · simp at h
  · rintro ⟨rfl, rfl⟩
    simp

theorem exact_shortBlob : shortBlob.Exact := by
  intro bytes body rest
  constructor
  · intro hr
    simp only [shortBlob] at hr
    split at hr
    · simp at hr
    · rename_i n mid hn
      obtain ⟨-, rfl⟩ := (exact_u16 _ _ _).1 hn
      obtain ⟨hl, rfl⟩ := takeBytes_eq_ok_iff.1 hr
      have := n.toNat_lt
      exact ⟨by simpa [shortBlob, hl] using this, by simp [shortBlob, hl]⟩
  · rintro ⟨fits, rfl⟩
    have hn := (exact_u16 (u16.write (UInt16.ofNat body.length) ++ (body ++ rest)) _ _).2
      ⟨trivial, rfl⟩
    simp only [shortBlob, List.append_assoc, hn]
    refine takeBytes_eq_ok_iff.2 ⟨?_, rfl⟩
    simp only [shortBlob] at fits
    rw [UInt16.toNat_ofNat']
    omega

theorem exact_blob : blob.Exact := by
  intro bytes body rest
  constructor
  · intro hr
    simp only [blob] at hr
    split at hr
    · simp at hr
    · rename_i n mid hn
      obtain ⟨-, rfl⟩ := (exact_u32 _ _ _).1 hn
      obtain ⟨hl, rfl⟩ := takeBytes_eq_ok_iff.1 hr
      have := n.toNat_lt
      exact ⟨by simpa [blob, hl] using this, by simp [blob, hl]⟩
  · rintro ⟨fits, rfl⟩
    have hn := (exact_u32 (u32.write (UInt32.ofNat body.length) ++ (body ++ rest)) _ _).2
      ⟨⟨trivial, trivial⟩, rfl⟩
    simp only [blob, List.append_assoc, hn]
    refine takeBytes_eq_ok_iff.2 ⟨?_, rfl⟩
    simp only [blob] at fits
    rw [UInt32.toNat_ofNat']
    omega

end ClassSplice.Layout
