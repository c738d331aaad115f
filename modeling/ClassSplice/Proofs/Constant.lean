import ClassSplice.Constant
import ClassSplice.Layout.Exact
import ClassSplice.Proofs.Text.ModifiedUtf8

/-!
# Constants are read as they are written

A tag belongs to one kind of constant, and the layout of what follows it is exact. So the layout of
constants is exact: it loses nothing of a constant and accepts no second form of it.
-/

namespace ClassSplice

/-! ## Text -/

theorem Layout.exact_text : Layout.text.Exact := by
  intro bytes text rest
  constructor
  · intro h
    simp only [Layout.text] at h
    split at h
    · cases h
    · rename_i body rest' hb
      split at h
      · cases h
      · rename_i text' ht
        cases h
        obtain ⟨fits, rfl⟩ := (exact_shortBlob _ _ _).1 hb
        obtain rfl := ModifiedUtf8.decode_eq_ok_iff.mp ht
        exact ⟨fits, rfl⟩
  · rintro ⟨fits, rfl⟩
    have hb := (exact_shortBlob (shortBlob.write (ModifiedUtf8.encode text) ++ rest) _ _).2
      ⟨fits, rfl⟩
    simp only [Layout.text, hb, ModifiedUtf8.decode_eq_ok_iff.mpr rfl]

/-! ## Codes -/

namespace HandleKind

theorem ofCode?_eq_some_iff {code : UInt8} {kind : HandleKind} :
    ofCode? code = some kind ↔ kind.code = code := by
  constructor
  · intro h
    simpa using List.find?_some h
  · rintro rfl
    cases kind <;> rfl

theorem exact_layout : layout.Exact := by
  intro bytes kind rest
  cases bytes with
  | nil => simp [layout]
  | cons c bytes =>
      simp only [layout, List.cons_append, List.nil_append, List.cons.injEq, true_and]
      constructor
      · intro h
        split at h
        · rename_i kind' hk
          cases h
          exact ⟨(ofCode?_eq_some_iff.mp hk).symm, rfl⟩
        · cases h
      · rintro ⟨rfl, rfl⟩
        simp only [ofCode?_eq_some_iff.mpr rfl]

end HandleKind

theorem Tag.ofCode?_eq_some_iff {code : UInt8} {tag : Tag} :
    ofCode? code = some tag ↔ tag.code = code := by
  constructor
  · intro h
    simpa using List.find?_some h
  · rintro rfl
    cases tag <;> rfl

/-! ## Constants -/

namespace Constant

open Layout

variable {α : Type} {l : Layout α} {make : α → Constant} {tag : Tag} {c : Constant}
  {bytes rest : Bytes}

theorem of_readWith (h : readWith l make bytes = .ok (c, rest)) (hl : l.Exact)
    (hm : ∀ a, l.Fits a → (make a).tag = tag ∧ (make a).Fits ∧ (make a).writeBody = l.write a) :
    c.tag = tag ∧ c.Fits ∧ bytes = c.writeBody ++ rest := by
  unfold readWith at h
  split at h
  · cases h
  · rename_i a rest' ha
    cases h
    obtain ⟨fits, rfl⟩ := (hl _ _ _).1 ha
    obtain ⟨ht, hf, hw⟩ := hm a fits
    exact ⟨ht, hf, hw ▸ rfl⟩

theorem readWith_write (hl : l.Exact) {a : α} (fits : l.Fits a) :
    readWith l make (l.write a ++ rest) = .ok (make a, rest) := by
  simp only [readWith, (hl (l.write a ++ rest) a rest).2 ⟨fits, rfl⟩]

theorem readPair_write (make : UInt16 → UInt16 → Constant) {i j : UInt16} :
    readBody.readPair make ((u16.pair u16).write (i, j) ++ rest) = .ok (make i j, rest) := by
  unfold readBody.readPair
  exact readWith_write (exact_u16.pair exact_u16) (a := (i, j)) ⟨trivial, trivial⟩

/-- What is read behind a tag is a constant with that tag. -/
theorem of_readBody (h : readBody tag bytes = .ok (c, rest)) :
    c.tag = tag ∧ c.Fits ∧ bytes = c.writeBody ++ rest := by
  have h16 := exact_u16.pair exact_u16
  cases tag with
  | utf8 => exact of_readWith h exact_text fun _ fits => ⟨rfl, fits, rfl⟩
  | integer => exact of_readWith h exact_i32 fun _ _ => ⟨rfl, trivial, rfl⟩
  | float => exact of_readWith h exact_u32 fun _ _ => ⟨rfl, trivial, rfl⟩
  | long => exact of_readWith h exact_i64 fun _ _ => ⟨rfl, trivial, rfl⟩
  | double => exact of_readWith h exact_u64 fun _ _ => ⟨rfl, trivial, rfl⟩
  | classRef | string | methodType | moduleRef | packageRef =>
      exact of_readWith h exact_u16 fun _ _ => ⟨rfl, trivial, rfl⟩
  | fieldRef | methodRef | interfaceMethodRef | nameAndType | dynamic | invokeDynamic =>
      exact of_readWith h h16 fun _ _ => ⟨rfl, trivial, rfl⟩
  | methodHandle =>
      exact of_readWith h (HandleKind.exact_layout.pair exact_u16) fun _ _ => ⟨rfl, trivial, rfl⟩

theorem readBody_write (fits : c.Fits) (rest : Bytes) :
    readBody c.tag (c.writeBody ++ rest) = .ok (c, rest) := by
  cases c with
  | utf8 text => exact readWith_write exact_text fits
  | integer value => exact readWith_write exact_i32 ⟨trivial, trivial⟩
  | float bits => exact readWith_write exact_u32 ⟨trivial, trivial⟩
  | long value => exact readWith_write exact_i64 ⟨⟨trivial, trivial⟩, trivial, trivial⟩
  | double bits => exact readWith_write exact_u64 ⟨⟨trivial, trivial⟩, trivial, trivial⟩
  | classRef i | string i | methodType i | moduleRef i | packageRef i =>
      exact readWith_write exact_u16 trivial
  | fieldRef i j | nameAndType i j | dynamic i j | invokeDynamic i j => exact readPair_write _
  | methodRef i j onInterface =>
      cases onInterface with
      | false => exact readPair_write (methodRef · · false)
      | true => exact readPair_write (methodRef · · true)
  | methodHandle kind member =>
      simp only [Constant.tag, readBody]
      exact readWith_write (HandleKind.exact_layout.pair exact_u16) (a := (kind, member))
        ⟨trivial, trivial⟩

theorem exact_layout : layout.Exact := by
  intro bytes c rest
  cases bytes with
  | nil => simp [layout]
  | cons code bytes =>
      simp only [layout, List.cons_append, List.cons.injEq]
      constructor
      · intro h
        split at h
        · rename_i tag ht
          obtain ⟨rfl, fits, rfl⟩ := of_readBody h
          exact ⟨fits, (Tag.ofCode?_eq_some_iff.mp ht).symm, rfl⟩
        · cases h
      · rintro ⟨fits, rfl, rfl⟩
        simp only [Tag.ofCode?_eq_some_iff.mpr rfl]
        exact readBody_write fits rest

end Constant

end ClassSplice
