import ClassSplice.Proofs.ClassFile

/-!
# Verdicts on prefixes

A reader goes through its input from left to right. What it has refused as bad data it refuses for
the same reason when more bytes follow, so data that is only cut off is never called bad: every
proper prefix of a class file ends too early.
-/

namespace ClassSplice

/-- What the reader refuses as bad data it also refuses, with the same error, when more follows. -/
def Decisive {α : Type} (read : Bytes → Except ReadError (α × Bytes)) : Prop :=
  ∀ bytes more e, read bytes = .error e → e.kind = .invalidData → read (bytes ++ more) = .error e

namespace ReadError

theorem kind_cases (e : ReadError) : e.kind = .unexpectedEof ∨ e.kind = .invalidData := by
  cases e <;> simp [kind]

end ReadError

/-! ## Readers -/

section Readers

variable {α β : Type} {layout : Layout α}

/-- What follows a value is left over behind it. -/
theorem Layout.Exact.read_append (h : layout.Exact) {bytes rest : Bytes} {a : α}
    (hr : layout.read bytes = .ok (a, rest)) (more : Bytes) :
    layout.read (bytes ++ more) = .ok (a, rest ++ more) := by
  obtain ⟨fits, rfl⟩ := (h _ _ _).1 hr
  exact (h _ _ _).2 ⟨fits, List.append_assoc ..⟩

theorem Decisive.of_unexpectedEof {read : Bytes → Except ReadError (α × Bytes)}
    (h : ∀ bytes e, read bytes = .error e → e.kind = .unexpectedEof) : Decisive read := by
  intro bytes more e he hk
  rw [h bytes e he] at hk
  cases hk

theorem Decisive.of_bind {read : Bytes → Except ReadError (β × Bytes)}
    (next : α → Bytes → Except ReadError (β × Bytes))
    (hread : ∀ bytes, read bytes = layout.read bytes >>= fun p => next p.1 p.2)
    (he : layout.Exact) (hd : Decisive layout.read) (hn : ∀ a, Decisive (next a)) :
    Decisive read := by
  intro bytes more e h hk
  rw [hread, bind_eq_error_iff] at h ⊢
  rcases h with h | ⟨⟨a, rest⟩, hr, h⟩
  · exact .inl (hd bytes more e h hk)
  · exact .inr ⟨(a, rest ++ more), he.read_append hr more, hn a rest more e h hk⟩

theorem Decisive.map {read : Bytes → Except ReadError (α × Bytes)} (hd : Decisive read)
    (f : α → β) :
    Decisive fun bytes =>
      match read bytes with
      | .error e => .error e
      | .ok (a, rest) => .ok (f a, rest) := by
  intro bytes more e h hk
  cases hr : read bytes with
  | error e' =>
      simp only [hr] at h ⊢
      cases h
      rw [hd _ more _ hr hk]
  | ok p => simp [hr] at h

end Readers

/-! ## Layouts -/

namespace Layout

variable {α β : Type}

theorem decisive_u16 : Decisive u16.read := by
  refine .of_unexpectedEof fun bytes e h => ?_
  match bytes with
  | [] | [_] => cases h; rfl
  | a :: b :: rest => cases h

theorem decisive_pair {first : Layout α} {second : Layout β} (he : first.Exact)
    (hf : Decisive first.read) (hs : Decisive second.read) : Decisive (first.pair second).read :=
  .of_bind _ (fun bytes => by simp only [pair]; cases first.read bytes <;> rfl) he hf
    fun a => hs.map fun b => (a, b)

theorem decisive_imap {layout : Layout α} (h : Decisive layout.read) (make : α → β)
    (parts : β → α) : Decisive (layout.imap make parts).read :=
  h.map make

theorem decisive_u32 : Decisive u32.read :=
  decisive_imap (decisive_pair exact_u16 decisive_u16 decisive_u16) _ _

theorem decisive_u64 : Decisive u64.read :=
  decisive_imap (decisive_pair exact_u32 decisive_u32 decisive_u32) _ _

theorem decisive_i32 : Decisive i32.read := decisive_imap decisive_u32 _ _

theorem decisive_i64 : Decisive i64.read := decisive_imap decisive_u64 _ _

theorem decisive_readMany {item : Layout α} (he : item.Exact) (h : Decisive item.read) (n : Nat)
    (done : List α) : Decisive (item.readMany n done) := by
  induction n generalizing done with
  | zero =>
      intro bytes more e hr
      cases hr
  | succ n ih =>
      exact .of_bind _ (fun bytes => by simp only [readMany]; cases item.read bytes <;> rfl) he h
        fun a => ih (a :: done)

theorem decisive_list {item : Layout α} (he : item.Exact) (h : Decisive item.read) :
    Decisive item.list.read :=
  .of_bind _ (fun bytes => by simp only [Layout.list]; cases u16.read bytes <;> rfl)
    exact_u16 decisive_u16 fun n => decisive_readMany he h n.toNat []

theorem decisive_takeBytes (n : Nat) : Decisive (takeBytes n) := by
  refine .of_unexpectedEof fun bytes e h => ?_
  simp only [takeBytes] at h
  split at h
  · cases h
  · cases h
    rfl

theorem decisive_shortBlob : Decisive shortBlob.read :=
  .of_bind _ (fun bytes => by simp only [shortBlob]; cases u16.read bytes <;> rfl)
    exact_u16 decisive_u16 fun n => decisive_takeBytes n.toNat

theorem decisive_blob : Decisive blob.read :=
  .of_bind _ (fun bytes => by simp only [blob]; cases u32.read bytes <;> rfl)
    exact_u32 decisive_u32 fun n => decisive_takeBytes n.toNat

theorem decisive_text : Decisive text.read := by
  intro bytes more e h hk
  cases hr : shortBlob.read bytes with
  | error e' =>
      simp only [text, hr] at h
      cases h
      simp only [text, decisive_shortBlob bytes more e hr hk]
  | ok p =>
      -- The text is refused for its own bytes, all of which have been read.
      obtain ⟨body, rest⟩ := p
      simp only [text, hr] at h
      simp only [text, exact_shortBlob.read_append hr more]
      cases hb : ModifiedUtf8.decode body with
      | error cause =>
          simp only [hb] at h ⊢
          exact h
      | ok s => simp [hb] at h

end Layout

/-! ## Constants -/

theorem HandleKind.decisive_layout : Decisive layout.read := by
  intro bytes more e h hk
  cases bytes with
  | nil =>
      cases h
      cases hk
  | cons c rest =>
      simp only [layout, List.cons_append] at h ⊢
      split at h
      · cases h
      · exact h

namespace Constant

open Layout

theorem decisive_readWith {α : Type} {l : Layout α} (h : Decisive l.read) (make : α → Constant) :
    Decisive (readWith l make) :=
  h.map make

theorem decisive_readBody (tag : Tag) : Decisive (readBody tag) := by
  cases tag with
  | utf8 => exact decisive_readWith decisive_text _
  | integer => exact decisive_readWith decisive_i32 _
  | float => exact decisive_readWith decisive_u32 _
  | long => exact decisive_readWith decisive_i64 _
  | double => exact decisive_readWith decisive_u64 _
  | classRef | string | methodType | moduleRef | packageRef =>
      exact decisive_readWith decisive_u16 _
  | fieldRef | methodRef | interfaceMethodRef | nameAndType | dynamic | invokeDynamic =>
      exact decisive_readWith (decisive_pair exact_u16 decisive_u16 decisive_u16) _
  | methodHandle =>
      exact decisive_readWith
        (decisive_pair HandleKind.exact_layout HandleKind.decisive_layout decisive_u16) _

theorem decisive_layout : Decisive layout.read := by
  intro bytes more e h hk
  cases bytes with
  | nil =>
      cases h
      cases hk
  | cons code rest =>
      simp only [layout, List.cons_append] at h ⊢
      split at h
      · exact decisive_readBody _ rest more e h hk
      · exact h

end Constant

/-! ## Pools -/

namespace Pool

theorem decisive_readSlots (count : Nat) (slots : Slots 1 Constant) :
    Decisive (readSlots count slots) := by
  intro bytes more e h hk
  fun_induction readSlots count slots bytes with
  | case1 slots bytes hlt e' hc =>
      cases h
      rw [readSlots, if_pos hlt, Constant.decisive_layout bytes more e hc hk]
  | case2 slots bytes hlt c rest hc ih =>
      rw [readSlots, if_pos hlt, Constant.exact_layout.read_append hc more]
      exact ih h
  | case3 slots bytes hle hgt =>
      rw [readSlots, if_neg hle, if_pos hgt]
      exact h
  | case4 => cases h

theorem decisive_layout : Decisive layout.read := by
  refine .of_bind (fun count rest =>
    if count = 0 then .error .zeroPoolCount else readSlots count.toNat Slots.empty rest)
    (fun bytes => ?_) Layout.exact_u16 Layout.decisive_u16 fun count => ?_
  · simp only [layout]
    cases Layout.u16.read bytes <;> rfl
  · by_cases hc : count = 0
    · simp only [if_pos hc]
      exact fun _ _ _ h _ => h
    · simp only [if_neg hc]
      exact decisive_readSlots count.toNat Slots.empty

end Pool

/-! ## Parts of a class -/

section Parts

open Layout

theorem AccessFlags.decisive_layout {owner : FlagOwner} :
    Decisive (layout : Layout (AccessFlags owner)).read :=
  decisive_imap decisive_u16 _ _

theorem Version.decisive_layout : Decisive layout.read :=
  decisive_imap (decisive_pair exact_u16 decisive_u16 decisive_u16) _ _

theorem Attribute.decisive_layout : Decisive layout.read :=
  decisive_imap (decisive_pair exact_u16 decisive_u16 decisive_blob) _ _

theorem Attribute.decisive_list : Decisive layout.list.read :=
  Layout.decisive_list exact_layout decisive_layout

theorem Member.decisive_layout {owner : FlagOwner} :
    Decisive (layout : Layout (Member owner)).read :=
  decisive_imap (decisive_pair AccessFlags.exact_layout AccessFlags.decisive_layout
    (decisive_pair exact_u16 decisive_u16
      (decisive_pair exact_u16 decisive_u16 Attribute.decisive_list))) _ _

theorem Member.decisive_list {owner : FlagOwner} :
    Decisive (layout : Layout (Member owner)).list.read :=
  Layout.decisive_list exact_layout decisive_layout

end Parts

/-! ## Classes -/

namespace ClassFile

open Layout

/-- The opening bytes are compared once there are four of them. -/
theorem decisive_magicLayout : Decisive magicLayout.read := by
  intro bytes more e h hk
  match bytes with
  | [] | [_] | [_, _] | [_, _, _] =>
      cases h
      cases hk
  | a :: b :: c :: d :: rest =>
      simp only [magicLayout, List.cons_append] at h ⊢
      split at h
      · cases h
      · rename_i hm
        rw [if_neg hm]
        exact h

theorem decisive_layout : Decisive layout.read := by
  refine decisive_imap (decisive_pair exact_magicLayout decisive_magicLayout ?_) _ _
  refine decisive_pair Version.exact_layout Version.decisive_layout ?_
  refine decisive_pair Pool.exact_layout Pool.decisive_layout ?_
  refine decisive_pair AccessFlags.exact_layout AccessFlags.decisive_layout ?_
  refine decisive_pair exact_u16 decisive_u16 (decisive_pair exact_u16 decisive_u16 ?_)
  refine decisive_pair exact_u16.list (decisive_list exact_u16 decisive_u16) ?_
  refine decisive_pair Member.exact_layout.list Member.decisive_list ?_
  exact decisive_pair Member.exact_layout.list Member.decisive_list Attribute.decisive_list

variable {bytes : Bytes} {c : ClassFile} {e : ReadError}

theorem read_eq_ok_iff_layout : read bytes = .ok c ↔ layout.read bytes = .ok (c, []) := by
  unfold read
  split <;> simp [*]

/-- Behind a class there is room for nothing. -/
theorem read_append_of_ok (h : read bytes = .ok c) {more : Bytes} (hm : more ≠ []) :
    read (bytes ++ more) = .error .trailingBytes := by
  obtain ⟨b, rest, rfl⟩ := List.exists_cons_of_ne_nil hm
  have hr := exact_layout.read_append (read_eq_ok_iff_layout.mp h) (b :: rest)
  simp only [read, hr, List.nil_append]

theorem read_append_of_invalidData (h : read bytes = .error e) (hk : e.kind = .invalidData)
    (more : Bytes) : read (bytes ++ more) = .error e := by
  unfold read at h
  split at h
  · rename_i e' hr
    cases h
    simp only [read, decisive_layout bytes more e hr hk]
  · cases h
  · rename_i c b rest hr
    cases h
    simp only [read, exact_layout.read_append hr more, List.cons_append]

/-- A class file that is cut off ends too early, wherever it is cut. -/
theorem read_of_cut (h : read bytes = .ok c) {front : Bytes} (hp : front <+: bytes)
    (hne : front ≠ bytes) : ∃ e, read front = .error e ∧ e.kind = .unexpectedEof := by
  obtain ⟨more, rfl⟩ := hp
  have hm : more ≠ [] := by
    rintro rfl
    exact hne (List.append_nil front).symm
  cases hr : read front with
  | ok c' =>
      rw [read_append_of_ok hr hm] at h
      cases h
  | error e =>
      rcases e.kind_cases with hk | hk
      · exact ⟨e, rfl, hk⟩
      · rw [read_append_of_invalidData hr hk] at h
        cases h

/-- A class file is refused when it is cut off because its end is missing, and when bytes follow it
as bad data. Bad data stays bad for the same reason whatever follows, and input is refused for
nothing but these two kinds of reason. -/
theorem read_consistent (bytes : Bytes) :
    (∀ c, read bytes = .ok c →
      (∀ front, front <+: bytes → front ≠ bytes →
        ∃ e, read front = .error e ∧ e.kind = .unexpectedEof) ∧
      ∀ more, more ≠ [] → ∃ e, read (bytes ++ more) = .error e ∧ e.kind = .invalidData) ∧
    (∀ e, read bytes = .error e → e.kind = .invalidData →
      ∀ more, read (bytes ++ more) = .error e) ∧
    ∀ e, read bytes = .error e → e.kind = .unexpectedEof ∨ e.kind = .invalidData := by
  refine ⟨fun c h => ⟨fun front hp hne => read_of_cut h hp hne, fun more hm => ?_⟩, ?_, ?_⟩
  · exact ⟨.trailingBytes, read_append_of_ok h hm, rfl⟩
  · exact fun e h hk more => read_append_of_invalidData h hk more
  · exact fun e _ => e.kind_cases

end ClassFile

end ClassSplice
