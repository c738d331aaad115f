import ClassSplice.Proofs.Attribute
import ClassSplice.Proofs.Verdict

/-!
# Bodies of attributes

A body is decoded exactly when it is what a value is written as, with nothing behind it. Any bytes
are the front of something that can be read, so a body that is refused is either cut off or has
bytes left over, and the fault says which.
-/

namespace ClassSplice

/-! ## Bytes that go on -/

namespace Layout

variable {α β : Type}

/-- Whatever the input is, it can be read once enough bytes follow it. -/
def Completes (layout : Layout α) : Prop :=
  ∀ bytes, ∃ more found, layout.read (bytes ++ more) = .ok found

theorem completes_u16 : u16.Completes := by
  intro bytes
  match bytes with
  | [] => exact ⟨[0, 0], _, rfl⟩
  | [a] => exact ⟨[0], _, rfl⟩
  | a :: b :: rest => exact ⟨[], _, rfl⟩

/-- Whatever goes on behind what completes the input is left unread. -/
theorem Completes.exists_front {layout : Layout α} (hc : layout.Completes) (he : layout.Exact)
    (bytes : Bytes) : ∃ more a rest, ∀ further,
      layout.read (bytes ++ (more ++ further)) = .ok (a, rest ++ further) := by
  obtain ⟨more, ⟨a, rest⟩, ha⟩ := hc bytes
  refine ⟨more, a, rest, fun further => ?_⟩
  rw [← List.append_assoc]
  exact he.read_append ha further

theorem completes_pair {first : Layout α} {second : Layout β} (he : first.Exact)
    (hf : first.Completes) (hs : second.Completes) : (first.pair second).Completes := by
  intro bytes
  obtain ⟨more, a, rest, ha⟩ := hf.exists_front he bytes
  obtain ⟨more', ⟨b, rest'⟩, hb⟩ := hs rest
  exact ⟨more ++ more', ((a, b), rest'), by simp only [pair, ha, hb]⟩

theorem completes_imap {layout : Layout α} (h : layout.Completes) (make : α → β)
    (parts : β → α) : (layout.imap make parts).Completes := by
  intro bytes
  obtain ⟨more, ⟨a, rest⟩, ha⟩ := h bytes
  exact ⟨more, (make a, rest), by simp only [imap, ha]⟩

theorem completes_u32 : u32.Completes :=
  completes_imap (completes_pair exact_u16 completes_u16 completes_u16) _ _

theorem completes_readMany {item : Layout α} (he : item.Exact) (h : item.Completes) (n : Nat)
    (done : List α) (bytes : Bytes) :
    ∃ more found, item.readMany n done (bytes ++ more) = .ok found := by
  induction n generalizing done bytes with
  | zero => exact ⟨[], _, rfl⟩
  | succ n ih =>
      obtain ⟨more, a, rest, ha⟩ := h.exists_front he bytes
      obtain ⟨more', found, hr⟩ := ih (a :: done) rest
      exact ⟨more ++ more', found, by simp only [readMany, ha, hr]⟩

theorem completes_list {item : Layout α} (he : item.Exact) (h : item.Completes) :
    item.list.Completes := by
  intro bytes
  obtain ⟨more, n, rest, hn⟩ := completes_u16.exists_front exact_u16 bytes
  obtain ⟨more', found, hr⟩ := completes_readMany he h n.toNat [] rest
  exact ⟨more ++ more', found, by simp only [list, hn, hr]⟩

theorem completes_blob : blob.Completes := by
  intro bytes
  obtain ⟨more, n, rest, hn⟩ := completes_u32.exists_front exact_u32 bytes
  -- As many zeros as the body is long are enough, however much of it is there.
  have hlen : n.toNat ≤ (rest ++ List.replicate n.toNat 0).length := by simp
  have hbody := takeBytes_eq_ok_iff.mpr ⟨List.length_take_of_le hlen,
    (List.take_append_drop n.toNat (rest ++ List.replicate n.toNat 0)).symm⟩
  exact ⟨more ++ List.replicate n.toNat 0, _, by simp only [blob, hn]; exact hbody⟩

/-- Input that is refused is the front of what some value is written as. -/
theorem Exact.cut_of_error {layout : Layout α} (he : layout.Exact) (hc : layout.Completes)
    {bytes : Bytes} {e : ReadError} (h : layout.read bytes = .error e) :
    ∃ value missing, layout.Fits value ∧ missing ≠ [] ∧
      bytes ++ missing = layout.write value := by
  obtain ⟨more, ⟨value, rest⟩, hr⟩ := hc bytes
  obtain ⟨fits, heq⟩ := (he _ _ _).1 hr
  obtain ⟨missing, hw, -⟩ | ⟨extra, hb, -⟩ := List.append_eq_append_iff.mp heq
  · refine ⟨value, missing, fits, ?_, hw.symm⟩
    rintro rfl
    rw [(he bytes value []).2 ⟨fits, by simpa using hw.symm⟩] at h
    cases h
  · rw [(he bytes value extra).2 ⟨fits, hb⟩] at h
    cases h

end Layout

/-! ## The two bodies -/

open Layout

theorem ExceptionHandler.exact_layout : layout.Exact :=
  (exact_u16.pair (exact_u16.pair (exact_u16.pair exact_u16))).imap (fun _ => rfl) fun _ => rfl

theorem ExceptionHandler.completes_layout : layout.Completes :=
  completes_imap (completes_pair exact_u16 completes_u16 (completes_pair exact_u16 completes_u16
    (completes_pair exact_u16 completes_u16 completes_u16))) _ _

theorem Attribute.completes_layout : layout.Completes :=
  completes_imap (completes_pair exact_u16 completes_u16 completes_blob) _ _

namespace Code

theorem exact_layout : layout.Exact :=
  (exact_u16.pair (exact_u16.pair (exact_blob.pair
    (ExceptionHandler.exact_layout.list.pair Attribute.exact_layout.list)))).imap
      (fun _ => rfl) fun _ => rfl

theorem completes_layout : layout.Completes := by
  refine completes_imap (completes_pair exact_u16 completes_u16 ?_) _ _
  refine completes_pair exact_u16 completes_u16 (completes_pair exact_blob completes_blob ?_)
  apply completes_pair ExceptionHandler.exact_layout.list
  · exact completes_list ExceptionHandler.exact_layout ExceptionHandler.completes_layout
  · exact completes_list Attribute.exact_layout Attribute.completes_layout

/-- Every count and every length of the body fits the bytes that the format has for it. -/
structure WithinLimits (code : Code) : Prop where
  bytecode : code.bytecode.length ≤ 0xFFFFFFFF
  handlers : code.handlers.length ≤ 0xFFFF
  attributes : code.attributes.length ≤ 0xFFFF
  bodies : ∀ a ∈ code.attributes, a.body.length ≤ 0xFFFFFFFF

theorem fits_iff_withinLimits {code : Code} : layout.Fits code ↔ code.WithinLimits := by
  have hfits : layout.Fits code ↔ code.bytecode.length ≤ 0xFFFFFFFF ∧
      code.handlers.length ≤ 0xFFFF ∧ Attribute.layout.list.Fits code.attributes := by
    simp [layout, ExceptionHandler.layout, imap, pair, u16, blob, list, Nat.lt_succ_iff]
  rw [hfits, Attribute.fits_list_iff]
  constructor
  · rintro ⟨hb, hh, ha, hl⟩
    exact ⟨hb, hh, ha, hl⟩
  · rintro ⟨hb, hh, ha, hl⟩
    exact ⟨hb, hh, ha, hl⟩

end Code

namespace LineTable

theorem exact_entryLayout : entryLayout.Exact :=
  (exact_u16.pair exact_u16).imap (fun _ => rfl) fun _ => rfl

theorem completes_entryLayout : entryLayout.Completes :=
  completes_imap (completes_pair exact_u16 completes_u16 completes_u16) _ _

theorem exact_layout : layout.Exact :=
  exact_entryLayout.list.imap (fun _ => rfl) fun _ => rfl

theorem completes_layout : layout.Completes :=
  completes_imap (completes_list exact_entryLayout completes_entryLayout) _ _

def WithinLimits (table : LineTable) : Prop := table.entries.length ≤ 0xFFFF

theorem fits_iff_withinLimits {table : LineTable} : layout.Fits table ↔ table.WithinLimits := by
  simp [layout, entryLayout, imap, pair, u16, list, WithinLimits, Nat.lt_succ_iff]

end LineTable

/-! ## Decoding -/

namespace Attribute

variable {α : Type} {form : BodyForm α} {Limits : α → Prop} {pool : Pool} {a : Attribute}

/-- What is answered when the attribute is decoded with a form whose values have limits. -/
structure DecodesExactly (form : BodyForm α) (Limits : α → Prop) (pool : Pool) (a : Attribute) :
    Prop where
  some_iff : ∀ value, decode form pool a = .ok (some value) ↔
    pool.utf8 a.name = .ok form.name ∧ a.body = (encode form a.name value).body ∧ Limits value
  none_iff : decode form pool a = .ok none ↔
    ∃ text, pool.utf8 a.name = .ok text ∧ text ≠ form.name
  nameless : ∀ e, pool.utf8 a.name = .error e → decode form pool a = .error e
  malformed_iff : (∃ fault, decode form pool a = .error (.malformedAttribute form.name fault)) ↔
    pool.utf8 a.name = .ok form.name ∧
      ∀ value, Limits value → a.body ≠ (encode form a.name value).body
  /-- The body is called unreadable when bytes are missing at its end. -/
  short_iff :
    (∃ cause, decode form pool a = .error (.malformedAttribute form.name (.unreadable cause))) ↔
      pool.utf8 a.name = .ok form.name ∧ ∃ value missing, Limits value ∧ missing ≠ [] ∧
        a.body ++ missing = (encode form a.name value).body
  long_iff : ∀ n, decode form pool a = .error (.malformedAttribute form.name (.trailing n)) ↔
    pool.utf8 a.name = .ok form.name ∧ ∃ value extra, Limits value ∧ extra ≠ [] ∧
      extra.length = n ∧ a.body = (encode form a.name value).body ++ extra

theorem exists_malformed_iff (he : form.layout.Exact) :
    (∃ fault, decode form pool a = .error (.malformedAttribute form.name fault)) ↔
      pool.utf8 a.name = .ok form.name ∧
        ∀ value, form.layout.Fits value → a.body ≠ form.layout.write value := by
  have hok : ∀ value, readBody form a.body = .ok value ↔
      form.layout.Fits value ∧ a.body = form.layout.write value := by
    intro value
    rw [readBody_eq_ok_iff, he a.body value [], List.append_nil]
  simp only [decode_eq_malformed_iff, exists_and_left]
  refine and_congr_right fun _ => ?_
  cases hr : readBody form a.body with
  | ok value =>
      obtain ⟨fits, hb⟩ := (hok value).mp hr
      exact iff_of_false (by simp) fun h => h value fits hb
  | error fault =>
      refine iff_of_true ⟨fault, rfl⟩ fun value fits hb => ?_
      rw [(hok value).mpr ⟨fits, hb⟩] at hr
      cases hr

theorem exists_unreadable_iff (he : form.layout.Exact) (hc : form.layout.Completes) :
    (∃ cause, decode form pool a = .error (.malformedAttribute form.name (.unreadable cause))) ↔
      pool.utf8 a.name = .ok form.name ∧ ∃ value missing, form.layout.Fits value ∧ missing ≠ [] ∧
        a.body ++ missing = form.layout.write value := by
  simp only [decode_eq_malformed_iff, readBody_eq_unreadable_iff]
  rw [exists_and_left]
  refine and_congr_right fun _ => ⟨?_, ?_⟩
  · intro ⟨cause, hr⟩
    exact he.cut_of_error hc hr
  · intro ⟨value, missing, fits, hm, hw⟩
    cases hr : form.layout.read a.body with
    | error cause => exact ⟨cause, rfl⟩
    | ok found =>
        -- A value in front of the cut would be read from the whole body as well.
        obtain ⟨other, rest⟩ := found
        have hwhole := (he _ value []).2 ⟨fits, (List.append_nil _).symm⟩
        rw [← hw, he.read_append hr missing] at hwhole
        simp [hm] at hwhole

theorem trailing_iff (he : form.layout.Exact) (n : Nat) :
    decode form pool a = .error (.malformedAttribute form.name (.trailing n)) ↔
      pool.utf8 a.name = .ok form.name ∧ ∃ value extra, form.layout.Fits value ∧ extra ≠ [] ∧
        extra.length = n ∧ a.body = form.layout.write value ++ extra := by
  simp only [decode_eq_malformed_iff, readBody_eq_trailing_iff, he a.body _ _]
  refine and_congr_right fun _ => exists_congr fun value => exists_congr fun extra => ?_
  exact ⟨fun ⟨⟨fits, hb⟩, hne, hn⟩ => ⟨fits, hne, hn, hb⟩,
    fun ⟨fits, hne, hn, hb⟩ => ⟨⟨fits, hb⟩, hne, hn⟩⟩

theorem decodesExactly_of_layout (he : form.layout.Exact) (hc : form.layout.Completes)
    (hl : ∀ {value}, form.layout.Fits value ↔ Limits value) :
    a.DecodesExactly form Limits pool where
  some_iff value := by
    rw [decode_eq_ok_some_iff, he a.body value [], List.append_nil, hl]
    exact and_congr_right fun _ => and_comm
  none_iff := decode_eq_ok_none_iff
  nameless e h := decode_eq_error_iff.mpr (.inl h)
  malformed_iff := by
    simp only [← hl]
    exact exists_malformed_iff he
  short_iff := by
    simp only [← hl]
    exact exists_unreadable_iff he hc
  long_iff n := by
    simp only [← hl]
    exact trailing_iff he n

theorem decodesExactly_code (pool : Pool) (a : Attribute) :
    a.DecodesExactly Code.form Code.WithinLimits pool :=
  decodesExactly_of_layout Code.exact_layout Code.completes_layout Code.fits_iff_withinLimits

theorem decodesExactly_lineTable (pool : Pool) (a : Attribute) :
    a.DecodesExactly LineTable.form LineTable.WithinLimits pool :=
  decodesExactly_of_layout LineTable.exact_layout LineTable.completes_layout
    LineTable.fits_iff_withinLimits

/-- Method bodies and line tables are decoded from exactly the bytes that they are encoded as. -/
theorem bodies_decode_exactly (pool : Pool) (a : Attribute) :
    a.DecodesExactly Code.form Code.WithinLimits pool ∧
      a.DecodesExactly LineTable.form LineTable.WithinLimits pool :=
  ⟨decodesExactly_code pool a, decodesExactly_lineTable pool a⟩

end Attribute

end ClassSplice
