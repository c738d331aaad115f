import ClassSplice.Proofs.AttributeBody

/-!
# Line tables in parts

The line table of a method body may be cut into parts, each in an attribute of its own. However it
is cut, and whatever stands between the parts, joining gives it back. Joining fails for the first
attribute that has no name, or that is named as a part and holds anything but one.
-/

namespace ClassSplice

namespace LineTable

variable {pool : Pool} {a : Attribute} {body : Bytes} {high low : UInt8} {fault : BodyFault}

/-! ## Parts among the attributes -/

/-- The entries stand in order in parts among the attributes, each part as the body of a line table.
The attributes between them have other names. -/
inductive Spread (pool : Pool) : List LineEntry → List Attribute → Prop
  | nil : Spread pool [] []
  | part {name : PoolIndex} {part entries : List LineEntry} {attributes : List Attribute}
      (hn : pool.utf8 name = .ok "LineNumberTable") (hp : part.length ≤ 0xFFFF)
      (h : Spread pool entries attributes) :
      Spread pool (part ++ entries) (Attribute.encode form name ⟨part⟩ :: attributes)
  | other {text : String} {a : Attribute} {entries : List LineEntry} {attributes : List Attribute}
      (ht : pool.utf8 a.name = .ok text) (hne : text ≠ "LineNumberTable")
      (h : Spread pool entries attributes) : Spread pool entries (a :: attributes)

theorem Spread.exists_tables {entries : List LineEntry} {attributes : List Attribute}
    (h : Spread pool entries attributes) :
    ∃ tables, List.Forall₂ (fun a table => Attribute.decode form pool a = .ok table)
      attributes tables ∧
      (tables.flatMap fun table => (table.map (·.entries)).getD []) = entries := by
  induction h with
  | nil => exact ⟨[], .nil, rfl⟩
  | @part name part _ _ hn hp _ ih =>
      obtain ⟨tables, ht, rfl⟩ := ih
      have hd := Attribute.decodesExactly_lineTable pool (.encode form name ⟨part⟩)
      exact ⟨some ⟨part⟩ :: tables, .cons ((hd.some_iff ⟨part⟩).mpr ⟨hn, rfl, hp⟩) ht, rfl⟩
  | @other text a _ _ hn hne _ ih =>
      obtain ⟨tables, ht, rfl⟩ := ih
      have hd := (Attribute.decodesExactly_lineTable pool a).none_iff
      exact ⟨none :: tables, .cons (hd.mpr ⟨text, hn, hne⟩) ht, rfl⟩

theorem spread_of_decode {tables : List (Option LineTable)} {attributes : List Attribute}
    (h : List.Forall₂ (fun a table => Attribute.decode form pool a = .ok table)
      attributes tables) :
    Spread pool (tables.flatMap fun table => (table.map (·.entries)).getD []) attributes := by
  induction h with
  | nil => exact .nil
  | @cons a table _ _ ha _ ih =>
      have hd := Attribute.decodesExactly_lineTable pool a
      cases table with
      | none =>
          obtain ⟨text, ht, hne⟩ := hd.none_iff.mp ha
          exact .other ht hne ih
      | some table =>
          obtain ⟨hn, hb, hl⟩ := (hd.some_iff table).mp ha
          cases a
          cases hb
          exact .part hn hl ih

/-! ## Bodies of parts -/

/-- A count in two bytes, and four bytes for each entry that is counted. -/
def IsTableBody (body : Bytes) : Prop :=
  ∃ high low entries, body = high :: low :: entries ∧
    entries.length = 4 * (high.toNat * 0x100 + low.toNat)

/-- What is said of a body that holds fewer or more entries than it counts. -/
inductive Miscounts : Bytes → BodyFault → Prop
  | uncounted {body : Bytes} (h : body.length < 2) : Miscounts body (.unreadable .endOfInput)
  | fewer {high low : UInt8} {entries : Bytes}
      (h : entries.length < 4 * (high.toNat * 0x100 + low.toNat)) :
      Miscounts (high :: low :: entries) (.unreadable .endOfInput)
  | more {high low : UInt8} {entries : Bytes} {n : Nat}
      (h : entries.length = 4 * (high.toNat * 0x100 + low.toNat) + n) (hn : n ≠ 0) :
      Miscounts (high :: low :: entries) (.trailing n)

theorem readMany_of_lt {n : Nat} (done : List LineEntry) (h : body.length < 4 * n) :
    entryLayout.readMany n done body = .error .endOfInput := by
  induction n generalizing done body with
  | zero => omega
  | succ n ih =>
      -- An entry takes four bytes, so the cases are how many of them are there.
      match body with
      | [] | [_] | [_, _] | [_, _, _] => rfl
      | a :: b :: c :: d :: rest => exact ih _ (by simp only [List.length_cons] at h; omega)

theorem readMany_of_le {n : Nat} (done : List LineEntry) (h : 4 * n ≤ body.length) :
    ∃ entries, entryLayout.readMany n done body = .ok (entries, body.drop (4 * n)) := by
  induction n generalizing done body with
  | zero => exact ⟨_, rfl⟩
  | succ n ih =>
      match body with
      | [] | [_] | [_, _] | [_, _, _] => simp only [List.length_cons, List.length_nil] at h; omega
      | a :: b :: c :: d :: rest => exact ih _ (by simp only [List.length_cons] at h; omega)

theorem read_counted (high low : UInt8) (entries : Bytes) :
    layout.read (high :: low :: entries) =
      match entryLayout.readMany (high.toNat * 0x100 + low.toNat) [] entries with
      | .error e => .error e
      | .ok (found, rest) => .ok (⟨found⟩, rest) := by
  simp only [layout, Layout.imap, Layout.list, Layout.u16, Layout.toNat_joined]
  cases entryLayout.readMany (high.toNat * 0x100 + low.toNat) [] entries <;> rfl

theorem Miscounts.readBody_eq (h : Miscounts body fault) :
    Attribute.readBody form body = .error fault := by
  cases h with
  | uncounted h =>
      match body with
      | [] | [_] => rfl
      | _ :: _ :: rest =>
          simp only [List.length_cons] at h
          omega
  | fewer h =>
      apply Attribute.readBody_eq_unreadable_iff.mpr
      simp only [form, read_counted, readMany_of_lt [] h]
  | @more high low entries n h hn =>
      obtain ⟨found, hr⟩ := readMany_of_le [] (h ▸ Nat.le_add_right _ n)
      have hlen : (entries.drop (4 * (high.toNat * 0x100 + low.toNat))).length = n := by
        rw [List.length_drop, h, Nat.add_sub_cancel_left]
      refine Attribute.readBody_eq_trailing_iff.mpr ⟨⟨found⟩, _, ?_, ?_, hlen⟩
      · simp only [form, read_counted, hr]
      · exact List.ne_nil_of_length_pos (hlen ▸ Nat.pos_of_ne_zero hn)

theorem IsTableBody.exists_readBody_eq (h : IsTableBody body) :
    ∃ table, Attribute.readBody form body = .ok table := by
  obtain ⟨high, low, entries, rfl, hl⟩ := h
  obtain ⟨found, hr⟩ := readMany_of_le [] (Nat.le_of_eq hl.symm)
  refine ⟨⟨found⟩, Attribute.readBody_eq_ok_iff.mpr ?_⟩
  simp only [form, read_counted, hr, ← hl, List.drop_length]

theorem isTableBody_or_miscounts (body : Bytes) :
    IsTableBody body ∨ ∃ fault, Miscounts body fault := by
  match body with
  | [] | [_] => exact .inr ⟨_, .uncounted (by simp)⟩
  | high :: low :: entries =>
      rcases Nat.lt_trichotomy entries.length (4 * (high.toNat * 0x100 + low.toNat)) with h | h | h
      · exact .inr ⟨_, .fewer h⟩
      · exact .inl ⟨high, low, entries, rfl, h⟩
      · obtain ⟨n, hn⟩ := Nat.exists_eq_add_of_lt h
        exact .inr ⟨_, .more hn (Nat.succ_ne_zero n)⟩

theorem readBody_eq_error_iff :
    Attribute.readBody form body = .error fault ↔ Miscounts body fault := by
  constructor
  · intro h
    rcases isTableBody_or_miscounts body with hb | ⟨other, hm⟩
    · obtain ⟨table, ht⟩ := hb.exists_readBody_eq
      rw [ht] at h
      cases h
    · rw [hm.readBody_eq] at h
      cases h
      exact hm
  · exact Miscounts.readBody_eq

theorem exists_miscounts_iff : (∃ fault, Miscounts body fault) ↔ ¬ IsTableBody body := by
  constructor
  · intro ⟨fault, hm⟩ hb
    obtain ⟨table, ht⟩ := hb.exists_readBody_eq
    rw [hm.readBody_eq] at ht
    cases ht
  · exact (isTableBody_or_miscounts body).resolve_left

/-! ## Attributes that cannot be joined -/

/-- The attribute has no name, or it is named as a part and does not hold one. -/
def Unjoinable (pool : Pool) (a : Attribute) : Prop :=
  (∀ text, pool.utf8 a.name ≠ .ok text) ∨
    pool.utf8 a.name = .ok "LineNumberTable" ∧ ¬ IsTableBody a.body

/-- The error that the attribute stops joining with. -/
inductive StopsJoining (pool : Pool) (a : Attribute) : ClassFault → Prop
  | nameless {e : ClassFault} (h : pool.utf8 a.name = .error e) : StopsJoining pool a e
  | malformed {fault : BodyFault} (hn : pool.utf8 a.name = .ok "LineNumberTable")
      (hm : Miscounts a.body fault) :
      StopsJoining pool a (.malformedAttribute "LineNumberTable" fault)

theorem decode_eq_error_iff {e : ClassFault} :
    Attribute.decode form pool a = .error e ↔ StopsJoining pool a e := by
  rw [Attribute.decode_eq_error_iff]
  constructor
  · rintro (h | ⟨hn, fault, hf, rfl⟩)
    · exact .nameless h
    · exact .malformed hn (readBody_eq_error_iff.mp hf)
  · intro h
    cases h with
    | nameless h => exact .inl h
    | malformed hn hm => exact .inr ⟨hn, _, readBody_eq_error_iff.mpr hm, rfl⟩

theorem exists_stopsJoining_iff : (∃ e, StopsJoining pool a e) ↔ Unjoinable pool a := by
  constructor
  · intro ⟨e, h⟩
    cases h with
    | nameless h => exact .inl fun text ht => by rw [h] at ht; cases ht
    | malformed hn hm => exact .inr ⟨hn, exists_miscounts_iff.mp ⟨_, hm⟩⟩
  · intro h
    rcases h with h | ⟨hn, hb⟩
    · cases hu : pool.utf8 a.name with
      | ok text => exact absurd hu (h text)
      | error e => exact ⟨e, .nameless hu⟩
    · obtain ⟨fault, hm⟩ := exists_miscounts_iff.mpr hb
      exact ⟨_, .malformed hn hm⟩

theorem exists_decode_eq_ok_iff :
    (∃ table, Attribute.decode form pool a = .ok table) ↔ ¬ Unjoinable pool a := by
  rw [← exists_stopsJoining_iff]
  simp only [← decode_eq_error_iff]
  cases Attribute.decode form pool a <;> simp

end LineTable

/-! ## Joining -/

namespace Code

open LineTable

variable {pool : Pool} {code : Code}

theorem lineTable_eq_ok_iff {entries : List LineEntry} :
    code.lineTable pool = .ok ⟨entries⟩ ↔ Spread pool entries code.attributes := by
  simp only [lineTable, bind_eq_ok_iff, mapM_eq_ok_iff, pure, Except.pure, Except.ok.injEq,
    LineTable.mk.injEq]
  constructor
  · rintro ⟨tables, ht, rfl⟩
    exact spread_of_decode ht
  · exact Spread.exists_tables

theorem lineTable_eq_error_iff {e : ClassFault} :
    code.lineTable pool = .error e ↔ ∃ before a after, code.attributes = before ++ a :: after ∧
      (∀ other ∈ before, ¬ Unjoinable pool other) ∧ StopsJoining pool a e := by
  simp only [lineTable, bind_eq_error_iff, mapM_eq_error_iff, pure, Except.pure, reduceCtorEq,
    and_false, exists_false, or_false, exists_decode_eq_ok_iff, LineTable.decode_eq_error_iff]

/-- What is answered when the line tables of a method body are joined. -/
structure JoinsParts (pool : Pool) (code : Code) : Prop where
  ok_iff : ∀ entries, code.lineTable pool = .ok ⟨entries⟩ ↔ Spread pool entries code.attributes
  fails_iff : (∃ e, code.lineTable pool = .error e) ↔ ∃ a ∈ code.attributes, Unjoinable pool a
  error_iff : ∀ e, code.lineTable pool = .error e ↔ ∃ before a after,
    code.attributes = before ++ a :: after ∧ (∀ other ∈ before, ¬ Unjoinable pool other) ∧
      StopsJoining pool a e

theorem exists_lineTable_eq_error_iff :
    (∃ e, code.lineTable pool = .error e) ↔ ∃ a ∈ code.attributes, Unjoinable pool a := by
  constructor
  · intro ⟨e, he⟩
    obtain ⟨before, a, after, hs, -, ha⟩ := lineTable_eq_error_iff.mp he
    exact ⟨a, by simp [hs], exists_stopsJoining_iff.mp ⟨e, ha⟩⟩
  · intro ⟨a, hm, ha⟩
    cases hl : code.lineTable pool with
    | error e => exact ⟨e, rfl⟩
    | ok table =>
        -- Joining went through every attribute, this one included.
        obtain ⟨tables, ht, -⟩ := bind_eq_ok_iff.mp hl
        exact absurd ha (exists_decode_eq_ok_iff.mp (exists_of_mapM_eq_ok ht hm))

/-- Joining gives back the entries in whatever parts they stand. It fails when some attribute cannot
be joined, with the error of the first of them. -/
theorem lineTable_joins_parts (pool : Pool) (code : Code) : JoinsParts pool code where
  ok_iff _ := lineTable_eq_ok_iff
  fails_iff := exists_lineTable_eq_error_iff
  error_iff _ := lineTable_eq_error_iff

end Code

end ClassSplice
