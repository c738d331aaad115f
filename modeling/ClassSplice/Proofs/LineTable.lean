import ClassSplice.Code
import Mathlib.Data.List.TakeWhile

/-!
# Lines of offsets and lines after a call

The line of an offset is found by walking the table up to the first entry that starts behind the
offset. In a table whose entries stand in order that is the line of the entry with the greatest
start; a table joined from several attributes need not be in order, and then it may be another line
or none.
-/

namespace ClassSplice.LineTable

variable {table : LineTable} {offset line : UInt16} {walked rest : List LineEntry}
  {entry other : LineEntry}

/-! ## The walk -/

/-- The walk to the offset passes `walked` and stops in front of `rest`. -/
structure Walks (table : LineTable) (offset : UInt16) (walked rest : List LineEntry) : Prop where
  entries_eq : table.entries = walked ++ rest
  walked_le : ∀ e ∈ walked, e.start ≤ offset
  lt_next : ∀ next ∈ rest.head?, offset < next.start

theorem exists_walks (table : LineTable) (offset : UInt16) :
    ∃ walked rest, table.Walks offset walked rest := by
  refine ⟨_, _, List.takeWhile_append_dropWhile (p := (·.start ≤ offset)).symm, ?_, ?_⟩
  · intro e he
    simpa using List.mem_takeWhile_imp he
  · intro next hnext
    have hstop := List.head?_dropWhile_not (fun e => decide (e.start ≤ offset)) table.entries
    rw [Option.mem_def] at hnext
    simpa [hnext, UInt16.not_le] using hstop

theorem Walks.lineAt_eq (h : table.Walks offset walked rest) :
    table.lineAt offset = walked.getLast?.map (·.line) := by
  have hrest : rest.takeWhile (fun e => decide (e.start ≤ offset)) = [] := by
    cases rest with
    | nil => rfl
    | cons next rest =>
        have hlt := h.lt_next next rfl
        exact List.takeWhile_cons_of_neg (by simpa [UInt16.not_le] using hlt)
  rw [lineAt, h.entries_eq, List.takeWhile_append_of_pos (by simpa using h.walked_le), hrest,
    List.append_nil]

/-- The line of an offset is that of the last entry that the walk to it passes. -/
theorem lineAt_eq_some_iff :
    table.lineAt offset = some line ↔
      ∃ front last rest, table.Walks offset (front ++ [last]) rest ∧ last.line = line := by
  constructor
  · intro h
    obtain ⟨walked, rest, hw⟩ := table.exists_walks offset
    rw [hw.lineAt_eq] at h
    obtain rfl | ⟨front, last, rfl⟩ := walked.eq_nil_or_concat
    · cases h
    · rw [List.concat_eq_append] at h hw
      exact ⟨front, last, rest, hw, by simpa using h⟩
  · rintro ⟨front, last, rest, hw, rfl⟩
    simpa using hw.lineAt_eq

/-! ## Tables in order -/

/-- The entry has the greatest start up to the offset, and is the last of those with this start. -/
def Governs (table : LineTable) (offset : UInt16) (entry : LineEntry) : Prop :=
  ∃ front back, table.entries = front ++ entry :: back ∧ entry.start ≤ offset ∧
    (∀ e ∈ front, e.start ≤ offset → e.start ≤ entry.start) ∧
    ∀ e ∈ back, e.start ≤ offset → e.start < entry.start

/-- The line found at the offset is that of the entry that governs it, and none is found only where
no entry starts up to the offset. -/
structure Governed (table : LineTable) (offset : UInt16) : Prop where
  some_iff : ∀ line, table.lineAt offset = some line ↔
    ∃ entry, table.Governs offset entry ∧ entry.line = line
  none_iff : table.lineAt offset = none ↔ ∀ e ∈ table.entries, offset < e.start

/-- An entry that starts up to the offset has no entry with a greater start in front of it. -/
def InOrderUpTo (table : LineTable) (offset : UInt16) : Prop :=
  table.entries.Pairwise fun e f => f.start ≤ offset → e.start ≤ f.start

theorem Governs.unique (h : table.Governs offset entry) (h' : table.Governs offset other) :
    entry = other := by
  obtain ⟨front, back, hs, hle, hf, hb⟩ := h
  obtain ⟨front', back', hs', hle', hf', hb'⟩ := h'
  rw [hs, List.append_eq_append_iff] at hs'
  -- Of two entries that govern the offset one would stand in front of the other.
  obtain ⟨_ | ⟨e, between⟩, hfront, hsplit⟩ | ⟨_ | ⟨e, between⟩, hfront, hsplit⟩ := hs'
  · exact (List.cons.inj hsplit).1
  · obtain ⟨rfl, rfl⟩ := List.cons.inj hsplit
    exact absurd (hb other (by simp) hle') (UInt16.not_lt.mpr (hf' entry (by simp [hfront]) hle))
  · exact (List.cons.inj hsplit).1.symm
  · obtain ⟨rfl, rfl⟩ := List.cons.inj hsplit
    exact absurd (hb' entry (by simp) hle) (UInt16.not_lt.mpr (hf other (by simp [hfront]) hle'))

/-- Behind the walk through a table in order no entry starts up to the offset. -/
theorem Walks.lt_of_mem_rest (h : table.Walks offset walked rest) (ho : table.InOrderUpTo offset)
    (hm : entry ∈ rest) : offset < entry.start := by
  cases rest with
  | nil => cases hm
  | cons next rest =>
      have hnext := h.lt_next next rfl
      obtain rfl | hm := List.mem_cons.mp hm
      · exact hnext
      · rw [InOrderUpTo, h.entries_eq, List.pairwise_append, List.pairwise_cons] at ho
        by_contra hle
        exact UInt16.not_le.mpr hnext
          (UInt16.le_trans (ho.2.1.1 entry hm (UInt16.not_lt.mp hle)) (UInt16.not_lt.mp hle))

theorem Walks.governs_last (h : table.Walks offset (walked ++ [entry]) rest)
    (ho : table.InOrderUpTo offset) : table.Governs offset entry := by
  refine ⟨walked, rest, by simpa using h.entries_eq, h.walked_le entry (by simp), ?_, ?_⟩
  · intro e he _
    rw [InOrderUpTo, h.entries_eq, List.append_assoc, List.pairwise_append] at ho
    exact ho.2.2 e he entry (by simp) (h.walked_le entry (by simp))
  · intro e he hle
    exact absurd hle (UInt16.not_le.mpr (h.lt_of_mem_rest ho he))

/-- In a table in order the walk to an offset ends with the entry that governs it. -/
theorem Governs.lineAt_eq (h : table.Governs offset entry) (ho : table.InOrderUpTo offset) :
    table.lineAt offset = some entry.line := by
  obtain ⟨walked, rest, hw⟩ := table.exists_walks offset
  obtain rfl | ⟨walked, last, rfl⟩ := walked.eq_nil_or_concat
  · obtain ⟨front, back, hs, hle, -⟩ := h
    have hmem : entry ∈ rest := by
      rw [← List.nil_append rest, ← hw.entries_eq, hs]
      simp
    exact absurd hle (UInt16.not_le.mpr (hw.lt_of_mem_rest ho hmem))
  · rw [List.concat_eq_append] at hw
    obtain rfl := (hw.governs_last ho).unique h
    simpa using hw.lineAt_eq

theorem Walks.governed_of_nil (h : table.Walks offset [] rest) (ho : table.InOrderUpTo offset) :
    table.Governed offset := by
  have hnone : table.lineAt offset = none := h.lineAt_eq
  have hlt : ∀ e ∈ table.entries, offset < e.start := by
    rw [h.entries_eq]
    exact fun e he => h.lt_of_mem_rest ho he
  refine ⟨fun line => ?_, iff_of_true hnone hlt⟩
  rw [hnone]
  refine iff_of_false (by simp) ?_
  rintro ⟨entry, ⟨front, back, hs, hle, -⟩, -⟩
  exact UInt16.not_le.mpr (hlt entry (by simp [hs])) hle

theorem Walks.governed_of_last (h : table.Walks offset (walked ++ [entry]) rest)
    (ho : table.InOrderUpTo offset) : table.Governed offset := by
  have hg := h.governs_last ho
  have hsome : table.lineAt offset = some entry.line := by simpa using h.lineAt_eq
  refine ⟨fun line => ?_, ?_⟩
  · rw [hsome, Option.some_inj]
    exact ⟨fun hl => ⟨entry, hg, hl⟩, fun ⟨other, he, hl⟩ => hg.unique he ▸ hl⟩
  · rw [hsome]
    refine iff_of_false (by simp) fun hlt => ?_
    have hle := h.walked_le entry (by simp)
    exact UInt16.not_le.mpr (hlt entry (by simp [h.entries_eq])) hle

/-- In a table in order the line of an offset is that of the last entry with the greatest start up
to the offset. -/
theorem governed_of_inOrder (h : table.InOrderUpTo offset) : table.Governed offset := by
  obtain ⟨walked, rest, hw⟩ := table.exists_walks offset
  obtain rfl | ⟨walked, last, rfl⟩ := walked.eq_nil_or_concat
  · exact hw.governed_of_nil h
  · rw [List.concat_eq_append] at hw
    exact hw.governed_of_last h

theorem governed_repeated_start :
    InOrderUpTo ⟨[⟨0, 10⟩, ⟨4, 11⟩, ⟨9, 13⟩, ⟨9, 14⟩, ⟨30, 1⟩, ⟨20, 11⟩]⟩ 9 ∧
      Governed ⟨[⟨0, 10⟩, ⟨4, 11⟩, ⟨9, 13⟩, ⟨9, 14⟩, ⟨30, 1⟩, ⟨20, 11⟩]⟩ 9 := by
  have ho : InOrderUpTo ⟨[⟨0, 10⟩, ⟨4, 11⟩, ⟨9, 13⟩, ⟨9, 14⟩, ⟨30, 1⟩, ⟨20, 11⟩]⟩ 9 := by
    unfold InOrderUpTo
    decide
  exact ⟨ho, governed_of_inOrder ho⟩

/-! ## Tables out of order -/

/-- Two tables one after the other, the later lines in front. -/
def joinedTable : LineTable := ⟨[⟨4, 20⟩, ⟨8, 21⟩, ⟨0, 10⟩, ⟨2, 11⟩]⟩

def joinedCode : Code where
  maxStack := 0
  maxLocals := 0
  bytecode := []
  handlers := []
  attributes := [.encode form 1 ⟨[⟨4, 20⟩, ⟨8, 21⟩]⟩, .encode form 1 ⟨[⟨0, 10⟩, ⟨2, 11⟩]⟩]

/-- A body with two tables can have a line at an offset and none is found, or the line of an earlier
start is found. -/
theorem joinedTable_not_governed :
    joinedCode.lineTable (.ofList [.utf8 form.name]) = .ok joinedTable ∧
      (joinedTable.lineAt 3 = none ∧ joinedTable.Governs 3 ⟨2, 11⟩) ∧
      (joinedTable.lineAt 9 = some 11 ∧ joinedTable.Governs 9 ⟨8, 21⟩) ∧
      ¬ joinedTable.Governed 3 ∧ ¬ joinedTable.Governed 9 := by
  have hg : joinedTable.Governs 3 ⟨2, 11⟩ :=
    ⟨[⟨4, 20⟩, ⟨8, 21⟩, ⟨0, 10⟩], [], rfl, by decide, by decide, by decide⟩
  have hg' : joinedTable.Governs 9 ⟨8, 21⟩ :=
    ⟨[⟨4, 20⟩], [⟨0, 10⟩, ⟨2, 11⟩], rfl, by decide, by decide, by decide⟩
  refine ⟨by decide +kernel, ⟨by decide, hg⟩, ⟨by decide, hg'⟩, ?_, ?_⟩
  · intro h
    exact absurd ((h.some_iff 11).mpr ⟨_, hg, rfl⟩) (by decide)
  · intro h
    exact absurd ((h.some_iff 21).mpr ⟨_, hg', rfl⟩) (by decide)

/-! ## Insertion lines -/

/-- An insertion line comes from an entry that has another one in front of it. -/
theorem exists_entry_of_insertionLine (h : table.insertionLine offset = .ok line) :
    ∃ k entry, 1 ≤ k ∧ table.entries[k]? = some entry ∧ entry.line = line := by
  unfold insertionLine at h
  split at h
  · cases h
  · rename_i found _
    split at h
    · cases h
    · cases h
    · rename_i first next rest hd
      cases h
      obtain ⟨front, hs⟩ :=
        List.dropWhile_suffix (l := table.entries) (fun e => decide (e.line ≠ found))
      refine ⟨front.length + 1, next, by omega, ?_, rfl⟩
      rw [← hs, hd]
      simp

end ClassSplice.LineTable
