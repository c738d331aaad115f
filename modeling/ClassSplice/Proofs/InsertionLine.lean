import ClassSplice.Proofs.LineTable
import Mathlib.Order.Bounds.Basic
import Mathlib.Order.Nat

/-!
# Where inserted code goes

The insertion line is that of the entry behind the first entry of the call's own line. This entry
starts behind the call only if the call's entry is the first of its line. Otherwise code goes to a
line that starts no later than the call does, and the table is never exhausted.
-/

namespace ClassSplice.LineTable

variable {table : LineTable} {offset line : UInt16} {walked rest : List LineEntry} {k p q : Nat}
  {entry next own : LineEntry}

/-! ## Positions -/

/-- The first `k` entries start up to the offset, and no more than these. -/
def Reaches (table : LineTable) (offset : UInt16) (k : Nat) : Prop :=
  IsGreatest {n | n ≤ table.entries.length ∧ ∀ e ∈ table.entries.take n, e.start ≤ offset} k

/-- The entry at position `p` is the first one of the line. -/
structure FirstOf (table : LineTable) (line : UInt16) (p : Nat) : Prop where
  line_eq : ∃ entry, table.entries[p]? = some entry ∧ entry.line = line
  ne_before : ∀ q < p, ∀ e, table.entries[q]? = some e → e.line ≠ line

theorem Walks.reaches (h : table.Walks offset walked rest) :
    table.Reaches offset walked.length := by
  refine ⟨⟨by simp [h.entries_eq], by simpa [h.entries_eq] using h.walked_le⟩, ?_⟩
  rintro n ⟨hn, hle⟩
  by_contra hlt
  rw [Nat.not_le] at hlt
  cases rest with
  | nil => simp [h.entries_eq] at hn; omega
  | cons next rest =>
      have hmem : next ∈ table.entries.take n :=
        List.mem_take_iff_getElem.mpr ⟨walked.length, by simp [h.entries_eq]; omega,
          by simp [h.entries_eq]⟩
      exact UInt16.not_le.mpr (h.lt_next next rfl) (hle next hmem)

theorem Reaches.start_le (h : table.Reaches offset k) (hp : p < k)
    (he : table.entries[p]? = some entry) : entry.start ≤ offset := by
  obtain ⟨hlt, rfl⟩ := List.getElem?_eq_some_iff.mp he
  exact h.1.2 _ (List.mem_take_iff_getElem.mpr ⟨p, by omega, rfl⟩)

theorem Reaches.lt_start (h : table.Reaches offset k) (hn : table.entries[k]? = some next) :
    offset < next.start := by
  obtain ⟨hlt, rfl⟩ := List.getElem?_eq_some_iff.mp hn
  by_contra hle
  -- Otherwise one more entry would start up to the offset.
  have hmem : k + 1 ∈ {n | n ≤ table.entries.length ∧
      ∀ e ∈ table.entries.take n, e.start ≤ offset} := by
    refine ⟨hlt, fun e he => ?_⟩
    obtain ⟨i, hi, rfl⟩ := List.mem_take_iff_getElem.mp he
    rcases Nat.lt_succ_iff_lt_or_eq.mp (show i < k + 1 by omega) with hik | rfl
    · exact h.start_le hik (List.getElem?_eq_getElem _)
    · exact UInt16.not_lt.mp hle
  have := h.2 hmem
  omega

theorem FirstOf.unique (h : table.FirstOf line p) (h' : table.FirstOf line q) : p = q := by
  obtain ⟨e, he, hl⟩ := h.line_eq
  obtain ⟨e', he', hl'⟩ := h'.line_eq
  rcases Nat.lt_trichotomy p q with hlt | heq | hlt
  · exact absurd hl (h'.ne_before p hlt e he)
  · exact heq
  · exact absurd hl' (h.ne_before q hlt e' he')

theorem exists_firstOf (h : table.entries[k]? = some own) :
    ∃ p ≤ k, table.FirstOf own.line p := by
  classical
  have hex : ∃ p, ∃ e : LineEntry, table.entries[p]? = some e ∧ e.line = own.line :=
    ⟨k, own, h, rfl⟩
  exact ⟨Nat.find hex, Nat.find_min' hex ⟨own, h, rfl⟩, Nat.find_spec hex,
    fun q hq e he hl => Nat.find_min hex hq ⟨e, he, hl⟩⟩

/-! ## The entry that is chosen -/

theorem FirstOf.insertionLine_eq (h : table.FirstOf line p) (hl : table.lineAt offset = some line) :
    table.insertionLine offset =
      match table.entries[p + 1]? with
      | some next => .ok next.line
      | none => .error (.exhausted line) := by
  obtain ⟨first, hf, hline⟩ := h.line_eq
  obtain ⟨hlt, rfl⟩ := List.getElem?_eq_some_iff.mp hf
  have hfront : ∀ e ∈ table.entries.take p, decide (e.line ≠ line) = true := by
    intro e he
    obtain ⟨q, hq, rfl⟩ := List.mem_take_iff_getElem.mp he
    simpa using h.ne_before q (by omega) _ (List.getElem?_eq_getElem _)
  -- The second search skips just the entries in front of the first one of the line.
  have hdrop : table.entries.dropWhile (fun e : LineEntry => decide (e.line ≠ line)) =
      table.entries[p] :: table.entries.drop (p + 1) := by
    conv_lhs => rw [← List.take_append_drop p table.entries]
    rw [List.dropWhile_append_of_pos hfront, List.drop_eq_getElem_cons hlt,
      List.dropWhile_cons_of_neg (by simpa using hline)]
  rw [insertionLine, hl, ← List.head?_drop]
  simp only [hdrop]
  cases table.entries.drop (p + 1) <;> rfl

theorem Walks.insertionLine_of_nil (h : table.Walks offset [] rest) :
    table.insertionLine offset = .error (.noEnclosingLine offset) := by
  have hnone : table.lineAt offset = none := h.lineAt_eq
  rw [insertionLine, hnone]

theorem FirstOf.insertionLine_ne_noEnclosingLine (h : table.FirstOf line p)
    (hl : table.lineAt offset = some line) (o : UInt16) :
    table.insertionLine offset ≠ .error (.noEnclosingLine o) := by
  rw [h.insertionLine_eq hl]
  split <;> simp

theorem FirstOf.lands_behind (h : table.FirstOf line k) (hl : table.lineAt offset = some line)
    (hr : table.Reaches offset (k + 1)) :
    (∀ next, table.entries[k + 1]? = some next →
      table.insertionLine offset = .ok next.line ∧ offset < next.start) ∧
    (table.insertionLine offset = .error (.exhausted line) ↔ k + 1 = table.entries.length) := by
  rw [h.insertionLine_eq hl]
  refine ⟨fun next hn => ⟨by rw [hn], hr.lt_start hn⟩, ?_⟩
  have hle : k + 1 ≤ table.entries.length := hr.1.1
  cases hn : table.entries[k + 1]? with
  | none =>
      have := List.getElem?_eq_none_iff.mp hn
      exact iff_of_true rfl (by omega)
  | some next =>
      have := (List.getElem?_eq_some_iff.mp hn).1
      exact iff_of_false (by simp) (by omega)

/-- When an earlier entry has the line of the call, code goes in front of the call's entry or right
to it. -/
theorem FirstOf.lands_within (h : table.FirstOf line p) (hl : table.lineAt offset = some line)
    (hr : table.Reaches offset (k + 1)) (hp : p < k) :
    ∃ next, table.entries[p + 1]? = some next ∧ next.start ≤ offset ∧
      table.insertionLine offset = .ok next.line := by
  have hle : k + 1 ≤ table.entries.length := hr.1.1
  have hn : table.entries[p + 1]? = some table.entries[p + 1] := List.getElem?_eq_getElem (by omega)
  exact ⟨_, hn, hr.start_le (by omega) hn, by rw [h.insertionLine_eq hl, hn]⟩

theorem FirstOf.lt_start_iff (h : table.FirstOf own.line p) (hr : table.Reaches offset (k + 1))
    (hk : table.entries[k]? = some own) (hn : table.entries[p + 1]? = some next) :
    offset < next.start ↔ table.FirstOf own.line k := by
  obtain ⟨q, hq, hfirst⟩ := exists_firstOf hk
  obtain rfl := h.unique hfirst
  rcases Nat.lt_or_eq_of_le hq with hlt | rfl
  · have hle : next.start ≤ offset := hr.start_le (by omega) hn
    refine iff_of_false (UInt16.not_lt.mpr hle) fun hf => ?_
    exact absurd (h.unique hf) (by omega)
  · exact iff_of_true (hr.lt_start hn) h

/-- The first `k` entries are those that start up to the offset. Without any, and only then, the
offset has no line. Otherwise code goes behind the first entry of the last one's line. This is
behind the call exactly when that first entry is the last one itself, and only then the table can be
exhausted. -/
theorem insertionLine_lands (table : LineTable) (offset : UInt16) :
    ∃ k, table.Reaches offset k ∧
      (∀ o, table.insertionLine offset = .error (.noEnclosingLine o) ↔ k = 0 ∧ o = offset) ∧
      ∀ j own, k = j + 1 → table.entries[j]? = some own →
        (∃ p ≤ j, table.FirstOf own.line p) ∧
        (table.FirstOf own.line j →
          (∀ next, table.entries[k]? = some next →
            table.insertionLine offset = .ok next.line ∧ offset < next.start) ∧
          (table.insertionLine offset = .error (.exhausted own.line) ↔
            k = table.entries.length)) ∧
        (∀ p < j, table.FirstOf own.line p →
          ∃ next, table.entries[p + 1]? = some next ∧ next.start ≤ offset ∧
            table.insertionLine offset = .ok next.line) ∧
        ∀ p next, table.FirstOf own.line p → table.entries[p + 1]? = some next →
          (offset < next.start ↔ table.FirstOf own.line j) := by
  obtain ⟨walked, rest, hw⟩ := table.exists_walks offset
  refine ⟨walked.length, hw.reaches, ?_⟩
  obtain rfl | ⟨front, last, rfl⟩ := walked.eq_nil_or_concat
  · refine ⟨fun o => ?_, fun j own hj => by cases hj⟩
    simp [hw.insertionLine_of_nil, eq_comm]
  · rw [List.concat_eq_append] at hw ⊢
    have hr := hw.reaches
    have hl : table.lineAt offset = some last.line := by simpa using hw.lineAt_eq
    have hlast : table.entries[front.length]? = some last := by simp [hw.entries_eq]
    rw [List.length_append, List.length_singleton] at hr ⊢
    refine ⟨fun o => ?_, ?_⟩
    · obtain ⟨p, -, hp⟩ := exists_firstOf hlast
      exact iff_of_false (hp.insertionLine_ne_noEnclosingLine hl o) (by simp)
    · intro j own hj hown
      obtain rfl : front.length = j := Nat.succ.inj hj
      obtain rfl : last = own := Option.some.inj (hlast.symm.trans hown)
      exact ⟨exists_firstOf hlast, fun hf => hf.lands_behind hl hr,
        fun p hp hf => hf.lands_within hl hr hp, fun p next hf hn => hf.lt_start_iff hr hlast hn⟩

-- The loop at offset 13 comes back to line 21, whose first entry has line 22 behind it.
example : insertionLine ⟨[⟨0, 20⟩, ⟨3, 21⟩, ⟨8, 22⟩, ⟨12, 21⟩, ⟨15, 24⟩]⟩ 13 = .ok 22 := rfl

end ClassSplice.LineTable
