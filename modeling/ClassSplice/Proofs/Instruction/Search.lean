import ClassSplice.Proofs.Instruction.Key
import ClassSplice.Proofs.Instruction.Walk
import Mathlib.Order.Bounds.Basic

/-!
# The search in decoded code

The search gives an answer exactly when the code decodes, and then it is the last instruction that
has the bytes of some encoding. Code that is too long or does not decode to its end gives its error.
-/

namespace ClassSplice

/-! ## The last match -/

/-- The instruction has one of the encodings. -/
def Instruction.Matches (encodings : List Encoding) (i : Instruction) : Prop :=
  ∃ e ∈ encodings, e.accepts i.bytes = true

/-- In a list with increasing offsets, the last element with a property has the greatest offset. -/
theorem getLast?_filter_eq_some_iff {instructions : List Instruction} {p : Instruction → Bool}
    (hs : instructions.Pairwise fun i j => i.offset < j.offset) {offset : UInt16} :
    (instructions.filter p).getLast?.map (·.offset) = some offset ↔
      (∃ i ∈ instructions, i.offset = offset ∧ p i) ∧
        ∀ i ∈ instructions, p i → i.offset ≤ offset := by
  have hmem : ∀ i, i ∈ instructions.filter p ↔ i ∈ instructions ∧ p i := fun i => List.mem_filter
  have hs' := hs.filter p
  rcases List.eq_nil_or_concat (instructions.filter p) with hl | ⟨front, last, hl⟩ <;>
    rw [hl] at hmem hs' ⊢
  · simp only [List.getLast?_nil, Option.map_none, reduceCtorEq, false_iff]
    rintro ⟨⟨i, hi, -, hp⟩, -⟩
    simpa using (hmem i).mpr ⟨hi, hp⟩
  · rw [List.concat_eq_append] at hmem hs' ⊢
    have hlast := (hmem last).mp (by simp)
    have hfront : ∀ i ∈ front, i.offset < last.offset := fun i hi =>
      (List.pairwise_append.mp hs').2.2 i hi last (by simp)
    simp only [List.getLast?_append, List.getLast?_singleton, Option.some_or, Option.map_some,
      Option.some.injEq]
    constructor
    · rintro rfl
      refine ⟨⟨last, hlast.1, rfl, hlast.2⟩, fun i hi hp => ?_⟩
      rcases List.mem_append.mp ((hmem i).mpr ⟨hi, hp⟩) with hi | hi
      · exact UInt16.le_of_lt (hfront i hi)
      · rw [List.mem_singleton.mp hi]
        exact UInt16.le_refl _
    · rintro ⟨⟨i, hi, rfl, hp⟩, hmax⟩
      rcases List.mem_append.mp ((hmem i).mpr ⟨hi, hp⟩) with hi | hi
      · exact UInt16.le_antisymm (hmax last hlast.1 hlast.2) (UInt16.le_of_lt (hfront i hi))
      · rw [List.mem_singleton.mp hi]

theorem lastOccurrence_eq_ok_iff {code : Bytes} {encodings : List Encoding}
    {found : Option UInt16} :
    lastOccurrence code encodings = .ok found ↔
      ∃ instructions, code.length < 0x10000 ∧ Decodes 0 code instructions ∧
        (instructions.filter fun i => encodings.any (·.accepts i.bytes)).getLast?.map (·.offset) =
          found := by
  constructor
  · intro h
    unfold lastOccurrence at h
    split at h
    · cases h
    · cases h
    · rename_i instructions hw
      obtain ⟨hl, hd⟩ := Walk.ofCode_eq_ok_iff.mp hw
      cases h
      exact ⟨instructions, hl, hd, rfl⟩
  · rintro ⟨instructions, hl, hd, rfl⟩
    simp [lastOccurrence, Walk.ofCode_eq_ok_iff.mpr ⟨hl, hd⟩]

theorem lastOccurrence_eq_some_iff {code : Bytes} {encodings : List Encoding} {offset : UInt16} :
    lastOccurrence code encodings = .ok (some offset) ↔
      ∃ instructions, code.length < 0x10000 ∧ Decodes 0 code instructions ∧
        (∃ i ∈ instructions, i.offset = offset ∧ i.Matches encodings) ∧
        ∀ i ∈ instructions, i.Matches encodings → i.offset ≤ offset := by
  rw [lastOccurrence_eq_ok_iff]
  refine exists_congr fun instructions => and_congr_right fun hl => and_congr_right fun hd => ?_
  rw [getLast?_filter_eq_some_iff (hd.pairwise_lt (by omega))]
  simp only [List.any_eq_true, Instruction.Matches]

theorem lastOccurrence_eq_none_iff {code : Bytes} {encodings : List Encoding} :
    lastOccurrence code encodings = .ok none ↔
      ∃ instructions, code.length < 0x10000 ∧ Decodes 0 code instructions ∧
        ∀ i ∈ instructions, ¬ i.Matches encodings := by
  rw [lastOccurrence_eq_ok_iff]
  simp [Instruction.Matches]

/-! ## Code that breaks off -/

/-- Behind what decodes there are bytes that no instruction starts with. -/
def BreaksOff (code : Bytes) (e : ScanError) : Prop :=
  ∃ front left instructions, code = front ++ left ∧ Decodes 0 front instructions ∧
    Blocked (UInt16.ofNat front.length) left e

theorem breaksOff_iff {code : Bytes} {e : ScanError} (hl : code.length < 0x10000) :
    BreaksOff code e ↔ ∃ instructions, Walk.ofCode code = .ok ⟨instructions, some e⟩ := by
  simp only [Walk.ofCode_eq_walk_iff, hl, true_and]
  constructor
  · rintro ⟨front, left, instructions, hcode, hd, hb⟩
    exact ⟨instructions, front, left, hcode, hd, .blocked hb⟩
  · rintro ⟨instructions, front, left, hcode, hd, hs⟩
    exact ⟨front, left, instructions, hcode, hd, (hs.eq_some_iff e).mp rfl⟩

theorem BreaksOff.ne_codeTooLong {code : Bytes} {e : ScanError} (h : BreaksOff code e) (n : Nat) :
    e ≠ .codeTooLong n := by
  obtain ⟨front, left, instructions, -, -, hb⟩ := h
  rintro rfl
  cases hb

theorem lastOccurrence_eq_error_iff {code : Bytes} {encodings : List Encoding} {e : ScanError} :
    lastOccurrence code encodings = .error e ↔
      (0x10000 ≤ code.length ∧ e = .codeTooLong code.length) ∨
        (code.length < 0x10000 ∧ BreaksOff code e) := by
  rcases Nat.lt_or_ge code.length 0x10000 with hl | hl
  · have hw : Walk.ofCode code = .ok (Walk.after [] 0 code) := if_pos hl
    simp only [lastOccurrence, breaksOff_iff hl, hw, hl, Nat.not_le.mpr hl, false_and, false_or,
      true_and, Except.ok.injEq]
    cases hwalk : Walk.after [] 0 code with
    | mk instructions fault =>
        cases fault with
        | none => simp
        | some e' => simp
  · have hw : Walk.ofCode code = .error (.codeTooLong code.length) := if_neg (Nat.not_lt.mpr hl)
    simp only [lastOccurrence, hw, Except.error.injEq, hl, true_and, Nat.not_lt.mpr hl, false_and,
      or_false, eq_comm]

/-! ## The whole answer -/

theorem Instruction.matches_iff_bytes {encodings : List Encoding} {i : Instruction}
    (h : IsInstruction i.bytes) : i.Matches encodings ↔ ∃ e ∈ encodings, e.bytes = i.bytes := by
  have hle := h.length_le
  simp only [Matches, Encoding.accepts_iff]
  constructor
  · rintro ⟨e, he, hb, -⟩
    exact ⟨e, he, hb⟩
  · rintro ⟨e, he, hb⟩
    exact ⟨e, he, hb, by rw [hb]; omega⟩

/-- Where an instruction stands that has the bytes of some encoding. -/
def occurrences (instructions : List Instruction) (encodings : List Encoding) : Set UInt16 :=
  {offset | ∃ i ∈ instructions, i.offset = offset ∧ ∃ e ∈ encodings, e.bytes = i.bytes}

theorem mem_occurrences_iff {code : Bytes} {instructions : List Instruction}
    {encodings : List Encoding} {offset : UInt16} (hl : code.length < 0x10000)
    (hd : Decodes 0 code instructions) :
    offset ∈ occurrences instructions encodings ↔
      ∃ i ∈ instructions, i.offset = offset ∧ i.Matches encodings := by
  refine exists_congr fun i => and_congr_right fun hi => and_congr_right fun _ => ?_
  exact (Instruction.matches_iff_bytes (hd.mem_split (by omega) hi).1).symm

theorem lastOccurrence_eq_some_iff_isGreatest {code : Bytes} {encodings : List Encoding}
    {offset : UInt16} :
    lastOccurrence code encodings = .ok (some offset) ↔
      ∃ instructions, code.length < 0x10000 ∧ Decodes 0 code instructions ∧
        IsGreatest (occurrences instructions encodings) offset := by
  rw [lastOccurrence_eq_some_iff]
  refine exists_congr fun instructions => and_congr_right fun hl => and_congr_right fun hd => ?_
  rw [IsGreatest, mem_occurrences_iff hl hd]
  refine and_congr_right fun _ => ⟨fun h o ho => ?_, fun h i hi hm => ?_⟩
  · obtain ⟨i, hi, rfl, hm⟩ := (mem_occurrences_iff hl hd).mp ho
    exact h i hi hm
  · exact h ((mem_occurrences_iff hl hd).mpr ⟨i, hi, rfl, hm⟩)

theorem lastOccurrence_eq_none_iff_empty {code : Bytes} {encodings : List Encoding} :
    lastOccurrence code encodings = .ok none ↔
      ∃ instructions, code.length < 0x10000 ∧ Decodes 0 code instructions ∧
        occurrences instructions encodings = ∅ := by
  rw [lastOccurrence_eq_none_iff]
  refine exists_congr fun instructions => and_congr_right fun hl => and_congr_right fun hd => ?_
  simp only [Set.eq_empty_iff_forall_notMem, mem_occurrences_iff hl hd, not_exists, not_and]
  constructor
  · rintro h _ i hi rfl
    exact h i hi
  · exact fun h i hi => h _ i hi rfl

/-- Only the set of the encodings counts. -/
theorem lastOccurrence_congr {code : Bytes} {encodings others : List Encoding}
    (h : ∀ e, e ∈ others ↔ e ∈ encodings) :
    lastOccurrence code others = lastOccurrence code encodings := by
  have hany : ∀ p : Encoding → Bool, others.any p = encodings.any p := by
    intro p
    rw [Bool.eq_iff_iff, List.any_eq_true, List.any_eq_true]
    exact exists_congr fun e => and_congr_left fun _ => h e
  simp only [lastOccurrence, hany]

/-- Code that is too long, or that does not decode to its end, gives its error whatever matches in
it. Otherwise the answer is the greatest offset at which an instruction has the bytes of some
encoding. The encodings count as a set, and no answer lies inside an instruction. -/
theorem lastOccurrence_determined (code : Bytes) (encodings : List Encoding) :
    (∀ n, lastOccurrence code encodings = .error (.codeTooLong n) ↔
      0x10000 ≤ code.length ∧ n = code.length) ∧
    (code.length < 0x10000 → ∀ e, lastOccurrence code encodings = .error e ↔ BreaksOff code e) ∧
    (∀ offset, lastOccurrence code encodings = .ok (some offset) ↔
      ∃ instructions, code.length < 0x10000 ∧ Decodes 0 code instructions ∧
        IsGreatest (occurrences instructions encodings) offset) ∧
    (lastOccurrence code encodings = .ok none ↔
      ∃ instructions, code.length < 0x10000 ∧ Decodes 0 code instructions ∧
        occurrences instructions encodings = ∅) ∧
    (∀ others, (∀ e, e ∈ others ↔ e ∈ encodings) →
      lastOccurrence code others = lastOccurrence code encodings) ∧
    ∀ offset instructions, lastOccurrence code encodings = .ok (some offset) →
      Decodes 0 code instructions → ∀ i ∈ instructions, i.offset < offset →
        i.offset.toNat + i.bytes.length ≤ offset.toNat := by
  refine ⟨fun n => ?_, fun hl e => ?_, fun offset => lastOccurrence_eq_some_iff_isGreatest,
    lastOccurrence_eq_none_iff_empty, fun others => lastOccurrence_congr, ?_⟩
  · rw [lastOccurrence_eq_error_iff]
    constructor
    · rintro (⟨hl, he⟩ | ⟨-, hb⟩)
      · exact ⟨hl, ScanError.codeTooLong.inj he⟩
      · exact absurd rfl (hb.ne_codeTooLong n)
    · rintro ⟨hl, rfl⟩
      exact .inl ⟨hl, rfl⟩
  · rw [lastOccurrence_eq_error_iff]
    constructor
    · rintro (⟨hlong, -⟩ | ⟨-, hb⟩)
      · omega
      · exact hb
    · exact fun hb => .inr ⟨hl, hb⟩
  · intro offset instructions h hd i hi hlt
    obtain ⟨instructions', hl, hd', ⟨j, hj, rfl, -⟩, -⟩ := lastOccurrence_eq_some_iff.mp h
    obtain rfl := hd.unique hd'
    exact hd.end_le_of_lt (by omega) hi hj hlt

end ClassSplice
