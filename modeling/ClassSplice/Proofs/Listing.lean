import ClassSplice.Listing
import ClassSplice.Proofs.CallSite
import ClassSplice.Proofs.LineTable

/-!
# Source lines in a listing

A listing shows in front of an instruction the line of the first entry that starts there. The line
that a splice takes the instruction to be on comes, in a table in order, from the last of these
entries. So the two agree exactly where the first and the last entry have one line, and a table may
well have several entries with one start.
-/

namespace ClassSplice

/-! ## Entries that start at an offset -/

namespace LineTable

variable {table : LineTable} {offset line : UInt16} {entry : LineEntry}

/-- Of the entries that start at the offset, the first. -/
def FirstAt (table : LineTable) (offset : UInt16) (entry : LineEntry) : Prop :=
  ∃ front back, table.entries = front ++ entry :: back ∧ entry.start = offset ∧
    ∀ e ∈ front, e.start ≠ offset

/-- Of the entries that start at the offset, the last. -/
def LastAt (table : LineTable) (offset : UInt16) (entry : LineEntry) : Prop :=
  ∃ front back, table.entries = front ++ entry :: back ∧ entry.start = offset ∧
    ∀ e ∈ back, e.start ≠ offset

theorem lineStartingAt_eq_some_iff :
    table.lineStartingAt offset = some line ↔
      ∃ entry, table.FirstAt offset entry ∧ entry.line = line := by
  simp only [lineStartingAt, Option.map_eq_some_iff, List.find?_eq_some_iff_append, FirstAt,
    beq_iff_eq, Bool.not_eq_eq_eq_not, Bool.not_true, beq_eq_false_iff_ne]
  refine exists_congr fun entry => and_congr_left fun _ => ?_
  constructor
  · rintro ⟨hstart, front, back, hs, hf⟩
    exact ⟨front, back, hs, hstart, hf⟩
  · rintro ⟨front, back, hs, hstart, hf⟩
    exact ⟨hstart, front, back, hs, hf⟩

theorem FirstAt.exists_lastAt (h : table.FirstAt offset entry) :
    ∃ last, table.LastAt offset last := by
  obtain ⟨front, back, hs, hstart, -⟩ := h
  have hsome : (table.entries.reverse.find? (·.start == offset)).isSome :=
    List.find?_isSome.mpr ⟨entry, by simp [hs], by simpa using hstart⟩
  obtain ⟨last, hlast⟩ := Option.isSome_iff_exists.mp hsome
  obtain ⟨hp, before, after, hr, hb⟩ := List.find?_eq_some_iff_append.mp hlast
  refine ⟨last, after.reverse, before.reverse, ?_, by simpa using hp, fun e he => ?_⟩
  · simpa using congrArg List.reverse hr
  · simpa using hb e (List.mem_reverse.mp he)

theorem LastAt.governs (h : table.LastAt offset entry) : table.Governs offset entry := by
  obtain ⟨front, back, hs, rfl, hb⟩ := h
  exact ⟨front, back, hs, UInt16.le_refl _, fun e _ hle => hle,
    fun e he hle => UInt16.lt_of_le_of_ne hle (hb e he)⟩

/-- In a table in order the line of an offset is that of the last entry that starts there. -/
theorem FirstAt.lineAt_eq_some_iff (h : table.FirstAt offset entry)
    (ho : table.InOrderUpTo offset) :
    table.lineAt offset = some line ↔ ∃ last, table.LastAt offset last ∧ last.line = line := by
  obtain ⟨last, hlast⟩ := h.exists_lastAt
  rw [hlast.governs.lineAt_eq ho, Option.some_inj]
  constructor
  · exact fun hl => ⟨last, hlast, hl⟩
  · rintro ⟨other, hother, rfl⟩
    rw [hlast.governs.unique hother.governs]

end LineTable

/-! ## Columns -/

theorem toList_alignRight (width : Nat) (text : String) :
    (alignRight width text).toList = List.replicate (width - text.length) ' ' ++ text.toList := by
  simp [alignRight]

theorem length_toList_alignRight {width : Nat} {text : String} (h : text.length ≤ width) :
    (alignRight width text).toList.length = width := by
  rw [toList_alignRight, List.length_append, List.length_replicate, String.length_toList]
  omega

theorem alignRight_inj {width : Nat} {text other : String} (ht : ' ' ∉ text.toList)
    (ho : ' ' ∉ other.toList) (h : alignRight width text = alignRight width other) :
    text = other := by
  have hdrop : ∀ s : String, ' ' ∉ s.toList →
      (alignRight width s).toList.dropWhile (· == ' ') = s.toList := by
    intro s hs
    rw [toList_alignRight, List.dropWhile_append_of_pos (by simp)]
    cases hl : s.toList with
    | nil => rfl
    | cons first rest =>
        rw [hl, List.mem_cons, not_or] at hs
        exact List.dropWhile_cons_of_neg (by simpa using Ne.symm hs.1)
  rw [← String.toList_inj, ← hdrop text ht, ← hdrop other ho, h]

theorem length_decimal_le (n : UInt16) : (toString n.toNat).length ≤ 5 := by
  have := n.toNat_lt
  rw [Nat.toString_eq_ofList_toDigits, String.length_ofList,
    Nat.length_toDigits_le_iff (by decide) (by decide)]
  omega

theorem blank_not_mem_decimal (n : Nat) : ' ' ∉ (toString n).toList := by
  rw [Nat.toString_eq_ofList_toDigits, String.toList_ofList]
  intro h
  exact absurd (Nat.isDigit_of_mem_toDigits (by decide) (by decide) h) (by decide)

theorem decimal_inj {m n : Nat} (h : toString m = toString n) : m = n := by
  rw [Nat.toString_eq_ofList_toDigits, Nat.toString_eq_ofList_toDigits, String.ofList_inj] at h
  rw [← Nat.ofDigitChars_ten_toDigits (n := m), h, Nat.ofDigitChars_ten_toDigits]

/-! ## Rows -/

namespace Listing

variable {name : MemberName} {c : ClassFile} {listing : Listing} {table : LineTable}
  {offset offset' line : UInt16} {source source' : Option UInt16} {bytes bytes' : Bytes}
  {i : Instruction} {request : SpliceRequest} {text : String}

/-- What stands in front of an instruction. -/
def sourceText : Option UInt16 → String
  | some line => toString line.toNat
  | none => ""

theorem length_sourceText_le : (sourceText source).length ≤ 6 := by
  cases source with
  | none => decide
  | some line => exact Nat.le_succ_of_le (length_decimal_le line)

theorem blank_not_mem_sourceText : ' ' ∉ (sourceText source).toList := by
  cases source with
  | none => simp [sourceText]
  | some line => exact blank_not_mem_decimal line.toNat

theorem sourceText_inj (h : sourceText source = sourceText source') : source = source' := by
  cases source with
  | none =>
      cases source' with
      | none => rfl
      | some line => exact absurd h.symm Nat.repr_ne_empty
  | some line =>
      cases source' with
      | none => exact absurd h Nat.repr_ne_empty
      | some line' => rw [UInt16.toNat.inj (decimal_inj h)]

/-- The text of an instruction at the offset, behind its source line if there is one. -/
def row (source : Option UInt16) (offset : UInt16) (bytes : Bytes) : String :=
  alignRight 6 (sourceText source) ++ " " ++ alignRight 5 (toString offset.toNat) ++ ": " ++
    bytes.listing

theorem line_eq_row :
    Listing.line table i = row (table.lineStartingAt i.offset) i.offset i.bytes := by
  unfold Listing.line
  cases table.lineStartingAt i.offset <;> rfl

/-- The columns of a row are so wide that their contents can be read off it. -/
theorem row_inj (h : row source offset bytes = row source' offset' bytes') :
    source = source' ∧ offset = offset' := by
  have hl := congrArg String.toList h
  simp only [row, String.toList_append, List.append_assoc] at hl
  obtain ⟨hsource, hl⟩ := List.append_inj hl
    (by rw [length_toList_alignRight length_sourceText_le,
      length_toList_alignRight length_sourceText_le])
  obtain ⟨-, hl⟩ := List.append_inj hl rfl
  obtain ⟨hplace, -⟩ := List.append_inj hl
    (by rw [length_toList_alignRight (length_decimal_le _),
      length_toList_alignRight (length_decimal_le _)])
  refine ⟨sourceText_inj (alignRight_inj blank_not_mem_sourceText blank_not_mem_sourceText
    (String.toList_inj.mp hsource)), UInt16.toNat.inj (decimal_inj ?_)⟩
  exact alignRight_inj (blank_not_mem_decimal _) (blank_not_mem_decimal _)
    (String.toList_inj.mp hplace)

/-! ## What is listed -/

/-- The text lists an instruction at the offset with the source line in front. -/
def Shows (text : String) (offset line : UInt16) : Prop :=
  ∃ bytes : Bytes, text = row (some line) offset bytes

theorem ofMethod_eq_ok_iff :
    ofMethod name c = .ok listing ↔ ∃ method, c.method? name.text = some method ∧
      ∃ code table walk, method.code c.pool = .ok (some code) ∧
        code.lineTable c.pool = .ok table ∧ Walk.ofCode code.bytecode = .ok walk ∧
        listing = ⟨walk.instructions.map (Listing.line table), walk.fault⟩ := by
  unfold ofMethod
  cases hm : c.method? name.text with
  | none => simp
  | some method =>
      simp only [bind_eq_ok_iff, mapError_eq_ok_iff, Option.some.injEq, exists_eq_left']
      constructor
      · rintro ⟨found, hc, h⟩
        cases found with
        | none => cases h
        | some code =>
            simp only [bind_eq_ok_iff, mapError_eq_ok_iff] at h
            obtain ⟨table, ht, walk, hw, h⟩ := h
            cases h
            exact ⟨code, table, walk, hc, ht, hw, rfl⟩
      · rintro ⟨code, table, walk, hc, ht, hw, rfl⟩
        refine ⟨some code, hc, ?_⟩
        simp only [bind_eq_ok_iff, mapError_eq_ok_iff]
        exact ⟨table, ht, walk, hw, rfl⟩

theorem shows_line_iff :
    Shows (Listing.line table i) offset line ↔
      i.offset = offset ∧ table.lineStartingAt offset = some line := by
  simp only [Shows, line_eq_row]
  constructor
  · rintro ⟨bytes, h⟩
    obtain ⟨hsource, rfl⟩ := row_inj h
    exact ⟨rfl, hsource⟩
  · rintro ⟨rfl, hl⟩
    exact ⟨i.bytes, by rw [hl]⟩

/-- The source lines shown are those of the first entries that start at an instruction. -/
theorem exists_shows_iff {walk : Walk} :
    (∃ text ∈ walk.instructions.map (Listing.line table), Shows text offset line) ↔
      (∃ i ∈ walk.instructions, i.offset = offset) ∧
        ∃ first, table.FirstAt offset first ∧ first.line = line := by
  simp only [List.mem_map, exists_exists_and_eq_and, shows_line_iff,
    ← LineTable.lineStartingAt_eq_some_iff, ← and_assoc, exists_and_right]

/-! ## A method with several lines at one instruction -/

/-- Two entries start at offset 0, with two lines; of the three at offset 1 the first and the last
have one line. -/
def repeatedLines : LineTable := ⟨[⟨0, 10⟩, ⟨0, 11⟩, ⟨1, 12⟩, ⟨1, 13⟩, ⟨1, 12⟩]⟩

def repeatedCode : Code where
  maxStack := 0
  maxLocals := 1
  bytecode := [0x00, 0x00, 0xB1]
  handlers := []
  attributes := [.encode LineTable.form 2 repeatedLines]

def repeatedClass : ClassFile where
  version := .java8
  pool := .ofList [.utf8 "Code", .utf8 "LineNumberTable", .utf8 "main", .utf8 "()V",
    .utf8 "game/Dice", .classRef 5]
  flags := ⟨0⟩
  thisClass := 6
  superClass := 0
  interfaces := []
  fields := []
  methods := [⟨⟨0⟩, 3, 4, [.encode Code.form 1 repeatedCode]⟩]
  attributes := []

def repeatedRequest : SpliceRequest :=
  { SpliceRequest.skillGain with targetMethod := ⟨"main", by decide⟩ }

def repeatedListing : Listing :=
  ⟨["    10     0: [00]", "    12     1: [00]", "           2: [b1]"], none⟩

theorem repeatedClass_listing :
    ofMethod repeatedRequest.targetMethod repeatedClass = .ok repeatedListing := by
  decide +kernel

theorem repeatedClass_targetCode :
    repeatedRequest.targetCode repeatedClass = .ok (repeatedCode, repeatedLines) := by
  decide +kernel

/-! ## Agreement -/

/-- What a listing shows is the line of the first entry that starts at the instruction, in the table
in which a splice of the method looks up the line of an offset. It agrees with the splice when the
walk to the offset ends with an entry of this line; in a table in order that is the last entry that
starts at the instruction. -/
theorem listed_line_agrees_iff (h : ofMethod request.targetMethod c = .ok listing)
    (ht : text ∈ listing.lines) (hs : Shows text offset line) :
    ∃ code table walk, request.Targets c code table ∧ Walk.ofCode code.bytecode = .ok walk ∧
      (∃ i ∈ walk.instructions, i.offset = offset) ∧
      (∃ first, table.FirstAt offset first ∧ first.line = line) ∧
      (table.lineAt offset = some line ↔
        ∃ front last rest, table.Walks offset (front ++ [last]) rest ∧ last.line = line) ∧
      (table.InOrderUpTo offset →
        (table.lineAt offset = some line ↔
          ∃ last, table.LastAt offset last ∧ last.line = line)) := by
  obtain ⟨method, hm, code, table, walk, hc, hl, hw, rfl⟩ := ofMethod_eq_ok_iff.mp h
  obtain ⟨hi, first, hfirst, hline⟩ := exists_shows_iff.mp ⟨text, ht, hs⟩
  have hne : table.entries ≠ [] := by
    obtain ⟨front, back, hsplit, -⟩ := hfirst
    simp [hsplit]
  exact ⟨code, table, walk, ⟨method, hm, hc, hl, hne⟩, hw, hi, ⟨first, hfirst, hline⟩,
    LineTable.lineAt_eq_some_iff, fun ho => hfirst.lineAt_eq_some_iff ho⟩

theorem repeatedClass_agrees :
    ofMethod repeatedRequest.targetMethod repeatedClass = .ok repeatedListing ∧
      "    12     1: [00]" ∈ repeatedListing.lines ∧ Shows "    12     1: [00]" 1 12 ∧
      repeatedLines.InOrderUpTo 1 ∧ repeatedLines.lineAt 1 = some 12 := by
  have ht : "    12     1: [00]" ∈ repeatedListing.lines := by decide
  have hs : Shows "    12     1: [00]" 1 12 := ⟨[0x00], by decide +kernel⟩
  have ho : repeatedLines.InOrderUpTo 1 := by
    unfold LineTable.InOrderUpTo
    decide
  refine ⟨repeatedClass_listing, ht, hs, ho, ?_⟩
  obtain ⟨code, table, walk, htarget, -, -, -, -, hagree⟩ :=
    listed_line_agrees_iff repeatedClass_listing ht hs
  have heq := (SpliceRequest.targetCode_eq_ok_iff.mpr htarget).symm.trans repeatedClass_targetCode
  obtain ⟨rfl, rfl⟩ := Prod.mk.inj (Except.ok.inj heq)
  exact (hagree ho).mpr
    ⟨⟨1, 12⟩, ⟨[⟨0, 10⟩, ⟨0, 11⟩, ⟨1, 12⟩, ⟨1, 13⟩], [], rfl, rfl, by simp⟩, rfl⟩

/-- Where two entries with two lines start at an instruction, the listing shows the line of the one
and a splice takes that of the other. -/
theorem repeatedClass_disagrees :
    ofMethod repeatedRequest.targetMethod repeatedClass = .ok repeatedListing ∧
      repeatedRequest.Targets repeatedClass repeatedCode repeatedLines ∧
      "    10     0: [00]" ∈ repeatedListing.lines ∧ Shows "    10     0: [00]" 0 10 ∧
      repeatedLines.lineAt 0 = some 11 ∧
      ¬ ∀ text ∈ repeatedListing.lines, ∀ offset line, Shows text offset line →
        repeatedLines.lineAt offset = some line := by
  have ht : "    10     0: [00]" ∈ repeatedListing.lines := by decide
  have hs : Shows "    10     0: [00]" 0 10 := ⟨[0x00], by decide +kernel⟩
  refine ⟨repeatedClass_listing, SpliceRequest.targetCode_eq_ok_iff.mp repeatedClass_targetCode, ht,
    hs, by decide, fun h => ?_⟩
  exact absurd (h _ ht 0 10 hs) (by decide)

end Listing

end ClassSplice
