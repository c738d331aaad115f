import ClassSplice.Proofs.Instruction.Search

/-!
# Joined and cut code

Behind code that decodes to its end any other code is searched as if it stood alone, with its
offsets and errors moved on. Code that decodes can be cut between two instructions and nowhere else:
a cut inside an instruction leaves it truncated.
-/

namespace ClassSplice

/-! ## Moved code -/

/-- The same error, `distance` bytes further on. -/
inductive ScanError.Moved (distance : Nat) : ScanError → ScanError → Prop
  | unsupportedWidth {opcode : UInt8} {offset offset' : UInt16}
      (h : offset'.toNat = offset.toNat + distance) :
      Moved distance (.unsupportedWidth opcode offset) (.unsupportedWidth opcode offset')
  | invalidOpcode {opcode : UInt8} {offset offset' : UInt16}
      (h : offset'.toNat = offset.toNat + distance) :
      Moved distance (.invalidOpcode opcode offset) (.invalidOpcode opcode offset')
  | truncated {offset offset' : UInt16} (h : offset'.toNat = offset.toNat + distance) :
      Moved distance (.truncated offset) (.truncated offset')

theorem Blocked.move {offset offset' : UInt16} {left : Bytes} {e : ScanError} {distance : Nat}
    (h : Blocked offset left e) (ho : offset'.toNat = offset.toNat + distance) :
    ∃ e', e.Moved distance e' ∧ Blocked offset' left e' := by
  cases h with
  | byOperands h => exact ⟨_, .unsupportedWidth ho, .byOperands h⟩
  | unassigned h => exact ⟨_, .invalidOpcode ho, .unassigned h⟩
  | short h hl => exact ⟨_, .truncated ho, .short h hl⟩
  | wideAlone => exact ⟨_, .truncated ho, .wideAlone⟩
  | wideShort hl => exact ⟨_, .truncated ho, .wideShort hl⟩

/-- The same instruction, `distance` bytes further on. -/
def Instruction.moved (distance : Nat) (i : Instruction) : Instruction :=
  ⟨i.offset + UInt16.ofNat distance, i.bytes⟩

theorem Decodes.move {offset : Nat} {code : Bytes} {instructions : List Instruction}
    (h : Decodes offset code instructions) (distance : Nat) :
    Decodes (offset + distance) code (instructions.map (·.moved distance)) := by
  induction h with
  | nil => exact .nil
  | @cons offset bytes rest instructions hi hr ih =>
      rw [Nat.add_right_comm] at ih
      have hcons := Decodes.cons hi ih
      rw [UInt16.ofNat_add] at hcons
      exact hcons

/-! ## Joined code -/

section Joined

variable {front back : Bytes} {instructions more : List Instruction} {encodings : List Encoding}

theorem Decodes.join (hf : Decodes 0 front instructions) (hb : Decodes 0 back more) :
    Decodes 0 (front ++ back) (instructions ++ more.map (·.moved front.length)) :=
  hf.append (hb.move front.length)

theorem BreaksOff.join {e : ScanError} (hf : Decodes 0 front instructions)
    (hl : front.length + back.length < 0x10000) (h : BreaksOff back e) :
    ∃ e', e.Moved front.length e' ∧ BreaksOff (front ++ back) e' := by
  obtain ⟨good, left, more, rfl, hd, hb⟩ := h
  -- The joined code is short enough for the moved offset not to wrap.
  have ho : (UInt16.ofNat (front ++ good).length).toNat =
      (UInt16.ofNat good.length).toNat + front.length := by
    simp only [List.length_append] at hl
    simp only [List.length_append, UInt16.toNat_ofNat']
    omega
  obtain ⟨e', hmoved, hb'⟩ := hb.move ho
  exact ⟨e', hmoved, front ++ good, left, _, (List.append_assoc ..).symm, hf.join hd, hb'⟩

theorem getLast?_filter_join (p : Bytes → Bool) (distance : Nat) :
    ((instructions ++ more.map (·.moved distance)).filter fun i => p i.bytes).getLast?.map
        (·.offset) =
      ((more.filter fun i => p i.bytes).getLast?.map fun i => i.offset + UInt16.ofNat distance).or
        ((instructions.filter fun i => p i.bytes).getLast?.map (·.offset)) := by
  have hmap : (more.map (·.moved distance)).filter (fun i => p i.bytes) =
      (more.filter fun i => p i.bytes).map (·.moved distance) := by
    rw [List.filter_map]
    rfl
  rw [List.filter_append, hmap, List.getLast?_append, List.getLast?_map, Option.map_or,
    Option.map_map]
  rfl

theorem lastOccurrence_append_of_error {e : ScanError} (hf : Decodes 0 front instructions)
    (hl : front.length + back.length < 0x10000) (h : lastOccurrence back encodings = .error e) :
    ∃ e', e.Moved front.length e' ∧ lastOccurrence (front ++ back) encodings = .error e' := by
  rw [lastOccurrence_eq_error_iff] at h
  obtain ⟨hlong, -⟩ | ⟨-, hb⟩ := h
  · omega
  · obtain ⟨e', hmoved, hb'⟩ := hb.join hf hl
    refine ⟨e', hmoved, lastOccurrence_eq_error_iff.mpr (.inr ⟨?_, hb'⟩)⟩
    rwa [List.length_append]

theorem lastOccurrence_append_of_ok {found : Option UInt16} (hf : Decodes 0 front instructions)
    (hl : front.length + back.length < 0x10000) (h : lastOccurrence back encodings = .ok found) :
    ∃ before, lastOccurrence front encodings = .ok before ∧
      lastOccurrence (front ++ back) encodings =
        .ok ((found.map (· + UInt16.ofNat front.length)).or before) := by
  obtain ⟨more, -, hb, rfl⟩ := lastOccurrence_eq_ok_iff.mp h
  have hjoined : (front ++ back).length < 0x10000 := by rwa [List.length_append]
  refine ⟨_, lastOccurrence_eq_ok_iff.mpr ⟨instructions, by omega, hf, rfl⟩, ?_⟩
  refine lastOccurrence_eq_ok_iff.mpr ⟨_, hjoined, hf.join hb, ?_⟩
  rw [getLast?_filter_join (fun bytes => encodings.any (·.accepts bytes)), Option.map_map]
  rfl

theorem lastOccurrence_lt {code : Bytes} {offset : UInt16}
    (h : lastOccurrence code encodings = .ok (some offset)) : offset.toNat < code.length := by
  obtain ⟨instructions, hl, hd, ⟨i, hi, rfl, -⟩, -⟩ := lastOccurrence_eq_some_iff.mp h
  obtain ⟨hbytes, before, behind, rfl, ho⟩ := hd.mem_split (by omega) hi
  have hpos := hbytes.length_pos
  simp only [ho, List.length_append]
  omega

end Joined

/-! ## Cut code -/

section Cut

variable {code : Bytes} {instructions : List Instruction} {n : Nat}

/-- A cut lies between two instructions or inside one. -/
theorem exists_cut (instructions : List Instruction)
    (hn : n ≤ (instructions.flatMap (·.bytes)).length) :
    (∃ front back, instructions = front ++ back ∧ (front.flatMap (·.bytes)).length = n) ∨
      ∃ front i back, instructions = front ++ i :: back ∧
        (front.flatMap (·.bytes)).length < n ∧
        n < (front.flatMap (·.bytes)).length + i.bytes.length := by
  induction instructions generalizing n with
  | nil => exact .inl ⟨[], [], rfl, (Nat.le_zero.mp hn).symm⟩
  | cons i instructions ih =>
      rw [List.flatMap_cons, List.length_append] at hn
      rcases Nat.eq_zero_or_pos n with rfl | hpos
      · exact .inl ⟨[], i :: instructions, rfl, rfl⟩
      rcases Nat.lt_or_ge n i.bytes.length with hlt | hge
      · exact .inr ⟨[], i, instructions, rfl, hpos, by simpa using hlt⟩
      · obtain ⟨front, back, rfl, hlen⟩ | ⟨front, j, back, rfl, hlo, hhi⟩ :=
          ih (n := n - i.bytes.length) (by omega)
        · refine .inl ⟨i :: front, back, rfl, ?_⟩
          rw [List.flatMap_cons, List.length_append]
          omega
        · refine .inr ⟨i :: front, j, back, rfl, ?_, ?_⟩ <;>
            rw [List.flatMap_cons, List.length_append] <;> omega

theorem ofCode_take_between {front back : List Instruction} (hl : code.length < 0x10000)
    (hd : Decodes 0 code (front ++ back)) :
    Walk.ofCode (code.take (front.flatMap (·.bytes)).length) = .ok ⟨front, none⟩ := by
  obtain ⟨first, second, rfl, hf, -⟩ := hd.of_append
  rw [List.length_append] at hl
  rw [hf.flatMap_bytes, List.take_left]
  exact Walk.ofCode_eq_ok_iff.mpr ⟨by omega, hf⟩

theorem ofCode_take_inside {front back : List Instruction} {i : Instruction}
    (hl : code.length < 0x10000) (hd : Decodes 0 code (front ++ i :: back))
    (hlo : i.offset.toNat < n) (hhi : n < i.offset.toNat + i.bytes.length) :
    Walk.ofCode (code.take n) = .ok ⟨front, some (.truncated i.offset)⟩ := by
  have hoff := hd.offset_toNat (by omega)
  obtain ⟨hi, first, second, rfl, hf, ho⟩ := hd.split
  rw [hf.flatMap_bytes, Nat.zero_add] at hoff
  rw [Nat.zero_add] at ho
  simp only [List.length_append] at hl
  obtain ⟨m, rfl⟩ := Nat.exists_eq_add_of_le (Nat.le_of_lt (hoff ▸ hlo))
  have hcut : (first ++ i.bytes ++ second).take (first.length + m) = first ++ i.bytes.take m := by
    rw [List.append_assoc, List.take_length_add_append, List.take_append_of_le_length (by omega)]
  rw [hcut, Walk.ofCode_eq_walk_iff]
  refine ⟨?_, first, _, rfl, hf, .blocked ?_⟩
  · rw [List.length_append, List.length_take]
    omega
  · rw [← ho]
    exact hi.blocked_take (by omega) (by omega) i.offset

theorem walks_take_iff (hl : code.length < 0x10000) (hd : Decodes 0 code instructions)
    (hn : n ≤ code.length) :
    (∃ met, Walk.ofCode (code.take n) = .ok ⟨met, none⟩) ↔
      n = 0 ∨ n = code.length ∨ ∃ i ∈ instructions, i.offset.toNat = n := by
  have hlen : (instructions.flatMap (·.bytes)).length = code.length := by rw [hd.flatMap_bytes]
  constructor
  · rintro ⟨met, hmet⟩
    obtain ⟨front, back, rfl, rfl⟩ | ⟨front, i, back, rfl, hlo, hhi⟩ :=
      exists_cut instructions (hlen ▸ hn)
    · cases back with
      | nil => exact .inr (.inl (by rw [← hlen, List.append_nil]))
      | cons i back =>
          exact .inr (.inr ⟨i, by simp, by rw [hd.offset_toNat (by omega), Nat.zero_add]⟩)
    · have hoff := hd.offset_toNat (by omega)
      have hcut := ofCode_take_inside hl hd (n := n) (by omega) (by omega)
      rw [hmet] at hcut
      cases hcut
  · rintro (rfl | rfl | ⟨i, hi, rfl⟩)
    · have hd' : Decodes 0 code ([] ++ instructions) := hd
      exact ⟨[], ofCode_take_between hl hd'⟩
    · exact ⟨instructions, by rw [List.take_length]; exact Walk.ofCode_eq_ok_iff.mpr ⟨hl, hd⟩⟩
    · obtain ⟨front, back, rfl⟩ := List.append_of_mem hi
      rw [hd.offset_toNat (by omega), Nat.zero_add]
      exact ⟨front, ofCode_take_between hl hd⟩

theorem truncated_take_of_inside (hl : code.length < 0x10000) (hd : Decodes 0 code instructions)
    (hn : n ≤ code.length) (hfail : ¬ ∃ met, Walk.ofCode (code.take n) = .ok ⟨met, none⟩) :
    ∃ i ∈ instructions, (i.offset.toNat < n ∧ n < i.offset.toNat + i.bytes.length) ∧
      ∃ met, Walk.ofCode (code.take n) = .ok ⟨met, some (.truncated i.offset)⟩ := by
  have hlen : (instructions.flatMap (·.bytes)).length = code.length := by rw [hd.flatMap_bytes]
  obtain ⟨front, back, rfl, rfl⟩ | ⟨front, i, back, rfl, hlo, hhi⟩ :=
    exists_cut instructions (hlen ▸ hn)
  · exact absurd ⟨front, ofCode_take_between hl hd⟩ hfail
  · have hoff := hd.offset_toNat (by omega)
    have hin : i.offset.toNat < n ∧ n < i.offset.toNat + i.bytes.length := by omega
    exact ⟨i, by simp, hin, front, ofCode_take_inside hl hd hin.1 hin.2⟩

end Cut

/-- Behind code that decodes to its end the search goes on as in code that stands alone, and such
code decodes up to a cut exactly when the cut falls inside no instruction. -/
theorem lastOccurrence_append {front back : Bytes} {instructions : List Instruction}
    (hw : Walk.ofCode front = .ok ⟨instructions, none⟩)
    (hl : front.length + back.length < 0x10000) (encodings : List Encoding) :
    (match lastOccurrence back encodings with
      | .error e => ∃ e', e.Moved front.length e' ∧
          lastOccurrence (front ++ back) encodings = .error e'
      | .ok (some offset) => ∃ offset' : UInt16, offset'.toNat = offset.toNat + front.length ∧
          lastOccurrence (front ++ back) encodings = .ok (some offset')
      | .ok none => lastOccurrence (front ++ back) encodings = lastOccurrence front encodings) ∧
    ∀ n ≤ front.length,
      ((∃ met, Walk.ofCode (front.take n) = .ok ⟨met, none⟩) ↔
        n = 0 ∨ n = front.length ∨ ∃ i ∈ instructions, i.offset.toNat = n) ∧
      ((¬ ∃ met, Walk.ofCode (front.take n) = .ok ⟨met, none⟩) →
        ∃ i ∈ instructions, (i.offset.toNat < n ∧ n < i.offset.toNat + i.bytes.length) ∧
          ∃ met, Walk.ofCode (front.take n) = .ok ⟨met, some (.truncated i.offset)⟩) := by
  obtain ⟨hlf, hf⟩ := Walk.ofCode_eq_ok_iff.mp hw
  refine ⟨?_, fun n hn => ⟨walks_take_iff hlf hf hn, truncated_take_of_inside hlf hf hn⟩⟩
  cases hs : lastOccurrence back encodings with
  | error e => exact lastOccurrence_append_of_error hf hl hs
  | ok found =>
      obtain ⟨before, hbefore, happend⟩ := lastOccurrence_append_of_ok hf hl hs
      cases found with
      | none => exact happend.trans hbefore.symm
      | some offset =>
          have hlt := lastOccurrence_lt hs
          refine ⟨offset + UInt16.ofNat front.length, ?_, happend⟩
          simp only [UInt16.toNat_add, UInt16.toNat_ofNat']
          omega

def widenedCode : Bytes := [0x2a, 0xc4, 0x84, 0x00, 0x01, 0x00, 0x02]

def widenedInstructions : List Instruction :=
  [⟨0, [0x2a]⟩, ⟨1, [0xc4, 0x84, 0x00, 0x01, 0x00, 0x02]⟩]

def callingCode : Bytes := [0x57, 0xb8, 0x00, 0x2a]

theorem widenedCode_append : Walk.ofCode widenedCode = .ok ⟨widenedInstructions, none⟩ ∧
    widenedCode.length + callingCode.length < 0x10000 ∧
    (∃ offset : UInt16, offset.toNat = 1 + 7 ∧
      lastOccurrence (widenedCode ++ callingCode) [.invokeStatic 0x2a] = .ok (some offset)) ∧
    ∃ i ∈ widenedInstructions, (i.offset.toNat < 2 ∧ 2 < i.offset.toNat + i.bytes.length) ∧
      ∃ met, Walk.ofCode (widenedCode.take 2) = .ok ⟨met, some (.truncated i.offset)⟩ := by
  have hw : Walk.ofCode widenedCode = .ok ⟨widenedInstructions, none⟩ := by decide +kernel
  have hl : widenedCode.length + callingCode.length < 0x10000 := by decide
  have hcall : lastOccurrence callingCode [.invokeStatic 0x2a] = .ok (some 1) := by decide +kernel
  obtain ⟨happend, hcut⟩ := lastOccurrence_append hw hl [.invokeStatic 0x2a]
  rw [hcall] at happend
  obtain ⟨hwalks, hinside⟩ := hcut 2 (by decide)
  exact ⟨hw, hl, happend, hinside fun hmet => absurd (hwalks.mp hmet) (by decide)⟩

end ClassSplice
