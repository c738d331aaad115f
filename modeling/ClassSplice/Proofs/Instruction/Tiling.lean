import ClassSplice.Instruction.Cursor
import ClassSplice.Proofs.Instruction.Walk

/-!
# The walk tiles the code

The instructions of a walk cover the code without gap or overlap, from its start up to its end or up
to bytes that no instruction starts with. Reading one instruction at a time gives the same
instructions, then the error if there is one, and then nothing more.
-/

namespace ClassSplice

/-! ## Tiles -/

/-- What blocks a walk lies behind the bytes in front of it, at an offset that fits. -/
theorem Stops.eq_some_iff_take {front left : Bytes} {fault : Option ScanError}
    (hs : Stops (UInt16.ofNat front.length) left fault) (hl : (front ++ left).length < 0x10000)
    (e : ScanError) :
    fault = some e ↔ ∃ offset : UInt16, offset.toNat < (front ++ left).length ∧
      front = (front ++ left).take offset.toNat ∧
        Blocked offset ((front ++ left).drop offset.toNat) e := by
  rw [hs.eq_some_iff]
  rw [List.length_append] at hl ⊢
  constructor
  · intro hb
    have hpos := List.length_pos_iff.mpr hb.ne_nil
    have hn : (UInt16.ofNat front.length).toNat = front.length := by
      rw [UInt16.toNat_ofNat']
      omega
    refine ⟨UInt16.ofNat front.length, ?_, ?_, ?_⟩
    · omega
    · rw [hn, List.take_left]
    · rwa [hn, List.drop_left]
  · rintro ⟨offset, hlt, hfront, hb⟩
    have hn : front.length = offset.toNat := by
      have := congrArg List.length hfront
      rw [List.length_take, List.length_append] at this
      omega
    rw [← hn, List.drop_left] at hb
    rwa [hn, UInt16.ofNat_toNat]

namespace Walk

def bytes (walk : Walk) : Bytes := walk.instructions.flatMap (·.bytes)

/-- What a reader of one instruction after the other gets to see. -/
def items (walk : Walk) : List (Except ScanError Instruction) :=
  walk.instructions.map .ok ++ walk.fault.toList.map .error

/-- The instructions of the walk lie one behind the other from the start of the code up to where the
walk stops. -/
structure Tiles (walk : Walk) (code : Bytes) : Prop where
  offset_eq : ∀ front i back, walk.instructions = front ++ i :: back →
    i.offset.toNat = (front.flatMap (·.bytes)).length
  length_bounds : ∀ i ∈ walk.instructions, 1 ≤ i.bytes.length ∧ i.bytes.length ≤ 6
  slice_eq : ∀ i ∈ walk.instructions, (code.drop i.offset.toNat).take i.bytes.length = i.bytes
  fault_eq_none_iff : walk.fault = none ↔ walk.bytes = code
  fault_eq_some_iff : ∀ e, walk.fault = some e ↔
    ∃ offset : UInt16, offset.toNat < code.length ∧ walk.bytes = code.take offset.toNat ∧
      Blocked offset (code.drop offset.toNat) e

theorem tiles_of_stops {walk : Walk} {front left : Bytes}
    (hl : (front ++ left).length < 0x10000) (hd : Decodes 0 front walk.instructions)
    (hs : Stops (UInt16.ofNat front.length) left walk.fault) : walk.Tiles (front ++ left) := by
  have hbytes : walk.bytes = front := hd.flatMap_bytes
  have hlf : 0 + front.length ≤ 0x10000 := by
    rw [List.length_append] at hl
    omega
  constructor
  case offset_eq =>
    intro before i behind hi
    rw [hi] at hd
    rw [hd.offset_toNat hlf, Nat.zero_add]
  case length_bounds =>
    intro i hi
    have hi' := (hd.mem_split hlf hi).1
    exact ⟨hi'.length_pos, hi'.length_le⟩
  case slice_eq =>
    intro i hi
    obtain ⟨-, before, behind, rfl, ho⟩ := hd.mem_split hlf hi
    simp [ho]
  case fault_eq_none_iff => rw [hbytes, hs.eq_none_iff, List.self_eq_append_right]
  case fault_eq_some_iff =>
    intro e
    rw [hbytes]
    exact hs.eq_some_iff_take hl e

end Walk

/-! ## One at a time -/

namespace Cursor

variable {c : Cursor} {e : ScanError} {bytes rest : Bytes}

theorem instructionAt_eq_error_iff {offset : UInt16} {opcode : UInt8} {operands : Bytes} :
    instructionAt offset opcode operands = .error e ↔ Blocked offset (opcode :: operands) e := by
  rw [blocked_iff, instructionAt]
  cases Walk.widthAt offset opcode operands with
  | error e' => simp
  | ok width =>
      by_cases hw : width ≤ operands.length + 1
      · simp [hw, Nat.not_lt.mpr hw]
      · simp [hw, Nat.not_le.mp hw, eq_comm]

theorem instructionAt_of_isInstruction {offset : UInt16} {opcode : UInt8} {operands : Bytes}
    (hi : IsInstruction (opcode :: operands)) (rest : Bytes) :
    instructionAt offset opcode (operands ++ rest) = .ok (opcode :: operands) := by
  have hle : operands.length + 1 ≤ (operands ++ rest).length + 1 := by
    rw [List.length_append]
    omega
  rw [instructionAt, hi.widthAt]
  simp only [if_pos hle, List.take_succ_cons, List.take_left]

theorem next_of_failed (h : c.failed = true) : c.next = (none, c) := by
  rw [next, if_pos h]

theorem next_of_atEnd (h : c.code.drop c.offset = []) : c.next = (none, c) := by
  rw [next, h]
  split <;> rfl

theorem next_of_isInstruction (hf : c.failed = false) (hi : IsInstruction bytes)
    (h : c.code.drop c.offset = bytes ++ rest) :
    c.next = (some (.ok ⟨UInt16.ofNat c.offset, bytes⟩),
      { c with offset := c.offset + bytes.length }) := by
  cases bytes with
  | nil => exact hi.elim
  | cons opcode operands =>
      rw [List.cons_append] at h
      rw [next, if_neg (by simp [hf]), h]
      simp only [instructionAt_of_isInstruction hi]

theorem next_of_blocked (hf : c.failed = false)
    (h : Blocked (UInt16.ofNat c.offset) (c.code.drop c.offset) e) :
    c.next = (some (.error e), { c with failed := true }) := by
  rw [next, if_neg (by simp [hf])]
  cases hc : c.code.drop c.offset with
  | nil => exact absurd hc h.ne_nil
  | cons opcode operands =>
      rw [hc] at h
      simp only [instructionAt_eq_error_iff.mpr h]

theorem handOut_of_next_eq (h : c.next = (none, c)) (n : Nat) : c.handOut n = none := by
  induction n with
  | zero => rw [handOut, h]
  | succ n ih => rw [handOut, h, ih]

theorem handOut_of_stops {left : Bytes} {fault : Option ScanError} (hf : c.failed = false)
    (hc : c.code.drop c.offset = left) (hs : Stops (UInt16.ofNat c.offset) left fault) (n : Nat) :
    c.handOut n = (fault.toList.map (.error (α := Instruction)))[n]? := by
  cases hs with
  | atEnd => simp [handOut_of_next_eq (next_of_atEnd hc)]
  | blocked h =>
      have hnext := next_of_blocked hf (hc ▸ h)
      cases n with
      | zero => rw [handOut, hnext]; rfl
      | succ n =>
          rw [handOut, hnext, handOut_of_next_eq (next_of_failed rfl)]
          rfl

/-- From an offset on the cursor hands out the instructions behind it, then what stops them. -/
theorem handOut_eq (front : Bytes) {code left : Bytes} {instructions : List Instruction}
    {fault : Option ScanError} (hd : Decodes front.length code instructions)
    (hs : Stops (UInt16.ofNat (front.length + code.length)) left fault) (n : Nat) :
    handOut ⟨front ++ (code ++ left), front.length, false⟩ n =
      (instructions.map .ok ++ fault.toList.map .error)[n]? := by
  -- By induction on the instructions: those handed out move over to `front`, and the code stays
  -- the same.
  generalize hoff : front.length = offset at hd hs ⊢
  induction hd generalizing front n with
  | @nil offset =>
      have hc : (front ++ ([] ++ left)).drop offset = left := by rw [← hoff]; simp
      rw [List.map_nil, List.nil_append]
      exact handOut_of_stops (c := ⟨_, offset, false⟩) rfl hc (by simpa using hs) n
  | @cons offset bytes rest instructions hi hr ih =>
      have hc : (front ++ (bytes ++ rest ++ left)).drop offset = bytes ++ (rest ++ left) := by
        rw [← hoff, List.drop_left, List.append_assoc]
      have hnext := next_of_isInstruction (c := ⟨_, offset, false⟩) rfl hi hc
      cases n with
      | zero => rw [handOut, hnext]; rfl
      | succ n =>
          rw [handOut, hnext, List.map_cons, List.cons_append, List.getElem?_cons_succ,
            ← ih (front ++ bytes)]
          · simp
          · simp [hoff]
          · simpa [Nat.add_assoc] using hs

theorem handOut_of_walk {code : Bytes} {walk : Walk} (h : Walk.ofCode code = .ok walk) :
    ∃ cursor, ofCode code = .ok cursor ∧ ∀ n, cursor.handOut n = walk.items[n]? := by
  obtain ⟨hl, front, left, rfl, hd, hs⟩ := Walk.ofCode_eq_walk_iff.mp h
  refine ⟨_, if_pos hl, fun n => ?_⟩
  exact handOut_eq [] hd (by simpa using hs) n

end Cursor

namespace Walk

/-- Every code array that is short enough is tiled by a walk, and whoever reads it one instruction
at a time gets to see just the items of the walk. -/
theorem exists_tiles {code : Bytes} (h : code.length < 0x10000) :
    ∃ walk cursor, ofCode code = .ok walk ∧ walk.Tiles code ∧
      Cursor.ofCode code = .ok cursor ∧ ∀ n, cursor.handOut n = walk.items[n]? := by
  have hw : ofCode code = .ok (after [] 0 code) := if_pos h
  obtain ⟨-, front, left, rfl, hd, hs⟩ := ofCode_eq_walk_iff.mp hw
  obtain ⟨cursor, hc, hitems⟩ := Cursor.handOut_of_walk hw
  exact ⟨_, cursor, hw, tiles_of_stops h hd hs, hc, hitems⟩

def cutCode : Bytes := [0x2a, 0xc4, 0x84, 0x00, 0x01, 0x00, 0x02, 0xb8, 0x00]

def cutWalk : Walk where
  instructions := [⟨0, [0x2a]⟩, ⟨1, [0xc4, 0x84, 0x00, 0x01, 0x00, 0x02]⟩]
  fault := some (.truncated 7)

theorem cutWalk_tiles : cutCode.length < 0x10000 ∧ ofCode cutCode = .ok cutWalk ∧
    cutWalk.Tiles cutCode ∧ ∃ cursor, Cursor.ofCode cutCode = .ok cursor ∧
      cursor.handOut 2 = some (.error (.truncated 7)) ∧ cursor.handOut 3 = none := by
  have hl : cutCode.length < 0x10000 := by decide
  have hcut : ofCode cutCode = .ok cutWalk := by
    rw [ofCode, if_pos hl, Except.ok.injEq]
    decide +kernel
  obtain ⟨walk, cursor, hw, ht, hc, hitems⟩ := exists_tiles hl
  obtain rfl : walk = cutWalk := Except.ok.inj (hw.symm.trans hcut)
  exact ⟨hl, hw, ht, cursor, hc, hitems 2, hitems 3⟩

end Walk

end ClassSplice
