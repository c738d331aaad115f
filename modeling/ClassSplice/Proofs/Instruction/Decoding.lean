import ClassSplice.Instruction.Walk

/-!
# Code as a sequence of instructions

`Decodes` says which instructions code consists of, and `Blocked` which bytes no instruction starts
with, both without a walk. The instructions lie one behind the other, and what is left of one that
is cut off is blocked.
-/

namespace ClassSplice

/-! ## Widths -/

theorem InstructionWidth.fixed_bounds {opcode : UInt8} {width : Nat}
    (h : ofOpcode opcode = .fixed width) : 1 ≤ width ∧ width ≤ 5 := by
  -- Only the rows of the table have fixed widths.
  have hrows : ∀ r ∈ rows, ∀ n ≤ 5, r.2.2 = .fixed n → 1 ≤ n := by decide
  have hmax : ∀ r ∈ rows, (match r.2.2 with | .fixed n => n | _ => 0) ≤ 5 := by decide
  unfold ofOpcode at h
  split at h
  · rename_i r hr
    have hle : width ≤ 5 := by simpa [h] using hmax r (List.mem_of_find?_eq_some hr)
    exact ⟨hrows r (List.mem_of_find?_eq_some hr) width hle h, hle⟩
  · cases h

/-- What holds of every number of one byte holds of every opcode. -/
theorem InstructionWidth.forall_opcode {p : UInt8 → Prop} (h : ∀ n : Fin 256, p (UInt8.ofNat n))
    (opcode : UInt8) : p opcode := by
  simpa using h ⟨opcode.toNat, opcode.toNat_lt⟩

theorem InstructionWidth.ofOpcode_eq_byOperands_iff (opcode : UInt8) :
    ofOpcode opcode = .byOperands ↔ opcode = 0xaa ∨ opcode = 0xab :=
  forall_opcode (p := fun o => ofOpcode o = .byOperands ↔ o = 0xaa ∨ o = 0xab)
    (by decide +kernel) opcode

theorem InstructionWidth.ofOpcode_eq_invalid_iff (opcode : UInt8) :
    ofOpcode opcode = .invalid ↔ 0xcb ≤ opcode ∧ opcode ≤ 0xfd :=
  forall_opcode (p := fun o => ofOpcode o = .invalid ↔ 0xcb ≤ o ∧ o ≤ 0xfd)
    (by decide +kernel) opcode

theorem InstructionWidth.ofOpcode_eq_wide_iff (opcode : UInt8) :
    ofOpcode opcode = .wide ↔ opcode = 0xc4 :=
  forall_opcode (p := fun o => ofOpcode o = .wide ↔ o = 0xc4) (by decide +kernel) opcode

/-! ## Decoding -/

/-- The bytes are one instruction: an opcode and as many operands as it takes. -/
def IsInstruction : Bytes → Prop
  | [] => False
  | opcode :: operands =>
    match InstructionWidth.ofOpcode opcode with
    | .fixed width => operands.length + 1 = width
    | .wide => operands.length + 1 = if operands.head? = some Opcode.iinc then 6 else 4
    | .byOperands | .invalid => False

/-- Code that starts at `offset` consists of these instructions, one behind the other. -/
inductive Decodes : Nat → Bytes → List Instruction → Prop
  | nil {offset : Nat} : Decodes offset [] []
  | cons {offset : Nat} {bytes rest : Bytes} {instructions : List Instruction}
      (hi : IsInstruction bytes) (hr : Decodes (offset + bytes.length) rest instructions) :
      Decodes offset (bytes ++ rest) (⟨UInt16.ofNat offset, bytes⟩ :: instructions)

theorem IsInstruction.length_pos {bytes : Bytes} (h : IsInstruction bytes) : 0 < bytes.length := by
  cases bytes with
  | nil => exact h.elim
  | cons opcode operands => exact Nat.succ_pos _

theorem isInstruction_of_fixed {opcode : UInt8} {operands : Bytes} {width : Nat}
    (h : InstructionWidth.ofOpcode opcode = .fixed width) :
    IsInstruction (opcode :: operands) ↔ operands.length + 1 = width := by
  simp only [IsInstruction, h]

theorem isInstruction_of_wide {opcode : UInt8} {operands : Bytes}
    (h : InstructionWidth.ofOpcode opcode = .wide) :
    IsInstruction (opcode :: operands) ↔
      operands.length + 1 = if operands.head? = some Opcode.iinc then 6 else 4 := by
  simp only [IsInstruction, h]

theorem IsInstruction.length_le {bytes : Bytes} (h : IsInstruction bytes) : bytes.length ≤ 6 := by
  cases bytes with
  | nil => exact h.elim
  | cons opcode operands =>
      rw [List.length_cons]
      cases hw : InstructionWidth.ofOpcode opcode with
      | fixed width =>
          rw [(isInstruction_of_fixed hw).mp h]
          have := (InstructionWidth.fixed_bounds hw).2
          omega
      | wide =>
          rw [(isInstruction_of_wide hw).mp h]
          split <;> omega
      | byOperands => simp only [IsInstruction, hw] at h
      | invalid => simp only [IsInstruction, hw] at h

/-! ## Blocked bytes -/

/-- No instruction starts with the bytes that are left at the offset, and the error says why. -/
inductive Blocked (offset : UInt16) : Bytes → ScanError → Prop
  | byOperands {opcode : UInt8} {operands : Bytes} (h : opcode = 0xaa ∨ opcode = 0xab) :
      Blocked offset (opcode :: operands) (.unsupportedWidth opcode offset)
  | unassigned {opcode : UInt8} {operands : Bytes} (h : 0xcb ≤ opcode ∧ opcode ≤ 0xfd) :
      Blocked offset (opcode :: operands) (.invalidOpcode opcode offset)
  | short {opcode : UInt8} {operands : Bytes} {width : Nat}
      (h : InstructionWidth.ofOpcode opcode = .fixed width) (hl : operands.length + 1 < width) :
      Blocked offset (opcode :: operands) (.truncated offset)
  | wideAlone : Blocked offset [0xc4] (.truncated offset)
  | wideShort {widened : UInt8} {operands : Bytes}
      (hl : operands.length + 2 < if widened = Opcode.iinc then 6 else 4) :
      Blocked offset (0xc4 :: widened :: operands) (.truncated offset)

theorem Blocked.ne_nil {offset : UInt16} {left : Bytes} {e : ScanError}
    (h : Blocked offset left e) : left ≠ [] := by
  cases h <;> exact List.cons_ne_nil _ _

/-- The first bytes of an instruction are not one. -/
theorem IsInstruction.blocked_take {bytes : Bytes} {n : Nat} (h : IsInstruction bytes)
    (hpos : 0 < n) (hlt : n < bytes.length) (offset : UInt16) :
    Blocked offset (bytes.take n) (.truncated offset) := by
  obtain ⟨n, rfl⟩ := Nat.exists_eq_succ_of_ne_zero (Nat.pos_iff_ne_zero.mp hpos)
  cases bytes with
  | nil => exact h.elim
  | cons opcode operands =>
      rw [List.length_cons] at hlt
      rw [List.take_succ_cons]
      have hlen : (operands.take n).length = n := List.length_take_of_le (by omega)
      cases hw : InstructionWidth.ofOpcode opcode with
      | fixed width =>
          have hwidth := (isInstruction_of_fixed hw).mp h
          exact .short hw (by omega)
      | wide =>
          obtain rfl := (InstructionWidth.ofOpcode_eq_wide_iff opcode).mp hw
          have hwidth := (isInstruction_of_wide hw).mp h
          cases operands with
          | nil => simp at hwidth
          | cons widened operands =>
              cases n with
              | zero => exact .wideAlone
              | succ n =>
                  rw [List.take_succ_cons] at hlen ⊢
                  simp only [List.head?_cons, Option.some.injEq, List.length_cons]
                    at hwidth hlen hlt
                  exact .wideShort (by omega)
      | byOperands => simp only [IsInstruction, hw] at h
      | invalid => simp only [IsInstruction, hw] at h

/-! ## Where the instructions stand -/

namespace Decodes

variable {offset : Nat} {code : Bytes} {instructions front back : List Instruction}
  {i j : Instruction}

theorem flatMap_bytes (h : Decodes offset code instructions) :
    instructions.flatMap (·.bytes) = code := by
  induction h with
  | nil => rfl
  | cons hi hr ih => rw [List.flatMap_cons, ih]

theorem append {rest : Bytes} (h : Decodes offset code front)
    (hr : Decodes (offset + code.length) rest back) :
    Decodes offset (code ++ rest) (front ++ back) := by
  induction h with
  | nil => exact hr
  | cons hi _ ih =>
      rw [List.append_assoc]
      rw [List.length_append, ← Nat.add_assoc] at hr
      exact .cons hi (ih hr)

theorem of_append (h : Decodes offset code (front ++ back)) :
    ∃ first second, code = first ++ second ∧ Decodes offset first front ∧
      Decodes (offset + first.length) second back := by
  induction front generalizing offset code with
  | nil => exact ⟨[], code, rfl, .nil, h⟩
  | cons i front ih =>
      cases h with
      | @cons _ bytes rest _ hi hr =>
          obtain ⟨first, second, rfl, hf, hs⟩ := ih hr
          refine ⟨bytes ++ first, second, (List.append_assoc ..).symm, .cons hi hf, ?_⟩
          rwa [List.length_append, ← Nat.add_assoc]

theorem split (h : Decodes offset code (front ++ i :: back)) :
    IsInstruction i.bytes ∧ ∃ first second, code = first ++ i.bytes ++ second ∧
      Decodes offset first front ∧ i.offset = UInt16.ofNat (offset + first.length) := by
  obtain ⟨first, second, rfl, hf, hs⟩ := h.of_append
  cases hs with
  | cons hi hr => exact ⟨hi, first, _, (List.append_assoc ..).symm, hf, rfl⟩

/-- An instruction starts where those in front of it end; in short code no bit of that is lost. -/
theorem offset_toNat (h : Decodes offset code (front ++ i :: back))
    (hl : offset + code.length ≤ 0x10000) :
    i.offset.toNat = offset + (front.flatMap (·.bytes)).length := by
  obtain ⟨hi, first, second, rfl, hf, ho⟩ := h.split
  have hpos := hi.length_pos
  simp only [List.length_append] at hl
  rw [ho, hf.flatMap_bytes, UInt16.toNat_ofNat']
  omega

/-- An instruction lies at its offset, with the code of the others on both sides. -/
theorem mem_split (h : Decodes offset code instructions) (hl : offset + code.length ≤ 0x10000)
    (hi : i ∈ instructions) :
    IsInstruction i.bytes ∧
      ∃ before after, code = before ++ i.bytes ++ after ∧
        i.offset.toNat = offset + before.length := by
  obtain ⟨front, back, rfl⟩ := List.append_of_mem hi
  have ho := h.offset_toNat hl
  obtain ⟨hbytes, first, second, rfl, hf, -⟩ := h.split
  exact ⟨hbytes, first, second, rfl, by rw [ho, hf.flatMap_bytes]⟩

theorem pairwise_le (h : Decodes offset code instructions) (hl : offset + code.length ≤ 0x10000) :
    instructions.Pairwise fun i j => i.offset.toNat + i.bytes.length ≤ j.offset.toNat := by
  induction h with
  | nil => exact .nil
  | @cons offset bytes rest more hb hr ih =>
      have hpos := hb.length_pos
      rw [List.length_append] at hl
      refine .cons (fun j hj => ?_) (ih (by omega))
      obtain ⟨-, before, after, -, ho⟩ := hr.mem_split (by omega) hj
      simp only [ho, UInt16.toNat_ofNat']
      omega

theorem pairwise_lt (h : Decodes offset code instructions) (hl : offset + code.length ≤ 0x10000) :
    instructions.Pairwise fun i j => i.offset < j.offset := by
  refine (h.pairwise_le hl).imp_of_mem fun {i j} hi _ hle => ?_
  have hpos := (h.mem_split hl hi).1.length_pos
  rw [UInt16.lt_iff_toNat_lt]
  omega

theorem end_le_of_lt (h : Decodes offset code instructions) (hl : offset + code.length ≤ 0x10000)
    (hi : i ∈ instructions) (hj : j ∈ instructions) (hlt : i.offset < j.offset) :
    i.offset.toNat + i.bytes.length ≤ j.offset.toNat := by
  have hp := h.pairwise_le hl
  rw [UInt16.lt_iff_toNat_lt] at hlt
  obtain ⟨front, back, rfl⟩ := List.append_of_mem hi
  rw [List.pairwise_append, List.pairwise_cons] at hp
  rcases List.mem_append.mp hj with hfront | hrest
  · have hle := hp.2.2 j hfront i List.mem_cons_self
    omega
  · rcases List.mem_cons.mp hrest with rfl | hback
    · omega
    · exact hp.2.1.1 j hback

end Decodes

end ClassSplice
