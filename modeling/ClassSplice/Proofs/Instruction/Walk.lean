import ClassSplice.Proofs.Instruction.Decoding

/-!
# Walks decode

A walk meets the instructions that the code decodes to, up to the end of the code or to bytes that
are blocked. It meets its end exactly when the code decodes, and there is one way to decode it.
-/

namespace ClassSplice

/-! ## One step -/

theorem IsInstruction.widthAt {opcode : UInt8} {operands : Bytes}
    (h : IsInstruction (opcode :: operands)) (offset : UInt16) (rest : Bytes) :
    Walk.widthAt offset opcode (operands ++ rest) = .ok (operands.length + 1) := by
  cases hw : InstructionWidth.ofOpcode opcode with
  | fixed width => simp only [Walk.widthAt, hw, (isInstruction_of_fixed hw).mp h]
  | wide =>
      have hl := (isInstruction_of_wide hw).mp h
      cases operands with
      | nil => simp at hl
      | cons widened operands => simpa [Walk.widthAt, hw] using hl.symm
  | byOperands => simp only [IsInstruction, hw] at h
  | invalid => simp only [IsInstruction, hw] at h

theorem Walk.isInstruction_of_widthAt {opcode : UInt8} {rest : Bytes} {offset : UInt16}
    {width : Nat} (h : widthAt offset opcode rest = .ok width)
    (hl : (rest.take (width - 1)).length = width - 1) :
    1 ≤ width ∧ IsInstruction (opcode :: rest.take (width - 1)) := by
  cases hw : InstructionWidth.ofOpcode opcode with
  | fixed n =>
      simp only [widthAt, hw, Except.ok.injEq] at h
      subst h
      have hb := InstructionWidth.fixed_bounds hw
      rw [isInstruction_of_fixed hw]
      omega
  | wide =>
      cases rest with
      | nil => simp [widthAt, hw] at h
      | cons widened rest =>
          simp only [widthAt, hw, Except.ok.injEq] at h
          subst h
          rw [isInstruction_of_wide hw]
          split at hl <;> simp_all
  | byOperands => simp [widthAt, hw] at h
  | invalid => simp [widthAt, hw] at h

theorem blocked_iff {offset : UInt16} {opcode : UInt8} {operands : Bytes} {e : ScanError} :
    Blocked offset (opcode :: operands) e ↔
      Walk.widthAt offset opcode operands = .error e ∨
        ∃ width, Walk.widthAt offset opcode operands = .ok width ∧ operands.length + 1 < width ∧
          e = .truncated offset := by
  constructor
  · intro h
    cases h with
    | byOperands h =>
        simp [Walk.widthAt, (InstructionWidth.ofOpcode_eq_byOperands_iff opcode).mpr h]
    | unassigned h =>
        simp [Walk.widthAt, (InstructionWidth.ofOpcode_eq_invalid_iff opcode).mpr h]
    | short h hl => simpa [Walk.widthAt, h] using hl
    | wideAlone => simp [Walk.widthAt, (InstructionWidth.ofOpcode_eq_wide_iff 0xc4).mpr rfl]
    | wideShort hl =>
        simpa [Walk.widthAt, (InstructionWidth.ofOpcode_eq_wide_iff 0xc4).mpr rfl] using hl
  · intro h
    cases hw : InstructionWidth.ofOpcode opcode with
    | fixed width =>
        obtain ⟨hl, rfl⟩ : operands.length + 1 < width ∧ e = .truncated offset := by
          simpa [Walk.widthAt, hw] using h
        exact .short hw hl
    | wide =>
        obtain rfl := (InstructionWidth.ofOpcode_eq_wide_iff opcode).mp hw
        cases operands with
        | nil =>
            obtain rfl : .truncated offset = e := by simpa [Walk.widthAt, hw] using h
            exact .wideAlone
        | cons widened operands =>
            obtain ⟨hl, rfl⟩ : operands.length + 2 < (if widened = Opcode.iinc then 6 else 4) ∧
                e = .truncated offset := by
              simpa [Walk.widthAt, hw] using h
            exact .wideShort hl
    | byOperands =>
        obtain rfl : .unsupportedWidth opcode offset = e := by simpa [Walk.widthAt, hw] using h
        exact .byOperands ((InstructionWidth.ofOpcode_eq_byOperands_iff opcode).mp hw)
    | invalid =>
        obtain rfl : .invalidOpcode opcode offset = e := by simpa [Walk.widthAt, hw] using h
        exact .unassigned ((InstructionWidth.ofOpcode_eq_invalid_iff opcode).mp hw)

theorem Blocked.unique {offset : UInt16} {left : Bytes} {e e' : ScanError}
    (h : Blocked offset left e) (h' : Blocked offset left e') : e = e' := by
  cases left with
  | nil => exact absurd rfl h.ne_nil
  | cons opcode operands =>
      obtain hw | ⟨width, hw, -, he⟩ := blocked_iff.mp h
      · obtain hw' | ⟨width', hw', -⟩ := blocked_iff.mp h'
        · exact Except.error.inj (hw.symm.trans hw')
        · cases hw.symm.trans hw'
      · obtain hw' | ⟨width', hw', -, he'⟩ := blocked_iff.mp h'
        · cases hw.symm.trans hw'
        · exact he.trans he'.symm

/-! ## Whole walks -/

/-- What is left of code where a walk through it stops: nothing, or blocked bytes. -/
inductive Stops (offset : UInt16) : Bytes → Option ScanError → Prop
  | atEnd : Stops offset [] none
  | blocked {left : Bytes} {e : ScanError} (h : Blocked offset left e) : Stops offset left (some e)

theorem Stops.eq_none_iff {offset : UInt16} {left : Bytes} {fault : Option ScanError}
    (h : Stops offset left fault) : fault = none ↔ left = [] := by
  cases h with
  | atEnd => exact iff_of_true rfl rfl
  | blocked h => exact iff_of_false (by simp) h.ne_nil

theorem Stops.eq_some_iff {offset : UInt16} {left : Bytes} {fault : Option ScanError}
    (h : Stops offset left fault) (e : ScanError) : fault = some e ↔ Blocked offset left e := by
  cases h with
  | atEnd => exact iff_of_false (by simp) fun hb => hb.ne_nil rfl
  | blocked h => exact ⟨fun he => Option.some.inj he ▸ h, fun hb => congrArg some (h.unique hb)⟩

namespace Walk

/-- A walk meets the instructions of the code up to where it stops. -/
theorem after_splits (done : List Instruction) (offset : Nat) (code : Bytes) :
    ∃ front left more, code = front ++ left ∧ Decodes offset front more ∧
      Stops (UInt16.ofNat (offset + front.length)) left (after done offset code).fault ∧
      (after done offset code).instructions = done.reverse ++ more := by
  fun_induction after done offset code with
  | case1 done offset => exact ⟨[], [], [], rfl, .nil, .atEnd, by simp⟩
  | case2 done offset opcode rest e hw =>
      exact ⟨[], opcode :: rest, [], rfl, .nil, .blocked (blocked_iff.mpr (.inl hw)), by simp⟩
  | case3 done offset opcode rest width hw operands hl ih =>
      obtain ⟨hpos, hi⟩ := isInstruction_of_widthAt hw hl
      obtain ⟨front, left, more, hs, hd, hstop, hmore⟩ := ih
      have hlen : (opcode :: operands).length = width := by
        rw [List.length_cons, hl, Nat.sub_add_cancel hpos]
      have hcode : opcode :: rest = (opcode :: operands) ++ front ++ left := by
        rw [List.append_assoc, ← hs, List.cons_append, List.take_append_drop]
      refine ⟨(opcode :: operands) ++ front, left, _, hcode, .cons hi (hlen ▸ hd), ?_, ?_⟩
      · rwa [List.length_append, hlen, ← Nat.add_assoc]
      · rw [hmore, List.reverse_cons, List.append_assoc, List.singleton_append]
  | case4 done offset opcode rest width hw operands hl =>
      refine ⟨[], opcode :: rest, [], rfl, .nil, .blocked (blocked_iff.mpr (.inr ?_)), by simp⟩
      refine ⟨width, hw, ?_, rfl⟩
      simp only [operands, List.length_take] at hl
      omega

theorem after_of_stops {offset : Nat} {left : Bytes} {fault : Option ScanError}
    (h : Stops (UInt16.ofNat offset) left fault) (done : List Instruction) :
    after done offset left = ⟨done.reverse, fault⟩ := by
  cases h with
  | atEnd => rw [after]
  | @blocked _ e h =>
      cases left with
      | nil => cases h
      | cons opcode operands =>
          obtain hw | ⟨width, hw, hl, rfl⟩ := blocked_iff.mp h
          · rw [after, hw]
          · have hne : (operands.take (width - 1)).length ≠ width - 1 := by
              rw [List.length_take]
              omega
            rw [after, hw]
            simp only [if_neg hne]

theorem after_of_decodes {offset : Nat} {front left : Bytes} {more : List Instruction}
    {fault : Option ScanError} (h : Decodes offset front more)
    (hs : Stops (UInt16.ofNat (offset + front.length)) left fault) (done : List Instruction) :
    after done offset (front ++ left) = ⟨done.reverse ++ more, fault⟩ := by
  induction h generalizing done with
  | nil => simpa using after_of_stops hs done
  | @cons offset bytes rest instructions hi hr ih =>
      cases bytes with
      | nil => exact hi.elim
      | cons opcode operands =>
          rw [List.append_assoc, List.cons_append, after]
          simp only [hi.widthAt, Nat.add_sub_cancel, List.take_left, List.drop_left, ↓reduceIte]
          rw [List.length_append, ← Nat.add_assoc] at hs
          simpa using ih hs (⟨UInt16.ofNat offset, opcode :: operands⟩ :: done)

/-- The walks through code are those that meet what the code in front of their stop decodes to. -/
theorem ofCode_eq_walk_iff {code : Bytes} {walk : Walk} :
    ofCode code = .ok walk ↔
      code.length < 0x10000 ∧ ∃ front left, code = front ++ left ∧
        Decodes 0 front walk.instructions ∧ Stops (UInt16.ofNat front.length) left walk.fault := by
  unfold ofCode
  split
  · rename_i hl
    simp only [Except.ok.injEq, hl, true_and]
    constructor
    · rintro rfl
      obtain ⟨front, left, more, hcode, hd, hs, hmore⟩ := after_splits [] 0 code
      rw [List.reverse_nil, List.nil_append] at hmore
      exact ⟨front, left, hcode, hmore ▸ hd, by simpa using hs⟩
    · rintro ⟨front, left, rfl, hd, hs⟩
      rw [after_of_decodes hd (by simpa using hs), List.reverse_nil, List.nil_append]
  · simp [*]

theorem ofCode_eq_ok_iff {code : Bytes} {instructions : List Instruction} :
    ofCode code = .ok ⟨instructions, none⟩ ↔
      code.length < 0x10000 ∧ Decodes 0 code instructions := by
  rw [ofCode_eq_walk_iff]
  refine and_congr_right fun _ => ⟨?_, fun hd => ⟨code, [], by simp, hd, .atEnd⟩⟩
  rintro ⟨front, left, rfl, hd, hs⟩
  cases hs
  rwa [List.append_nil]

end Walk

theorem Decodes.unique {offset : Nat} {code : Bytes} {instructions instructions' : List Instruction}
    (h : Decodes offset code instructions) (h' : Decodes offset code instructions') :
    instructions = instructions' := by
  have := (Walk.after_of_decodes h .atEnd []).symm.trans (Walk.after_of_decodes h' .atEnd [])
  simpa using this

end ClassSplice
