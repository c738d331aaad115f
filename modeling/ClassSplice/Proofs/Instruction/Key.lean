import ClassSplice.Instruction.Search
import ClassSplice.Layout.Exact
import Mathlib.Algebra.Group.Nat.Defs
import Mathlib.Data.List.Induction

/-!
# Keys of instructions

The key of up to eight bytes is the number whose eight bytes, high byte first, are these bytes
behind zeros. The zeros hide how many bytes there were, so keys of two lengths are equal when only
zeros make the difference. Keys of one length are equal only for equal bytes, and an encoding
accepts exactly its own bytes.
-/

namespace ClassSplice.Encoding

variable {e : Encoding} {bytes a b : Bytes}

/-! ## Bytes as one number -/

/-- The number that the bytes make up, high byte first. -/
def packed (bytes : Bytes) : UInt64 := bytes.foldl (fun k b => k * 0x100 + b.toUInt64) 0

theorem packed_concat (bytes : Bytes) (b : UInt8) :
    packed (bytes ++ [b]) = packed bytes * 0x100 + b.toUInt64 := by
  simp [packed]

theorem packed_lt (h : bytes.length ≤ 8) :
    (packed bytes).toNat < 0x100 ^ bytes.length := by
  induction bytes using List.reverseRecOn with
  | nil => decide
  | append_singleton bytes b ih =>
      rw [List.length_append, List.length_singleton] at h ⊢
      have := ih (by omega)
      have := b.toNat_lt
      simp only [packed_concat, UInt64.toNat_add, UInt64.toNat_mul, UInt8.toNat_toUInt64,
        UInt64.reduceToNat, Nat.pow_succ]
      omega

/-- Seven bytes leave room for one more, so adding it loses nothing. -/
theorem packed_concat_toNat (h : bytes.length ≤ 7) (b : UInt8) :
    (packed (bytes ++ [b])).toNat = (packed bytes).toNat * 0x100 + b.toNat := by
  have hlt : (packed bytes).toNat < 0x100 ^ bytes.length := packed_lt (by omega)
  have hpow : 0x100 ^ bytes.length ≤ 0x100 ^ 7 := Nat.pow_le_pow_right (by decide) h
  have := b.toNat_lt
  simp only [packed_concat, UInt64.toNat_add, UInt64.toNat_mul, UInt8.toNat_toUInt64,
    UInt64.reduceToNat]
  omega

/-- Up to eight bytes nothing is lost to the width of a word. -/
theorem packed_toNat (h : bytes.length ≤ 8) :
    (packed bytes).toNat = bytes.foldl (fun k b => k * 0x100 + b.toNat) 0 := by
  induction bytes using List.reverseRecOn with
  | nil => rfl
  | append_singleton bytes b ih =>
      rw [List.length_append, List.length_singleton] at h
      rw [packed_concat_toNat (by omega), ih (by omega), List.foldl_append]
      rfl

/-! ## Zeros in front -/

/-- The bytes with zeros in front up to eight. -/
def padded (bytes : Bytes) : Bytes := bytes.leftpad 8 0

theorem length_padded (h : bytes.length ≤ 8) : (padded bytes).length = 8 := by
  rw [padded, List.length_leftpad]
  omega

theorem packed_zeros_append (n : Nat) (bytes : Bytes) :
    packed (List.replicate n 0 ++ bytes) = packed bytes := by
  induction n with
  | zero => rfl
  | succ n ih =>
      rw [List.replicate_succ, List.cons_append, ← ih]
      rfl

theorem packed_padded (bytes : Bytes) : packed (padded bytes) = packed bytes :=
  packed_zeros_append _ bytes

theorem read_packed (h : bytes.length = 8) : Layout.u64.read bytes = .ok (packed bytes, []) := by
  match bytes, h with
  | [a, b, c, d, e, f, g, i], h =>
      -- Both numbers are the same sum over the eight bytes.
      have hp := packed_toNat (Nat.le_of_eq h)
      simp only [List.foldl_cons, List.foldl_nil] at hp
      simp only [Layout.u64, Layout.u32, Layout.u16, Layout.imap, Layout.pair, Except.ok.injEq,
        Prod.mk.injEq, and_true]
      apply UInt64.toNat.inj
      simp only [hp, Layout.toNat_joined, UInt32.toNat_ofNat', UInt64.toNat_ofNat']
      have := a.toNat_lt
      have := b.toNat_lt
      have := c.toNat_lt
      have := d.toNat_lt
      have := e.toNat_lt
      have := f.toNat_lt
      have := g.toNat_lt
      have := i.toNat_lt
      omega

theorem write_eq_padded_iff (h : bytes.length ≤ 8) {k : UInt64} :
    Layout.u64.write k = padded bytes ↔ k = packed bytes := by
  have hread := read_packed (length_padded h)
  have hk := Layout.exact_u64 (padded bytes) k []
  rw [hread, packed_padded, List.append_nil] at hk
  constructor
  · intro hw
    cases hk.mpr ⟨⟨⟨trivial, trivial⟩, trivial, trivial⟩, hw.symm⟩
    rfl
  · rintro rfl
    exact (hk.mp rfl).2.symm

/-- Bytes of two lengths are padded to the same when the longer are the shorter behind zeros. -/
theorem padded_eq_iff (hl : a.length ≤ b.length) (h8 : b.length ≤ 8) :
    padded a = padded b ↔ b = List.replicate (b.length - a.length) 0 ++ a := by
  have hsplit : 8 - a.length = (8 - b.length) + (b.length - a.length) := by omega
  rw [padded, padded, List.leftpad, List.leftpad, hsplit, ← List.replicate_append_replicate,
    List.append_assoc, List.append_cancel_left_eq, eq_comm]

theorem padded_inj (hl : a.length = b.length) (h8 : a.length ≤ 8) :
    padded a = padded b ↔ a = b := by
  rw [padded_eq_iff (Nat.le_of_eq hl) (hl ▸ h8), hl, Nat.sub_self, eq_comm]
  rfl

/-! ## Comparing -/

/-- The key is the number whose bytes, high byte first, are those given behind zeros. -/
theorem keyOf_eq_some_iff {k : UInt64} :
    keyOf bytes = some k ↔ bytes.length ≤ 8 ∧ Layout.u64.write k = padded bytes := by
  unfold keyOf
  split
  · rename_i h
    rw [write_eq_padded_iff h, Option.some.injEq, eq_comm]
    exact (and_iff_right h).symm
  · rename_i h
    exact iff_of_false (by simp) fun hk => h hk.1

theorem keyOf_eq_iff (ha : a.length ≤ 8) (hb : b.length ≤ 8) :
    keyOf a = keyOf b ↔ padded a = padded b := by
  have hk : keyOf b = some (packed b) := if_pos hb
  rw [hk, keyOf_eq_some_iff, ← (write_eq_padded_iff hb).mpr rfl, eq_comm (a := padded a)]
  exact and_iff_right ha

/-- Keys of one length tell their bytes apart. -/
theorem keyOf_inj (hl : a.length = b.length) (h8 : a.length ≤ 8) :
    keyOf a = keyOf b ↔ a = b := by
  rw [keyOf_eq_iff h8 (hl ▸ h8), padded_inj hl h8]

theorem accepts_iff : e.accepts bytes = true ↔ e.bytes = bytes ∧ e.bytes.length ≤ 8 := by
  simp only [accepts, key, Bool.and_eq_true, beq_iff_eq]
  constructor
  · rintro ⟨⟨hl, hs⟩, hk⟩
    by_cases h8 : e.bytes.length ≤ 8
    · exact ⟨(keyOf_inj hl h8).mp hk, h8⟩
    · simp [keyOf, h8] at hs
  · rintro ⟨rfl, h8⟩
    simp [keyOf, h8]

theorem invokeStatic_accepts_iff {index : UInt16} :
    (invokeStatic index).accepts bytes = true ↔ (invokeStatic index).bytes = bytes := by
  simp [accepts_iff, invokeStatic]

/-- An encoding accepts exactly its own bytes, and those only if they are at most eight. Keys of one
length tell all bytes apart. Keys of two lengths are equal when the longer bytes are the shorter
ones behind zeros, and even then the one does not accept the other. -/
theorem keys_compare_bytes :
    (∀ (e : Encoding) (bytes : Bytes),
      e.accepts bytes = true ↔ e.bytes = bytes ∧ bytes.length ≤ 8) ∧
    (∀ (bytes : Bytes) (k : UInt64),
      keyOf bytes = some k ↔ bytes.length ≤ 8 ∧ Layout.u64.write k = padded bytes) ∧
    (∀ a b : Bytes, a.length = b.length → a.length ≤ 8 → (keyOf a = keyOf b ↔ a = b)) ∧
    (∀ a b : Bytes, a.length < b.length → b.length ≤ 8 →
      (keyOf a = keyOf b ↔ b = List.replicate (b.length - a.length) 0 ++ a)) ∧
    ∀ (e : Encoding) (bytes : Bytes), e.bytes.length ≠ bytes.length → e.key = keyOf bytes →
      e.accepts bytes = false := by
  refine ⟨fun e bytes => ?_, fun bytes k => keyOf_eq_some_iff, fun a b => keyOf_inj,
    fun a b hl h8 => ?_, fun e bytes hl _ => ?_⟩
  · rw [accepts_iff]
    exact and_congr_right fun h => by rw [h]
  · rw [keyOf_eq_iff (by omega) h8, padded_eq_iff (by omega) h8]
  · rw [Bool.eq_false_iff, ne_eq, accepts_iff]
    rintro ⟨rfl, -⟩
    exact hl rfl

-- A `nop` in front of a call leaves the key as it is.
example :
    keyOf [0xb8, 0x00, 0x2a] = keyOf [0x00, 0xb8, 0x00, 0x2a] ∧
      (⟨[0xb8, 0x00, 0x2a]⟩ : Encoding).accepts [0x00, 0xb8, 0x00, 0x2a] = false := by decide

end ClassSplice.Encoding
