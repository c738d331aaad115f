import ClassSplice.ClassFile
import ClassSplice.Proofs.Pool

/-!
# Attributes and method bodies

What decoding an attribute says about its name and its body, and which method and which body a class
gives for a name.
-/

namespace ClassSplice

namespace Attribute

variable {α : Type} {form : BodyForm α} {pool : Pool} {a : Attribute} {value : α}

theorem readBody_eq_ok_iff {body : Bytes} :
    readBody form body = .ok value ↔ form.layout.read body = .ok (value, []) := by
  unfold readBody
  split
  · simp [*]
  · simp [*]
  · rename_i a rest hne hr
    cases rest with
    | nil => exact (hne rfl).elim
    | cons b rest => simp [hr]

theorem decode_eq_ok_some_iff :
    decode form pool a = .ok (some value) ↔
      pool.utf8 a.name = .ok form.name ∧ form.layout.read a.body = .ok (value, []) := by
  simp only [decode, bind_eq_ok_iff, ← readBody_eq_ok_iff]
  constructor
  · rintro ⟨text, ht, h⟩
    split at h
    · rename_i hn
      split at h
      · rename_i v hv
        cases h
        exact ⟨hn ▸ ht, hv⟩
      · cases h
    · cases h
  · rintro ⟨ht, hv⟩
    exact ⟨_, ht, by simp [hv]⟩

theorem decode_eq_ok_none_iff :
    decode form pool a = .ok none ↔ ∃ text, pool.utf8 a.name = .ok text ∧ text ≠ form.name := by
  simp only [decode, bind_eq_ok_iff]
  refine exists_congr fun text => and_congr_right fun _ => ?_
  split
  · split <;> simp [*]
  · simp [*]

theorem readBody_eq_unreadable_iff {body : Bytes} {cause : ReadError} :
    readBody form body = .error (.unreadable cause) ↔ form.layout.read body = .error cause := by
  unfold readBody
  split <;> simp [*]

theorem readBody_eq_trailing_iff {body : Bytes} {n : Nat} :
    readBody form body = .error (.trailing n) ↔ ∃ value extra,
      form.layout.read body = .ok (value, extra) ∧ extra ≠ [] ∧ extra.length = n := by
  unfold readBody
  split
  · simp [*]
  · simp [*]
  · rename_i value extra hne hr
    have hextra : extra ≠ [] := fun h => hne h
    simp [hr, hextra]

theorem decode_eq_error_iff {e : ClassFault} :
    decode form pool a = .error e ↔ pool.utf8 a.name = .error e ∨
      pool.utf8 a.name = .ok form.name ∧ ∃ fault, readBody form a.body = .error fault ∧
        e = .malformedAttribute form.name fault := by
  simp only [decode, bind_eq_error_iff]
  refine or_congr_right ⟨?_, ?_⟩
  · rintro ⟨text, ht, h⟩
    split at h
    · rename_i hn
      split at h
      · cases h
      · rename_i fault hf
        cases h
        exact ⟨hn ▸ ht, fault, hf, rfl⟩
    · cases h
  · rintro ⟨ht, fault, hf, rfl⟩
    exact ⟨_, ht, by simp [hf]⟩

theorem decode_eq_malformed_iff {fault : BodyFault} :
    decode form pool a = .error (.malformedAttribute form.name fault) ↔
      pool.utf8 a.name = .ok form.name ∧ readBody form a.body = .error fault := by
  have hne := pool.utf8_ne_malformedAttribute a.name form.name fault
  rw [decode_eq_error_iff, or_iff_right hne]
  simp

end Attribute

/-! ## Methods -/

/-- The method is the first in the order of declaration that has the name. -/
def ClassFile.FirstNamed (c : ClassFile) (name : String) (method : Method) : Prop :=
  ∃ before after, c.methods = before ++ method :: after ∧ c.pool.utf8 method.name = .ok name ∧
    ∀ other ∈ before, c.pool.utf8 other.name ≠ .ok name

theorem ClassFile.isNamed_iff {c : ClassFile} {name : String} {method : Method} :
    c.isNamed name method = true ↔ c.pool.utf8 method.name = .ok name := by
  unfold isNamed Member.nameText
  split <;> simp [*]

theorem ClassFile.method?_eq_some_iff {c : ClassFile} {name : String} {method : Method} :
    c.method? name = some method ↔ c.FirstNamed name method := by
  simp only [method?, List.find?_eq_some_iff_append, isNamed_iff, FirstNamed, Bool.not_eq_eq_eq_not,
    Bool.not_true, Bool.eq_false_iff, ne_eq]
  constructor
  · rintro ⟨hn, before, after, hs, hb⟩
    exact ⟨before, after, hs, hn, hb⟩
  · rintro ⟨before, after, hs, hn, hb⟩
    exact ⟨hn, before, after, hs, hb⟩

/-- The first attribute named `Code` holds the body, with no bytes left over. -/
def Method.FirstCode (pool : Pool) (method : Method) (code : Code) : Prop :=
  ∃ before a after, method.attributes = before ++ a :: after ∧
    (∀ other ∈ before, ∃ text, pool.utf8 other.name = .ok text ∧ text ≠ "Code") ∧
    pool.utf8 a.name = .ok "Code" ∧ Code.layout.read a.body = .ok (code, [])

theorem Method.code_eq_ok_some_iff {pool : Pool} {method : Method} {code : Code} :
    method.code pool = .ok (some code) ↔ Method.FirstCode pool method code := by
  simp only [Method.code, findSomeM?_eq_ok_some_iff, Attribute.decode_eq_ok_some_iff,
    Attribute.decode_eq_ok_none_iff, FirstCode, Code.form]

end ClassSplice
