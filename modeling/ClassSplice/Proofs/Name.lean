import ClassSplice.Pool
import ClassSplice.Proofs.Outcome

/-!
# Class names and their dotted form

A class name is one or more segments joined by slashes. It holds no dots and no brackets, so writing
slashes as dots loses nothing, and the name of an array class is not a class name.
-/

namespace ClassSplice

/-! ## Characters of names -/

theorem segments_cons (c : Char) (cs : List Char) :
    segments (c :: cs) =
      if c = '/' then [] :: segments cs else (segments cs).modifyHead (c :: ·) := rfl

theorem segments_eq_splitOn (cs : List Char) : segments cs = cs.splitOn '/' := by
  induction cs with
  | nil => rfl
  | cons c cs ih =>
      rw [segments_cons, List.splitOn_cons_eq_if_modifyHead, ih]
      simp only [beq_iff_eq]

theorem exists_segments_eq_cons (cs : List Char) : ∃ first rest, segments cs = first :: rest := by
  rw [segments_eq_splitOn]
  exact List.exists_cons_of_ne_nil (List.splitOn_ne_nil '/' cs)

/-- Every character that is not a slash stands in some segment. -/
theorem exists_mem_segments {cs : List Char} {c : Char} (hm : c ∈ cs) (hc : c ≠ '/') :
    ∃ segment ∈ segments cs, c ∈ segment := by
  induction cs with
  | nil => cases hm
  | cons d cs ih =>
      obtain ⟨first, rest, hs⟩ := exists_segments_eq_cons cs
      rw [segments_cons, hs, List.modifyHead_cons]
      rw [hs] at ih
      rcases List.mem_cons.mp hm with rfl | hm
      · rw [if_neg hc]
        exact ⟨c :: first, List.mem_cons_self, List.mem_cons_self⟩
      · obtain ⟨segment, hseg, hin⟩ := ih hm
        split
        · exact ⟨segment, List.mem_cons_of_mem _ hseg, hin⟩
        · rcases List.mem_cons.mp hseg with rfl | hseg
          · exact ⟨d :: segment, List.mem_cons_self, List.mem_cons_of_mem _ hin⟩
          · exact ⟨segment, List.mem_cons_of_mem _ hseg, hin⟩

/-! ## The grammar of class names -/

/-- What stands between the slashes of a class name. -/
structure IsSegment (cs : List Char) : Prop where
  ne_nil : cs ≠ []
  legal : ∀ c ∈ cs, c ∉ ['.', ';', '[', '/']

/-- Class names are segments joined by slashes. -/
inductive IsClassName : List Char → Prop
  | segment {cs : List Char} (hs : IsSegment cs) : IsClassName cs
  | join {cs rest : List Char} (hs : IsSegment cs) (hr : IsClassName rest) :
      IsClassName (cs ++ '/' :: rest)

variable {cs rest : List Char}

theorem segmentError?_eq_none_iff : segmentError? cs = none ↔ IsSegment cs := by
  have hlegal : cs.any illegalInSegment = false ↔ ∀ c ∈ cs, c ∉ ['.', ';', '[', '/'] := by
    simp [illegalInSegment, and_assoc]
  cases hany : cs.any illegalInSegment with
  | true =>
      simp only [segmentError?, hany, if_true, reduceCtorEq, false_iff]
      exact fun hs => by simp [hlegal.mpr hs.legal] at hany
  | false =>
      simp only [segmentError?, hany, Bool.false_eq_true, if_false, ite_eq_right_iff, reduceCtorEq,
        imp_false, List.isEmpty_iff]
      exact ⟨fun hne => ⟨hne, hlegal.mp hany⟩, IsSegment.ne_nil⟩

theorem segments_of_not_mem (h : '/' ∉ cs) : segments cs = [cs] := by
  rw [segments_eq_splitOn, List.splitOn_eq_singleton h]

theorem segments_append_slash (h : '/' ∉ cs) (rest : List Char) :
    segments (cs ++ '/' :: rest) = cs :: segments rest := by
  simp only [segments_eq_splitOn, List.splitOn_append_cons_self_of_not_mem h]

theorem IsSegment.slash_not_mem (hs : IsSegment cs) : '/' ∉ cs :=
  fun hm => hs.legal _ hm (by decide)

theorem isClassName_iff_segments (cs : List Char) :
    IsClassName cs ↔ ∀ s ∈ segments cs, IsSegment s := by
  constructor
  · intro h
    induction h with
    | segment hs => simpa [segments_of_not_mem hs.slash_not_mem] using hs
    | join hs _ ih => simpa [segments_append_slash hs.slash_not_mem, hs] using ih
  · intro h
    by_cases hm : '/' ∈ cs
    · obtain ⟨first, rest, hcs, hfirst⟩ := List.eq_append_cons_of_mem hm
      have hlt : rest.length < cs.length := by
        rw [hcs, List.length_append, List.length_cons]
        omega
      rw [hcs, segments_append_slash hfirst] at h
      obtain ⟨hs, hrest⟩ := List.forall_mem_cons.mp h
      exact hcs ▸ .join hs ((isClassName_iff_segments rest).mpr hrest)
    · rw [segments_of_not_mem hm] at h
      exact .segment (h cs List.mem_cons_self)
termination_by cs.length

theorem classNameError?_eq_none_iff : classNameError? cs = none ↔ IsClassName cs := by
  simp only [isClassName_iff_segments, ← segmentError?_eq_none_iff, classNameError?]
  cases cs with
  | nil => decide
  | cons c cs => simp

namespace ClassName

variable {name : ClassName} {text : String}

theorem not_mem_of_illegal (name : ClassName) {c : Char} (hi : illegalInSegment c = true)
    (hc : c ≠ '/') : c ∉ name.text.toList := by
  intro hm
  have hv := name.valid
  unfold classNameError? at hv
  split at hv
  · cases hv
  · obtain ⟨segment, hs, hin⟩ := exists_mem_segments hm hc
    have hsegment := List.findSome?_eq_none_iff.mp hv segment hs
    have hany : segment.any illegalInSegment = true := List.any_eq_true.mpr ⟨c, hin, hi⟩
    simp [segmentError?, hany] at hsegment

theorem ext_text {a b : ClassName} (h : a.text = b.text) : a = b := by
  cases a
  cases b
  cases h
  rfl

theorem ofString_eq_ok_iff : ofString text = .ok name ↔ name.text = text := by
  unfold ofString
  constructor
  · intro h
    split at h
    · cases h
    · cases h
      rfl
  · rintro rfl
    split
    · rename_i e he
      rw [name.valid] at he
      cases he
    · rfl

theorem ofDotted_eq_ok_iff : ofDotted text = .ok name ↔ name.text = replaceChar '.' '/' text :=
  ofString_eq_ok_iff

/-! ## Dots and slashes -/

theorem not_mem_replaceChar {old new : Char} (h : old ≠ new) (text : String) :
    old ∉ (replaceChar old new text).toList := by
  simp only [replaceChar, String.toList_ofList, List.mem_map, not_exists, not_and]
  intro c _ hc
  split at hc
  · exact h hc.symm
  · rename_i hne
    exact hne hc

theorem mem_replaceChar {old new c : Char} (hm : c ∈ text.toList) (hc : c ≠ old) :
    c ∈ (replaceChar old new text).toList := by
  simp only [replaceChar, String.toList_ofList, List.mem_map]
  exact ⟨c, hm, if_neg hc⟩

/-- A replacement is undone by the opposite one in a text that had none of the new characters. -/
theorem replaceChar_replaceChar {old new : Char} (h : new ∉ text.toList) :
    replaceChar new old (replaceChar old new text) = text := by
  apply String.toList_inj.mp
  simp only [replaceChar, String.toList_ofList, List.map_map]
  conv_rhs => rw [← List.map_id text.toList]
  refine List.map_congr_left fun c hc => ?_
  have hne : c ≠ new := fun hcn => h (hcn ▸ hc)
  by_cases ho : c = old <;> simp [ho, hne]

/-- A replacement comes to the same after the opposite one as without it. -/
theorem replaceChar_through (old new : Char) (text : String) :
    replaceChar old new (replaceChar new old text) = replaceChar old new text := by
  apply String.toList_inj.mp
  simp only [replaceChar, String.toList_ofList, List.map_map]
  refine List.map_congr_left fun c _ => ?_
  by_cases hn : c = new <;> simp [hn]

end ClassName

/-! ## Names of array classes -/

namespace FieldType

/-- Text that opens with a bracket is read as a type with at least one dimension. -/
theorem dims_pos_of_parse {text : String} {type : FieldType}
    (h : text.toList.head? = some '[') (hp : parse text = .ok type) : 0 < type.dims := by
  obtain ⟨rest, hr⟩ := List.head?_eq_some_iff.mp h
  simp only [parse, readWhole, front, hr, List.takeWhile_cons, List.dropWhile_cons, decide_true,
    if_true, List.length_cons] at hp
  cases he : ElementType.front (rest.dropWhile (· = '[')) with
  | error e => simp [he] at hp
  | ok p =>
      obtain ⟨element, left⟩ := p
      cases left with
      | nil =>
          simp only [he, Except.ok.injEq] at hp
          rw [← hp]
          exact Nat.succ_pos _
      | cons c left => simp [he] at hp

theorem bracket_mem_sourceName {type : FieldType} (h : 0 < type.dims) :
    '[' ∈ type.sourceName.toList := by
  obtain ⟨n, hn⟩ := Nat.exists_eq_succ_of_ne_zero (Nat.ne_of_gt h)
  simp [sourceName, hn, List.replicate_succ]

end FieldType

namespace Pool

variable {pool : Pool} {index : PoolIndex} {internal dotted : String} {name : ClassName}

/-- The name of a class can be read when its text is in the pool, and when that is the name of an
array class it also has to be a type. -/
theorem className_eq_ok_iff : pool.className index = .ok dotted ↔
    ∃ internal, pool.internalName index = .ok internal ∧
      if internal.toList.head? = some '[' then
        ∃ type, FieldType.parse internal = .ok type ∧ type.sourceName = dotted
      else ClassName.replaceChar '/' '.' internal = dotted := by
  simp only [className, bind_eq_ok_iff, sourceNameOf]
  refine exists_congr fun internal => and_congr_right fun _ => ?_
  split
  · cases FieldType.parse internal <;> simp
  · simp

theorem bracket_mem_className (hi : pool.internalName index = .ok internal)
    (hb : internal.toList.head? = some '[') (hd : pool.className index = .ok dotted) :
    '[' ∈ dotted.toList := by
  obtain ⟨text, ht, hd⟩ := className_eq_ok_iff.mp hd
  obtain rfl : internal = text := Except.ok.inj (hi.symm.trans ht)
  rw [if_pos hb] at hd
  obtain ⟨type, hp, rfl⟩ := hd
  exact FieldType.bracket_mem_sourceName (FieldType.dims_pos_of_parse hb hp)

/-- The name of an array class does not become a class name. -/
theorem text_ne_of_bracket (hi : pool.internalName index = .ok internal)
    (hb : internal.toList.head? = some '[') (hd : pool.className index = .ok dotted)
    (name : ClassName) : name.text ≠ ClassName.replaceChar '.' '/' dotted := by
  intro ht
  refine name.not_mem_of_illegal (c := '[') (by decide) (by decide) ?_
  rw [ht]
  exact ClassName.mem_replaceChar (bracket_mem_className hi hb hd) (by decide)

/-- A class name that comes from the name of a class has that name as its dotted form. -/
theorem dotted_of_text_eq (hd : pool.className index = .ok dotted)
    (ht : name.text = ClassName.replaceChar '.' '/' dotted) : name.dotted = dotted := by
  obtain ⟨internal, hi, hs⟩ := className_eq_ok_iff.mp hd
  have hb : ¬ internal.toList.head? = some '[' := fun hb => text_ne_of_bracket hi hb hd name ht
  rw [if_neg hb] at hs
  subst hs
  have hslash : '/' ∉ (ClassName.replaceChar '/' '.' internal).toList :=
    ClassName.not_mem_replaceChar (by decide) internal
  rw [ClassName.dotted, ht, ClassName.replaceChar_replaceChar hslash]

/-- A class name comes from the name of a class when the text of that name, which is not one of an
array, is the class name up to dots for slashes. -/
theorem exists_className_iff :
    (∃ dotted, pool.className index = .ok dotted ∧
      name.text = ClassName.replaceChar '.' '/' dotted) ↔
    ∃ internal, pool.internalName index = .ok internal ∧ internal.toList.head? ≠ some '[' ∧
      name.text = ClassName.replaceChar '.' '/' internal := by
  constructor
  · rintro ⟨dotted, hd, ht⟩
    obtain ⟨internal, hi, hs⟩ := className_eq_ok_iff.mp hd
    have hb : ¬ internal.toList.head? = some '[' := fun hb => text_ne_of_bracket hi hb hd name ht
    rw [if_neg hb] at hs
    exact ⟨internal, hi, hb, by rw [ht, ← hs, ClassName.replaceChar_through]⟩
  · rintro ⟨internal, hi, hb, ht⟩
    refine ⟨_, className_eq_ok_iff.mpr ⟨internal, hi, by rw [if_neg hb]⟩, ?_⟩
    rw [ht, ClassName.replaceChar_through]

end Pool

end ClassSplice
