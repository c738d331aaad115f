import ClassSplice.Request
import ClassSplice.Proofs.Name
import ClassSplice.Proofs.Invocations
import ClassSplice.Proofs.LastCall
import Mathlib.Data.List.TakeWhile
import Mathlib.Data.Set.List

/-!
# Descriptors as text

A reader of descriptors takes a front off the text exactly when that front is how the type is
written. So a descriptor is read from one text only, the one it is written as, and the texts that
can be read are those of the grammar.
-/

namespace ClassSplice

/-! ## Readers and writers -/

/-- What is read from the front of a text is what writes that front, and the rest is left alone. -/
def Reads {α : Type} (front : List Char → Except DescriptorError (α × List Char))
    (render : α → List Char) : Prop :=
  ∀ cs a rest, front cs = .ok (a, rest) ↔ cs = render a ++ rest

theorem Reads.readWhole_eq_ok_iff {α : Type}
    {front : List Char → Except DescriptorError (α × List Char)} {render : α → String}
    (h : Reads front fun a => (render a).toList) {text : String} {a : α} :
    readWhole front text = .ok a ↔ render a = text := by
  have hwhole : readWhole front text = .ok a ↔ front text.toList = .ok (a, []) := by
    unfold readWhole
    split <;> simp [*]
  rw [hwhole, h, List.append_nil, String.toList_inj, eq_comm]

variable {cs rest : List Char} {c : Char}

/-! ## Where a run of characters ends -/

theorem takeWhile_append_stop {p : Char → Bool} (h : ∀ x ∈ cs, p x = true) (hc : p c = false)
    (rest : List Char) : (cs ++ c :: rest).takeWhile p = cs := by
  rw [List.takeWhile_append_of_pos h, List.takeWhile_cons_of_neg (by simp [hc]), List.append_nil]

theorem dropWhile_append_stop {p : Char → Bool} (h : ∀ x ∈ cs, p x = true) (hc : p c = false)
    (rest : List Char) : (cs ++ c :: rest).dropWhile p = c :: rest := by
  rw [List.dropWhile_append_of_pos h, List.dropWhile_cons_of_neg (by simp [hc])]

/-! ## Primitive types -/

namespace Primitive

theorem ofLetter?_eq_some_iff {type : Primitive} : ofLetter? c = some type ↔ type.letter = c := by
  constructor
  · intro h
    unfold ofLetter? at h
    split at h <;> cases h <;> rfl
  · rintro rfl
    cases type <;> rfl

theorem toList_render (type : Primitive) : type.render.toList = [type.letter] :=
  String.toList_singleton _

end Primitive

/-! ## Elements -/

namespace ElementType

theorem toList_render_object (name : ClassName) :
    (object name).render.toList = 'L' :: name.text.toList ++ [';'] := by
  simp [render]

theorem ne_semicolon_of_not_mem (h : ';' ∉ cs) : ∀ c ∈ cs, decide (c ≠ ';') = true :=
  fun _ hc => decide_eq_true fun heq => h (heq ▸ hc)

theorem objectFront_of_not_mem (h : ';' ∉ cs) :
    objectFront cs = .error (.unterminated (String.ofList cs)) := by
  have hne := ne_semicolon_of_not_mem h
  have ht : cs.takeWhile (· ≠ ';') = cs := List.takeWhile_eq_self_iff.mpr hne
  have hd : cs.dropWhile (· ≠ ';') = [] := List.dropWhile_eq_nil_iff.mpr hne
  simp only [objectFront, ht, hd]

theorem objectFront_append (h : ';' ∉ cs) (rest : List Char) :
    objectFront (cs ++ ';' :: rest) =
      ((ClassName.ofString (String.ofList cs)).mapError .badClassName).map (object ·, rest) := by
  have hne := ne_semicolon_of_not_mem h
  have ht : (cs ++ ';' :: rest).takeWhile (· ≠ ';') = cs :=
    takeWhile_append_stop hne (by decide) rest
  have hd : (cs ++ ';' :: rest).dropWhile (· ≠ ';') = ';' :: rest :=
    dropWhile_append_stop hne (by decide) rest
  simp only [objectFront, ht, hd]
  cases ClassName.ofString (String.ofList cs) <;> rfl

/-- No class name holds a semicolon, so the first one ends the name. -/
theorem objectFront_eq_ok_iff {type : ElementType} : objectFront cs = .ok (type, rest) ↔
    ∃ name, type = object name ∧ cs = name.text.toList ++ ';' :: rest := by
  constructor
  · intro h
    by_cases hm : ';' ∈ cs
    · obtain ⟨first, left, rfl, hfirst⟩ := List.eq_append_cons_of_mem hm
      rw [objectFront_append hfirst] at h
      cases hn : ClassName.ofString (String.ofList first) with
      | error e =>
          rw [hn] at h
          cases h
      | ok name =>
          rw [hn] at h
          cases h
          exact ⟨name, rfl, by rw [ClassName.ofString_eq_ok_iff.mp hn, String.toList_ofList]⟩
    · rw [objectFront_of_not_mem hm] at h
      cases h
  · rintro ⟨name, rfl, rfl⟩
    have hname : ';' ∉ name.text.toList := name.not_mem_of_illegal (by decide) (by decide)
    have hvalid : ClassName.ofString name.text = .ok name := ClassName.ofString_eq_ok_iff.mpr rfl
    rw [objectFront_append hname, String.ofList_toList, hvalid]
    rfl

theorem front_of_ne (hc : c ≠ 'L') (rest : List Char) : front (c :: rest) =
    match Primitive.ofLetter? c with
    | some type => .ok (primitive type, rest)
    | none => .error (.badType c) := by
  unfold front
  split
  · rename_i heq
    cases heq
  · rename_i heq
    cases heq
    exact absurd rfl hc
  · rename_i heq
    cases heq
    rfl

theorem front_reads : Reads front fun type => type.render.toList := by
  intro cs type rest
  cases cs with
  | nil => cases type <;> simp [front, render, Primitive.toList_render]
  | cons c cs =>
      by_cases hc : c = 'L'
      · subst hc
        cases type with
        | primitive type => cases type <;> simp [front, objectFront_eq_ok_iff, render,
            Primitive.toList_render, Primitive.letter]
        | object name => simp [front, objectFront_eq_ok_iff, toList_render_object]
      · rw [front_of_ne hc]
        cases type with
        | primitive type =>
            have hl : Primitive.ofLetter? c = some type ↔ type.letter = c :=
              Primitive.ofLetter?_eq_some_iff
            cases hp : Primitive.ofLetter? c <;>
              simp_all [render, Primitive.toList_render, eq_comm]
        | object name =>
            cases hp : Primitive.ofLetter? c <;> simp [toList_render_object, hc]

end ElementType

/-! ## Field types -/

namespace FieldType

theorem toList_render (type : FieldType) :
    type.render.toList = List.replicate type.dims '[' ++ type.element.render.toList := by
  rw [render, String.toList_append, String.toList_ofList]

theorem front_reads : Reads front fun type => type.render.toList := by
  rintro cs ⟨dims, element⟩ rest
  simp only [toList_render, List.append_assoc]
  constructor
  · intro h
    unfold front at h
    split at h
    · cases h
    · rename_i hf
      cases h
      have hbrackets : cs.takeWhile (· = '[') =
          List.replicate (cs.takeWhile (· = '[')).length '[' :=
        List.eq_replicate_of_mem fun c hc => by simpa using List.mem_takeWhile_imp hc
      rw [← hbrackets, ← (ElementType.front_reads _ _ _).mp hf, List.takeWhile_append_dropWhile]
  · rintro rfl
    have hf : ElementType.front (element.render.toList ++ rest) = .ok (element, rest) :=
      (ElementType.front_reads _ _ _).mpr rfl
    have hall : ∀ c ∈ List.replicate dims '[', decide (c = '[') = true :=
      fun c hc => decide_eq_true (List.eq_of_mem_replicate hc)
    -- No element opens with a bracket, so the brackets end where the dimensions do.
    cases hcs : element.render.toList ++ rest with
    | nil =>
        rw [hcs] at hf
        cases hf
    | cons c cs =>
        rw [hcs] at hf
        have hc : decide (c = '[') = false := by
          refine decide_eq_false ?_
          rintro rfl
          cases hf
        have ht : (List.replicate dims '[' ++ c :: cs).takeWhile (· = '[') =
            List.replicate dims '[' := takeWhile_append_stop hall hc cs
        have hd : (List.replicate dims '[' ++ c :: cs).dropWhile (· = '[') = c :: cs :=
          dropWhile_append_stop hall hc cs
        simp only [front, ht, hd, hf, List.length_replicate]

theorem parse_eq_ok_iff {text : String} {type : FieldType} :
    parse text = .ok type ↔ type.render = text := front_reads.readWhole_eq_ok_iff

end FieldType

/-! ## Method descriptors -/

namespace MethodDescriptor

theorem parametersFront_type {done : List FieldType} {type : FieldType}
    (hf : FieldType.front cs = .ok (type, rest)) :
    parametersFront done cs = parametersFront (type :: done) rest := by
  cases cs with
  | nil => cases hf
  | cons c cs =>
      have hc : c ≠ ')' := by
        rintro rfl
        cases hf
      rw [parametersFront, if_neg hc]
      split <;> simp_all

/-- The types read are those that stand up to the parenthesis, behind those read before. -/
theorem parametersFront_eq_ok_iff {done types : List FieldType} :
    parametersFront done cs = .ok (types, rest) ↔
      ∃ more, types = done.reverse ++ more ∧
        cs = more.flatMap (·.render.toList) ++ ')' :: rest := by
  constructor
  · intro h
    fun_induction parametersFront done cs with
    | case1 => cases h
    | case2 =>
        cases h
        exact ⟨[], by simp, by simp_all⟩
    | case3 => cases h
    | case4 done c cs hc type left hf ih =>
        obtain ⟨more, rfl, hleft⟩ := ih h
        refine ⟨type :: more, by simp, ?_⟩
        rw [(FieldType.front_reads _ _ _).mp hf, hleft, List.flatMap_cons, List.append_assoc]
  · rintro ⟨more, rfl, rfl⟩
    induction more generalizing done with
    | nil => simp [parametersFront]
    | cons type more ih =>
        rw [List.flatMap_cons, List.append_assoc,
          parametersFront_type ((FieldType.front_reads _ _ _).mpr rfl), ih]
        simp

/-- How the result of a method is written. -/
def resultText : Option FieldType → List Char
  | none => ['V']
  | some type => type.render.toList

theorem resultFront_reads : Reads resultFront resultText := by
  intro cs result rest
  have hfront := FieldType.front_reads cs
  unfold resultFront
  split
  · rename_i left
    cases result with
    | none => simp [resultText]
    | some type =>
        have hno : FieldType.front ('V' :: left) ≠ .ok (type, rest) := fun h => by cases h
        simp only [resultText, ← hfront, hno, Except.ok.injEq, Prod.mk.injEq, reduceCtorEq,
          false_and]
  · rename_i hv
    cases result with
    | none => cases FieldType.front cs <;> simpa [resultText] using hv rest
    | some type => cases hf : FieldType.front cs <;> simp [resultText, ← hfront, hf, Prod.ext_iff]

theorem toList_render (d : MethodDescriptor) :
    d.render.toList =
      '(' :: (d.parameters.flatMap (·.render.toList) ++ ')' :: resultText d.result) := by
  obtain ⟨parameters, result⟩ := d
  cases result <;> simp [render, resultText, String.toList_join, List.flatMap_map]

theorem front_reads : Reads front fun d => d.render.toList := by
  intro cs d rest
  simp only [toList_render]
  unfold front
  split
  · rename_i left
    simp only [bind_eq_ok_iff, Prod.exists, parametersFront_eq_ok_iff, resultFront_reads _ _ _,
      Except.ok.injEq, Prod.mk.injEq]
    constructor
    · rintro ⟨types, left, ⟨more, rfl, rfl⟩, result, rest, rfl, rfl, rfl⟩
      simp
    · intro h
      refine ⟨d.parameters, resultText d.result ++ rest, ⟨d.parameters, rfl, ?_⟩, d.result, rest,
        rfl, rfl, rfl⟩
      simpa using h
  · rename_i hopen
    simpa using hopen _

theorem parse_eq_ok_iff {text : String} {d : MethodDescriptor} :
    parse text = .ok d ↔ d.render = text := front_reads.readWhole_eq_ok_iff

end MethodDescriptor

/-! ## The grammar -/

/-- A letter, a class name between `L` and `;`, or a bracket before the type of the elements. -/
inductive IsFieldType : List Char → Prop
  | primitive {c : Char} (hc : c ∈ ['B', 'C', 'D', 'F', 'I', 'J', 'S', 'Z']) : IsFieldType [c]
  | object {name : List Char} (hn : IsClassName name) : IsFieldType ('L' :: name ++ [';'])
  | array {element : List Char} (he : IsFieldType element) : IsFieldType ('[' :: element)

inductive IsResult : List Char → Prop
  | void : IsResult ['V']
  | type {cs : List Char} (ht : IsFieldType cs) : IsResult cs

inductive IsMethodDescriptor : List Char → Prop
  | mk {parameters : List (List Char)} {result : List Char} (hp : ∀ cs ∈ parameters, IsFieldType cs)
      (hr : IsResult result) : IsMethodDescriptor ('(' :: (parameters.flatten ++ ')' :: result))

theorem Primitive.exists_letter_eq (hc : c ∈ ['B', 'C', 'D', 'F', 'I', 'J', 'S', 'Z']) :
    ∃ type : Primitive, type.letter = c := by
  simp only [List.mem_cons, List.not_mem_nil, or_false] at hc
  obtain rfl | rfl | rfl | rfl | rfl | rfl | rfl | rfl := hc
  exacts [⟨.byte, rfl⟩, ⟨.char, rfl⟩, ⟨.double, rfl⟩, ⟨.float, rfl⟩, ⟨.int, rfl⟩, ⟨.long, rfl⟩,
    ⟨.short, rfl⟩, ⟨.boolean, rfl⟩]

theorem FieldType.toList_render_array (type : FieldType) :
    type.array.render.toList = '[' :: type.render.toList := by
  simp [toList_render, array, List.replicate_succ]

theorem IsFieldType.exists_render_eq (h : IsFieldType cs) :
    ∃ type : FieldType, type.render.toList = cs := by
  induction h with
  | primitive hc =>
      obtain ⟨type, rfl⟩ := Primitive.exists_letter_eq hc
      exact ⟨.ofPrimitive type, Primitive.toList_render type⟩
  | @object name hn =>
      have hvalid : classNameError? (String.ofList name).toList = none := by
        rwa [String.toList_ofList, classNameError?_eq_none_iff]
      refine ⟨.object ⟨String.ofList name, hvalid⟩, ?_⟩
      simp [FieldType.toList_render, FieldType.object, ElementType.toList_render_object]
  | array _ ih =>
      obtain ⟨type, rfl⟩ := ih
      exact ⟨type.array, type.toList_render_array⟩

theorem ElementType.isFieldType_render (element : ElementType) :
    IsFieldType element.render.toList := by
  cases element with
  | primitive type =>
      have hc : type.letter ∈ ['B', 'C', 'D', 'F', 'I', 'J', 'S', 'Z'] := by
        cases type <;> decide
      rw [render, Primitive.toList_render]
      exact .primitive hc
  | object name =>
      rw [toList_render_object]
      exact .object (classNameError?_eq_none_iff.mp name.valid)

theorem FieldType.isFieldType_render (type : FieldType) : IsFieldType type.render.toList := by
  obtain ⟨dims, element⟩ := type
  induction dims with
  | zero =>
      rw [toList_render]
      exact element.isFieldType_render
  | succ dims ih =>
      have harray := toList_render_array ⟨dims, element⟩
      exact harray ▸ .array ih

theorem isFieldType_iff : IsFieldType cs ↔ ∃ type : FieldType, type.render.toList = cs := by
  constructor
  · exact IsFieldType.exists_render_eq
  · rintro ⟨type, rfl⟩
    exact type.isFieldType_render

theorem isResult_iff : IsResult cs ↔ ∃ result, MethodDescriptor.resultText result = cs := by
  constructor
  · rintro (_ | ht)
    · exact ⟨none, rfl⟩
    · obtain ⟨type, rfl⟩ := isFieldType_iff.mp ht
      exact ⟨some type, rfl⟩
  · rintro ⟨_ | type, rfl⟩
    · exact .void
    · exact .type (isFieldType_iff.mpr ⟨type, rfl⟩)

theorem isMethodDescriptor_iff :
    IsMethodDescriptor cs ↔ ∃ d : MethodDescriptor, d.render.toList = cs := by
  constructor
  · rintro ⟨hp, hr⟩
    rename_i parameters result
    obtain ⟨result, rfl⟩ := isResult_iff.mp hr
    obtain ⟨types, rfl⟩ : parameters ∈ Set.range (List.map fun type : FieldType =>
        type.render.toList) := by
      rw [Set.range_list_map]
      exact fun cs hcs => isFieldType_iff.mp (hp cs hcs)
    exact ⟨⟨types, result⟩, by rw [MethodDescriptor.toList_render, List.flatMap_def]⟩
  · rintro ⟨d, rfl⟩
    rw [MethodDescriptor.toList_render, List.flatMap_def]
    refine .mk (fun cs hcs => ?_) (isResult_iff.mpr ⟨d.result, rfl⟩)
    obtain ⟨type, -, rfl⟩ := List.mem_map.mp hcs
    exact isFieldType_iff.mpr ⟨type, rfl⟩

/-! ## Requests -/

theorem MemberName.text_of_ofString {text : String} {name : MemberName}
    (h : MemberName.ofString text = .ok name) : name.text = text := by
  unfold MemberName.ofString at h
  split at h <;> cases h
  rfl

namespace Pool

variable {pool : Pool} {owner : PoolIndex} {member descriptor : String} {fault : ClassFault}

/-- The method references through `owner` with exactly this name and this descriptor text. -/
def refsWithTexts (pool : Pool) (owner : PoolIndex) (member descriptor : String) : Set PoolIndex :=
  {index | ∃ nameAndType onInterface,
    (index, Constant.methodRef owner nameAndType onInterface) ∈ pool.entries ∧
      pool.nameAndType nameAndType = .ok (member, descriptor)}

/-- Some method reference through `owner` has texts that cannot be read. -/
def RefBroken (pool : Pool) (owner : PoolIndex) (fault : ClassFault) : Prop :=
  ∃ index nameAndType onInterface,
    (index, Constant.methodRef owner nameAndType onInterface) ∈ pool.entries ∧
      pool.nameAndType nameAndType = .error fault

/-- The answers that a comparison of the texts allows. -/
inductive MatchesTexts (pool : Pool) (owner : PoolIndex) (member descriptor : String) :
    Except CalleeError (List Encoding) → Prop
  | found {calls : List Encoding} (hr : ∀ fault, ¬ pool.RefBroken owner fault) (hne : calls ≠ [])
      (hc : ∀ call, call ∈ calls ↔
        ∃ index ∈ pool.refsWithTexts owner member descriptor, call = .invokeStatic index) :
      MatchesTexts pool owner member descriptor (.ok calls)
  | missing {text : String} (hr : ∀ fault, ¬ pool.RefBroken owner fault)
      (hn : pool.refsWithTexts owner member descriptor = ∅) (ho : pool.className owner = .ok text) :
      MatchesTexts pool owner member descriptor (.error (.memberNotFound text member descriptor))
  | nameless {fault : ClassFault} (hr : ∀ fault, ¬ pool.RefBroken owner fault)
      (hn : pool.refsWithTexts owner member descriptor = ∅)
      (ho : pool.className owner = .error fault) :
      MatchesTexts pool owner member descriptor (.error (.malformed fault))
  | broken {fault : ClassFault} (hb : pool.RefBroken owner fault) :
      MatchesTexts pool owner member descriptor (.error (.malformed fault))

theorem refBroken_of_refsNamed (h : pool.refsNamed owner member descriptor = .error fault) :
    pool.RefBroken owner fault := by
  simp only [refsNamed, bind_eq_error_iff, mapM_eq_error_iff, pure, Except.pure, reduceCtorEq,
    and_false, exists_false, or_false] at h
  obtain ⟨before, ⟨index, nameAndType⟩, after, heq, -, he⟩ := h
  have hm : (index, nameAndType) ∈ pool.refsThrough owner := by simp [heq]
  obtain ⟨onInterface, hm⟩ := mem_refsThrough.mp hm
  exact ⟨index, nameAndType, onInterface, hm, he⟩

theorem not_refBroken_of_refsNamed {found : List PoolIndex}
    (h : pool.refsNamed owner member descriptor = .ok found) (fault : ClassFault) :
    ¬ pool.RefBroken owner fault := by
  rintro ⟨index, nameAndType, onInterface, hm, he⟩
  have hm : (index, nameAndType) ∈ pool.refsThrough owner := mem_refsThrough.mpr ⟨onInterface, hm⟩
  obtain ⟨texts, ht⟩ := exists_nameAndType_of_refsNamed h hm
  simp [he] at ht

theorem matchesTexts_invocations (pool : Pool) (owner : PoolIndex) (member : String)
    (type : MethodDescriptor) :
    pool.MatchesTexts owner member type.render (pool.invocations owner member type).outcome := by
  cases hf : pool.refsNamed owner member type.render with
  | error fault =>
      rw [invocations_of_error hf]
      exact .broken (refBroken_of_refsNamed hf)
  | ok found =>
      have hr := not_refBroken_of_refsNamed hf
      have hmem : ∀ index, index ∈ found ↔ index ∈ pool.refsWithTexts owner member type.render :=
        fun _ => mem_refsNamed hf
      cases found with
      | nil =>
          have hn : pool.refsWithTexts owner member type.render = ∅ :=
            Set.eq_empty_iff_forall_notMem.mpr fun index => by simp [← hmem]
          cases ho : pool.className owner with
          | error fault =>
              rw [invocations_of_nameless hf ho]
              exact .nameless hr hn ho
          | ok text =>
              rw [invocations_eq_memberNotFound hf ho]
              exact .missing hr hn ho
      | cons first others =>
          rw [invocations_eq_ok_iff.mpr ⟨_, hf, List.cons_ne_nil first others, rfl⟩]
          refine .found hr (by simp) fun call => ?_
          simp only [List.mem_map, hmem, eq_comm (a := call)]

end Pool

theorem SpliceRequest.texts_of_ofTexts
    {targetClass targetMethod calleeOwner calleeName text : String} {snippet : Snippet}
    {request : SpliceRequest}
    (h : ofTexts targetClass targetMethod calleeOwner calleeName text snippet = .ok request) :
    request.calleeName.text = calleeName ∧ request.calleeDescriptor.render = text := by
  simp only [ofTexts, bind_eq_ok_iff, mapError_eq_ok_iff, pure, Except.pure, Except.ok.injEq] at h
  obtain ⟨_, -, _, -, _, -, name, hn, type, ht, rfl⟩ := h
  exact ⟨MemberName.text_of_ofString hn, MethodDescriptor.parse_eq_ok_iff.mp ht⟩

/-! ## Text and type decide each other -/

/-- A descriptor is read from the one text it is written as, and what can be read is the grammar. So
a request made from a descriptor text matches the references with that very text. -/
theorem MethodDescriptor.parse_inverts_render :
    (∀ text d, parse text = .ok d ↔ d.render = text) ∧
    (∀ text type, FieldType.parse text = .ok type ↔ type.render = text) ∧
    (∀ text, (∃ d, parse text = .ok d) ↔ IsMethodDescriptor text.toList) ∧
    (∀ text, (∃ type, FieldType.parse text = .ok type) ↔ IsFieldType text.toList) ∧
    (∀ targetClass targetMethod calleeOwner calleeName text snippet request,
      SpliceRequest.ofTexts targetClass targetMethod calleeOwner calleeName text snippet =
        .ok request →
      ∀ (pool : Pool) owner, pool.MatchesTexts owner calleeName text
        (pool.invocations owner request.calleeName.text request.calleeDescriptor).outcome) := by
  refine ⟨fun _ _ => parse_eq_ok_iff, fun _ _ => FieldType.parse_eq_ok_iff, fun text => ?_,
    fun text => ?_, fun _ _ _ _ _ _ request h pool owner => ?_⟩
  · simp only [parse_eq_ok_iff, isMethodDescriptor_iff, String.toList_inj]
  · simp only [FieldType.parse_eq_ok_iff, isFieldType_iff, String.toList_inj]
  · obtain ⟨hn, ht⟩ := SpliceRequest.texts_of_ofTexts h
    rw [← hn, ← ht]
    exact pool.matchesTexts_invocations owner _ _

namespace SpliceRequest

theorem sampleRequest_matchesTexts :
    ofTexts "game.Dice" "run" "game.Dice" "roll" "()I" ⟨"log", []⟩ =
      .ok sampleRequest ∧
    samplePool.MatchesTexts 6 "roll" "()I"
      (samplePool.invocations 6 "roll" sampleRequest.calleeDescriptor).outcome := by
  have hclass : ClassName.ofDotted "game.Dice" = .ok sampleRequest.calleeOwner :=
    ClassName.ofDotted_eq_ok_iff.mpr (by decide +kernel)
  have htype : MethodDescriptor.parse "()I" = .ok sampleRequest.calleeDescriptor :=
    MethodDescriptor.parse_eq_ok_iff.mpr (by decide +kernel)
  have hr : ofTexts "game.Dice" "run" "game.Dice" "roll" "()I" ⟨"log", []⟩ =
      .ok sampleRequest := by
    simp only [ofTexts, bind_eq_ok_iff, mapError_eq_ok_iff]
    exact ⟨_, hclass, _, rfl, _, hclass, _, rfl, _, htype, rfl⟩
  exact ⟨hr, MethodDescriptor.parse_inverts_render.2.2.2.2 _ _ _ _ _ _ _ hr samplePool 6⟩

end SpliceRequest

end ClassSplice
