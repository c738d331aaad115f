import ClassSplice.ClassSource
import ClassSplice.Proofs.Name
import Mathlib.Logic.Function.Basic

/-!
# Dotted names and paths of classes

A class name, its dotted form and the path of its file stand for each other. No step of the path
goes nowhere or up, so the file of a class lies below the root of the class path, and no two classes
share one.
-/

namespace ClassSplice

variable {cs : List Char}

/-! ## Splitting at slashes -/

theorem slash_not_mem_of_mem_segments {segment : List Char} (h : segment ∈ segments cs) :
    '/' ∉ segment := by
  induction cs generalizing segment with
  | nil =>
      rw [show segment = [] from List.mem_singleton.mp h]
      exact List.not_mem_nil
  | cons c cs ih =>
      rw [segments_cons] at h
      by_cases hc : c = '/'
      · rw [if_pos hc] at h
        rcases List.mem_cons.mp h with rfl | h
        · exact List.not_mem_nil
        · exact ih h
      · obtain ⟨first, others, hs⟩ := exists_segments_eq_cons cs
        rw [hs, List.forall_mem_cons] at ih
        rw [if_neg hc, hs, List.modifyHead_cons] at h
        rcases List.mem_cons.mp h with rfl | h
        · exact List.not_mem_cons_of_ne_of_not_mem (Ne.symm hc) ih.1
        · exact ih.2 _ h

/-! ## Steps of class names -/

/-- A step that leads one level down. -/
structure LeadsDown (step : List Char) : Prop where
  ne_nil : step ≠ []
  ne_here : step ≠ ['.']
  ne_up : step ≠ ['.', '.']

theorem IsSegment.leadsDown (h : IsSegment cs) : LeadsDown cs := by
  constructor
  · exact h.ne_nil
  · rintro rfl
    exact h.legal '.' (by simp) (by simp)
  · rintro rfl
    exact h.legal '.' (by simp) (by simp)

/-- The extension of class files makes the last step a longer one. -/
theorem leadsDown_append_class (cs : List Char) : LeadsDown (cs ++ ".class".toList) := by
  have hlen : 6 ≤ (cs ++ ".class".toList).length := by simp
  constructor <;> intro h <;> rw [h] at hlen <;> exact absurd hlen (by decide)

theorem IsClassName.leadsDown (h : IsClassName cs) :
    ∀ step ∈ (cs ++ ".class".toList).splitOn '/', LeadsDown step := by
  induction h with
  | @segment cs hs =>
      have hslash : '/' ∉ cs ++ ".class".toList := by simp [hs.slash_not_mem]
      rw [List.splitOn_eq_singleton hslash]
      exact List.forall_mem_singleton.mpr (leadsDown_append_class cs)
  | join hs _ ih =>
      rw [List.append_assoc, List.cons_append, List.splitOn_append_cons_self,
        List.splitOn_eq_singleton hs.slash_not_mem]
      exact List.forall_mem_cons.mpr ⟨hs.leadsDown, ih⟩

namespace ClassName

variable {name other : ClassName} {text : String}

theorem exists_ofString_iff : (∃ name, ofString text = .ok name) ↔
    ∀ segment ∈ text.toList.splitOn '/', segment ≠ [] ∧ ∀ c ∈ segment, c ∉ ['.', ';', '['] := by
  have hvalid : (∃ name, ofString text = .ok name) ↔ IsClassName text.toList := by
    rw [← classNameError?_eq_none_iff]
    constructor
    · intro ⟨name, h⟩
      exact ofString_eq_ok_iff.mp h ▸ name.valid
    · intro h
      exact ⟨⟨text, h⟩, ofString_eq_ok_iff.mpr rfl⟩
  rw [hvalid, isClassName_iff_segments, ← segments_eq_splitOn]
  refine forall₂_congr fun segment hm => ?_
  have hslash := slash_not_mem_of_mem_segments hm
  constructor
  · intro h
    exact ⟨h.ne_nil, fun c hc hi => h.legal c hc (List.mem_append_left ['/'] hi)⟩
  · intro ⟨hne, hl⟩
    refine ⟨hne, fun c hc hi => ?_⟩
    rcases List.mem_append.mp (show c ∈ ['.', ';', '['] ++ ['/'] from hi) with hi | hi
    · exact hl c hc hi
    · exact hslash (List.mem_singleton.mp hi ▸ hc)

/-! ## Dotted form -/

theorem ofDotted_dotted (name : ClassName) : ofDotted name.dotted = .ok name := by
  have hdot : '.' ∉ name.text.toList := name.not_mem_of_illegal (by decide) (by decide)
  exact ofDotted_eq_ok_iff.mpr (replaceChar_replaceChar hdot).symm

theorem dotted_of_ofDotted (ht : '/' ∉ text.toList) (h : ofDotted text = .ok name) :
    name.dotted = text := by
  rw [dotted, ofDotted_eq_ok_iff.mp h, replaceChar_replaceChar ht]

theorem dotted_injective : Function.Injective dotted := by
  intro name other h
  have hname := ofDotted_dotted name
  rw [h, ofDotted_dotted other] at hname
  cases hname
  rfl

/-! ## Paths -/

theorem toList_filePath (name : ClassName) :
    name.filePath.toList = name.text.toList ++ ".class".toList := String.toList_append

theorem leadsDown_of_mem_filePath {step : List Char}
    (h : step ∈ name.filePath.toList.splitOn '/') : LeadsDown step := by
  rw [toList_filePath] at h
  exact (classNameError?_eq_none_iff.mp name.valid).leadsDown step h

theorem filePath_not_absolute (name : ClassName) : name.filePath.toList.head? ≠ some '/' := by
  intro h
  obtain ⟨rest, hr⟩ := List.head?_eq_some_iff.mp h
  have hstep : [] ∈ name.filePath.toList.splitOn '/' := by
    rw [hr, ← segments_eq_splitOn, segments_cons, if_pos rfl]
    exact List.mem_cons_self
  exact (leadsDown_of_mem_filePath hstep).ne_nil rfl

theorem eq_of_splitOn_filePath
    (h : name.filePath.toList.splitOn '/' = other.filePath.toList.splitOn '/') : name = other := by
  have hpath := congrArg (['/'].intercalate ·) h
  simp only [List.intercalate_splitOn, toList_filePath, List.append_cancel_right_eq,
    String.toList_inj] at hpath
  exact ext_text hpath

theorem filePath_injective : Function.Injective filePath :=
  fun _ _ h => eq_of_splitOn_filePath (by rw [h])

end ClassName

namespace ClassPath

variable {classPath : ClassPath} {name other : ClassName}

/-- The steps of a path. Several slashes in a row part two steps as one does. -/
def steps (path : List Char) : List (List Char) := (path.splitOn '/').filter (· ≠ [])

theorem steps_append_slash (front back : List Char) :
    steps (front ++ '/' :: back) = steps front ++ steps back := by
  rw [steps, List.splitOn_append_cons_self, List.filter_append]
  rfl

theorem steps_filePath (name : ClassName) :
    steps name.filePath.toList = name.filePath.toList.splitOn '/' := by
  apply List.filter_eq_self.mpr
  intro step h
  exact decide_eq_true (ClassName.leadsDown_of_mem_filePath h).ne_nil

/-- A slash is put behind the root only where there is none yet. -/
theorem toList_pathOf (classPath : ClassPath) (name : ClassName) :
    (classPath.root = "" ∧ classPath.pathOf name = name.filePath) ∨
      (∃ front, classPath.root.toList = front ++ ['/'] ∧
        (classPath.pathOf name).toList = front ++ '/' :: name.filePath.toList) ∨
      (classPath.pathOf name).toList = classPath.root.toList ++ '/' :: name.filePath.toList := by
  unfold pathOf
  split
  · rename_i h
    rw [List.getLast?_eq_none_iff, String.toList_eq_nil_iff] at h
    exact .inl ⟨h, by simp [h]⟩
  · rename_i h
    obtain ⟨front, hf⟩ := List.getLast?_eq_some_iff.mp h
    exact .inr (.inl ⟨front, hf, by simp [hf]⟩)
  · exact .inr (.inr (by simp))

theorem steps_pathOf (classPath : ClassPath) (name : ClassName) :
    steps (classPath.pathOf name).toList =
      steps classPath.root.toList ++ name.filePath.toList.splitOn '/' := by
  rw [← steps_filePath]
  rcases classPath.toList_pathOf name with ⟨hr, hp⟩ | ⟨front, hr, hp⟩ | hp
  · rw [hr, hp]
    rfl
  · rw [hr, hp, steps_append_slash, steps_append_slash]
    simp [steps]
  · rw [hp, steps_append_slash]

theorem root_isPrefix (classPath : ClassPath) (name : ClassName) :
    classPath.root.toList <+: (classPath.pathOf name).toList := by
  rcases classPath.toList_pathOf name with ⟨hr, -⟩ | ⟨front, hr, hp⟩ | hp
  · rw [hr]
    exact List.nil_prefix
  · exact ⟨name.filePath.toList, by rw [hr, hp, List.append_assoc, List.singleton_append]⟩
  · exact ⟨_, hp.symm⟩

theorem pathOf_absolute_iff (classPath : ClassPath) (name : ClassName) :
    (classPath.pathOf name).toList.head? = some '/' ↔ classPath.root.toList.head? = some '/' := by
  cases hr : classPath.root.toList with
  | nil =>
      have hp : classPath.pathOf name = name.filePath := by
        rcases classPath.toList_pathOf name with ⟨-, hp⟩ | ⟨front, hf, -⟩ | hp
        · exact hp
        · simp [hr] at hf
        · simp [pathOf, hr] at hp
      rw [hp]
      exact iff_of_false name.filePath_not_absolute (by simp)
  | cons c root =>
      obtain ⟨rest, hp⟩ := classPath.root_isPrefix name
      rw [← hp, hr, List.cons_append, List.head?_cons, List.head?_cons]

theorem eq_of_steps_pathOf (h : steps (classPath.pathOf name).toList =
    steps (classPath.pathOf other).toList) : name = other := by
  rw [steps_pathOf, steps_pathOf] at h
  exact ClassName.eq_of_splitOn_filePath (List.append_cancel_left h)

end ClassPath

/-! ## Names and places -/

/-- Which texts are class names, and how they go with their dotted forms. -/
structure ClassName.Faithful : Prop where
  accepted_iff : ∀ text, (∃ name, ofString text = .ok name) ↔
    ∀ segment ∈ text.toList.splitOn '/', segment ≠ [] ∧ ∀ c ∈ segment, c ∉ ['.', ';', '[']
  accepted_text : ∀ text name, ofString text = .ok name → name.text = text
  from_dotted : ∀ name, ofDotted (dotted name) = .ok name
  to_dotted : ∀ text name, '/' ∉ text.toList → ofDotted text = .ok name → name.dotted = text
  dotted_distinct : Function.Injective dotted

/-- The files of classes lie below the root, each at a path of its own. -/
structure ClassPath.KeepsBelow (classPath : ClassPath) : Prop where
  relative : ∀ name : ClassName, name.filePath.toList.head? ≠ some '/'
  leadsDown : ∀ name : ClassName, ∀ step ∈ name.filePath.toList.splitOn '/', LeadsDown step
  below : ∀ name, classPath.root.toList <+: (classPath.pathOf name).toList ∧
    steps (classPath.pathOf name).toList =
      steps classPath.root.toList ++ name.filePath.toList.splitOn '/'
  /-- A path below an empty root does not start at the top. -/
  absolute_iff : ∀ name, (classPath.pathOf name).toList.head? = some '/' ↔
    classPath.root.toList.head? = some '/'
  files_distinct : Function.Injective ClassName.filePath
  places_distinct : ∀ name other, steps (classPath.pathOf name).toList =
    steps (classPath.pathOf other).toList → name = other

/-- Class names and their dotted forms stand for each other, and the path of a class is the root
followed by steps that lead down, other ones for every class. -/
theorem ClassPath.classes_below_root (classPath : ClassPath) :
    ClassName.Faithful ∧ classPath.KeepsBelow := by
  constructor
  · exact {
      accepted_iff := fun _ => ClassName.exists_ofString_iff
      accepted_text := fun _ _ => ClassName.ofString_eq_ok_iff.mp
      from_dotted := ClassName.ofDotted_dotted
      to_dotted := fun _ _ => ClassName.dotted_of_ofDotted
      dotted_distinct := ClassName.dotted_injective }
  · exact {
      relative := ClassName.filePath_not_absolute
      leadsDown := fun _ _ => ClassName.leadsDown_of_mem_filePath
      below := fun name => ⟨classPath.root_isPrefix name, classPath.steps_pathOf name⟩
      absolute_iff := classPath.pathOf_absolute_iff
      files_distinct := ClassName.filePath_injective
      places_distinct := fun _ _ => eq_of_steps_pathOf }

end ClassSplice
