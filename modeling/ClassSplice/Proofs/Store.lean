import ClassSplice.ClassSource
import ClassSplice.Proofs.ClassFile
import ClassSplice.Proofs.Name

/-!
# Stores of classes

A store answers with what was stored last under a name. A class goes in under its own name and comes
out as it was, and a class without a usable name leaves the store alone.
-/

namespace ClassSplice

/-! ## Calls -/

inductive StoreCall
  | insert (name : ClassName) (bytes : Bytes)
  | insertClass (c : ClassFile)

namespace StoreCall

/-- The call stores the bytes under the name. For a class the name is its own with slashes for dots,
and when that is no class name nothing is stored. -/
inductive Stores : StoreCall → ClassName → Bytes → Prop
  | insert (name : ClassName) (bytes : Bytes) : Stores (.insert name bytes) name bytes
  | insertClass {c : ClassFile} {name : ClassName} {dotted : String} (hd : c.name = .ok dotted)
      (ht : name.text = ClassName.replaceChar '.' '/' dotted) : Stores (.insertClass c) name c.write

/-- Of the calls that store something under the name, the last one stores these bytes. -/
def LastStored (calls : List StoreCall) (name : ClassName) (bytes : Bytes) : Prop :=
  ∃ before call after, calls = before ++ call :: after ∧ call.Stores name bytes ∧
    ∀ other ∈ after, ∀ bytes, ¬ other.Stores name bytes

theorem exists_lastStored {calls : List StoreCall} {name : ClassName}
    (h : ∃ call ∈ calls, ∃ bytes, call.Stores name bytes) :
    ∃ bytes, LastStored calls name bytes := by
  induction calls with
  | nil => simp at h
  | cons call calls ih =>
      -- This call is the last one only when none of the later ones stores anything there.
      by_cases hc : ∃ other ∈ calls, ∃ bytes, other.Stores name bytes
      · obtain ⟨bytes, before, last, after, rfl, hs, ha⟩ := ih hc
        exact ⟨bytes, call :: before, last, after, rfl, hs, ha⟩
      · obtain ⟨other, ho, bytes, hs⟩ := h
        rcases List.mem_cons.mp ho with rfl | ho
        · exact ⟨bytes, [], other, calls, rfl, hs, fun o hm b hb => hc ⟨o, hm, b, hb⟩⟩
        · exact absurd ⟨other, ho, bytes, hs⟩ hc

/-- The class of some array stores nothing. -/
theorem not_stores_of_bracket {c : ClassFile} {internal : String} {name : ClassName} {bytes : Bytes}
    (hi : c.pool.internalName c.thisClass = .ok internal)
    (hb : internal.toList.head? = some '[') : ¬ (insertClass c).Stores name bytes := by
  rintro (_ | ⟨hd, ht⟩)
  exact Pool.text_ne_of_bracket hi hb hd name ht

end StoreCall

namespace ClassStore

variable {store : ClassStore} {name other : ClassName} {bytes : Bytes} {c : ClassFile}

/-- What is answered to storing a class under its own name, and the store after it. -/
def putClass (store : ClassStore) (c : ClassFile) : Except OwnNameError ClassName × ClassStore :=
  match store.insertClass c with
  | .ok (name, next) => (.ok name, next)
  | .error e => (.error e, store)

def call (store : ClassStore) : StoreCall → ClassStore
  | .insert name bytes => store.insert name bytes
  | .insertClass c => (store.putClass c).2

/-- The store after the calls. -/
def run (store : ClassStore) (calls : List StoreCall) : ClassStore := calls.foldl call store

/-! ## One call -/

theorem bytes?_insert_self : (store.insert name bytes).bytes? name = some bytes := by
  simp [insert, bytes?]

theorem bytes?_insert_of_ne (h : other ≠ name) :
    (store.insert name bytes).bytes? other = store.bytes? other := by
  simp only [insert, bytes?, List.lookup_cons, beq_false_of_ne h]

theorem insertClass_eq_ok_iff {next : ClassStore} :
    store.insertClass c = .ok (name, next) ↔
      ∃ dotted, c.name = .ok dotted ∧ name.text = ClassName.replaceChar '.' '/' dotted ∧
        next = store.insert name c.write := by
  simp only [insertClass, bind_eq_ok_iff, mapError_eq_ok_iff, ClassName.ofDotted_eq_ok_iff, pure,
    Except.pure, Except.ok.injEq, Prod.mk.injEq]
  constructor
  · rintro ⟨dotted, hd, name, ht, rfl, rfl⟩
    exact ⟨dotted, hd, ht, rfl⟩
  · rintro ⟨dotted, hd, ht, rfl⟩
    exact ⟨dotted, hd, name, ht, rfl, rfl⟩

theorem putClass_eq_ok_iff :
    (store.putClass c).1 = .ok name ↔
      ∃ dotted, c.name = .ok dotted ∧ name.text = ClassName.replaceChar '.' '/' dotted := by
  unfold putClass
  split
  · rename_i found next h
    obtain ⟨dotted, hd, ht, -⟩ := insertClass_eq_ok_iff.mp h
    simp only [Except.ok.injEq, hd, exists_eq_left', ← ht]
    exact ⟨fun h => h ▸ rfl, fun h => (ClassName.ext_text h).symm⟩
  · rename_i e h
    simp only [reduceCtorEq, false_iff]
    rintro ⟨dotted, hd, ht⟩
    rw [insertClass_eq_ok_iff.mpr ⟨dotted, hd, ht, rfl⟩] at h
    cases h

theorem putClass_of_ok (h : (store.putClass c).1 = .ok name) :
    (store.putClass c).2 = store.insert name c.write := by
  obtain ⟨dotted, hd, ht⟩ := putClass_eq_ok_iff.mp h
  simp only [putClass, insertClass_eq_ok_iff.mpr ⟨dotted, hd, ht, rfl⟩]

theorem putClass_of_error {e : OwnNameError} (h : (store.putClass c).1 = .error e) :
    (store.putClass c).2 = store := by
  unfold putClass at h ⊢
  split at h
  · cases h
  · rfl

theorem exists_putClass_error (h : ∀ name, (store.putClass c).1 ≠ .ok name) :
    ∃ e, (store.putClass c).1 = .error e := by
  cases hp : (store.putClass c).1 with
  | error e => exact ⟨e, rfl⟩
  | ok name => exact absurd hp (h name)

theorem bytes?_call_of_stores {call : StoreCall} (h : call.Stores name bytes) :
    (store.call call).bytes? name = some bytes := by
  cases h with
  | insert => exact bytes?_insert_self
  | insertClass hd ht =>
      rw [ClassStore.call, putClass_of_ok (putClass_eq_ok_iff.mpr ⟨_, hd, ht⟩)]
      exact bytes?_insert_self

theorem bytes?_call_of_not_stores {call : StoreCall} (h : ∀ bytes, ¬ call.Stores name bytes) :
    (store.call call).bytes? name = store.bytes? name := by
  cases call with
  | insert other bytes =>
      refine bytes?_insert_of_ne ?_
      rintro rfl
      exact h bytes (.insert name bytes)
  | insertClass c =>
      rw [ClassStore.call]
      cases hp : (store.putClass c).1 with
      | error e => rw [putClass_of_error hp]
      | ok other =>
          rw [putClass_of_ok hp]
          refine bytes?_insert_of_ne ?_
          rintro rfl
          obtain ⟨dotted, hd, ht⟩ := putClass_eq_ok_iff.mp hp
          exact h c.write (.insertClass hd ht)

/-! ## Runs -/

theorem run_cons (store : ClassStore) (call : StoreCall) (calls : List StoreCall) :
    store.run (call :: calls) = (store.call call).run calls := rfl

theorem run_append (store : ClassStore) (before after : List StoreCall) :
    store.run (before ++ after) = (store.run before).run after := List.foldl_append

theorem bytes?_run_of_not_stores {calls : List StoreCall}
    (h : ∀ call ∈ calls, ∀ bytes, ¬ call.Stores name bytes) :
    (store.run calls).bytes? name = store.bytes? name := by
  induction calls generalizing store with
  | nil => rfl
  | cons call calls ih =>
      rw [List.forall_mem_cons] at h
      rw [run_cons, ih h.2, bytes?_call_of_not_stores h.1]

theorem bytes?_run_of_lastStored {calls : List StoreCall}
    (h : StoreCall.LastStored calls name bytes) :
    (store.run calls).bytes? name = some bytes := by
  obtain ⟨before, call, after, rfl, hs, ha⟩ := h
  rw [run_append, run_cons, bytes?_run_of_not_stores ha, bytes?_call_of_stores hs]

theorem lastStored_unique {calls : List StoreCall} {bytes bytes' : Bytes}
    (h : StoreCall.LastStored calls name bytes) (h' : StoreCall.LastStored calls name bytes') :
    bytes = bytes' := by
  have hb : (empty.run calls).bytes? name = some bytes := bytes?_run_of_lastStored h
  exact Option.some.inj (hb.symm.trans (bytes?_run_of_lastStored h'))

/-! ## Loading -/

theorem load_of_bytes? (h : store.bytes? name = some bytes) :
    store.load name = (ClassFile.read bytes).mapError .malformed := by
  simp only [load, h, loadBytes]

theorem load_ne_notFound (h : store.bytes? name = some bytes) :
    store.load name ≠ .error (.notFound name) := by
  rw [load_of_bytes? h]
  cases ClassFile.read bytes <;> simp [Except.mapError]

/-- Nothing is found under a name exactly when no call stored anything under it. -/
theorem load_run_eq_notFound_iff {calls : List StoreCall} :
    (empty.run calls).load name = .error (.notFound name) ↔
      ∀ call ∈ calls, ∀ bytes, ¬ call.Stores name bytes := by
  constructor
  · intro h call hm bytes hs
    obtain ⟨last, hl⟩ := StoreCall.exists_lastStored ⟨call, hm, bytes, hs⟩
    exact load_ne_notFound (bytes?_run_of_lastStored hl) h
  · intro h
    have hb : (empty.run calls).bytes? name = none := bytes?_run_of_not_stores h
    simp only [load, hb]

/-- A class within the limits comes out as it went in. -/
theorem load_insert_write (hc : c.WithinLimits) :
    (store.insert name c.write).load name = .ok c := by
  rw [load_of_bytes? bytes?_insert_self, ClassFile.read_write hc]
  rfl

/-! ## Faithful stores -/

/-- The store answers with what the calls stored last under a name, and knows no other names. -/
structure Keeps (store : ClassStore) (calls : List StoreCall) : Prop where
  notFound_iff : ∀ name, store.load name = .error (.notFound name) ↔
    ∀ call ∈ calls, ∀ bytes, ¬ call.Stores name bytes
  load_last : ∀ name, (∃ call ∈ calls, ∃ bytes, call.Stores name bytes) →
    ∃ bytes, StoreCall.LastStored calls name bytes ∧
      store.load name = (ClassFile.read bytes).mapError .malformed

/-- What is answered to storing the class under its own name, and what the store holds then. -/
structure TakesIn (store : ClassStore) (c : ClassFile) : Prop where
  /-- A class is stored exactly when its own name makes a class name, which that of an array never
  does. -/
  ok_iff : ∀ name, (store.putClass c).1 = .ok name ↔
    ∃ dotted, c.name = .ok dotted ∧ name.text = ClassName.replaceChar '.' '/' dotted
  /-- That name is the one in the pool, with slashes for dots. -/
  stored_iff : ∀ name, (store.putClass c).1 = .ok name ↔
    ∃ internal, c.pool.internalName c.thisClass = .ok internal ∧
      internal.toList.head? ≠ some '[' ∧ name.text = ClassName.replaceChar '.' '/' internal
  array : ∀ internal, c.pool.internalName c.thisClass = .ok internal →
    internal.toList.head? = some '[' → ∃ e, (store.putClass c).1 = .error e
  dotted : ∀ name, (store.putClass c).1 = .ok name → c.name = .ok name.dotted
  loaded : ∀ name, (store.putClass c).1 = .ok name → c.WithinLimits →
    (store.putClass c).2.load name = .ok c
  others : ∀ name, (store.putClass c).1 = .ok name → ∀ other, other ≠ name →
    (store.putClass c).2.bytes? other = store.bytes? other
  failed : ∀ e, (store.putClass c).1 = .error e → (store.putClass c).2 = store

theorem keeps_run (calls : List StoreCall) : (empty.run calls).Keeps calls where
  notFound_iff _ := load_run_eq_notFound_iff
  load_last _ h :=
    have ⟨bytes, hl⟩ := StoreCall.exists_lastStored h
    ⟨bytes, hl, load_of_bytes? (bytes?_run_of_lastStored hl)⟩

theorem takesIn (store : ClassStore) (c : ClassFile) : store.TakesIn c where
  ok_iff _ := putClass_eq_ok_iff
  stored_iff _ := putClass_eq_ok_iff.trans Pool.exists_className_iff
  array internal hi hb := by
    refine exists_putClass_error fun name h => ?_
    obtain ⟨dotted, hd, ht⟩ := putClass_eq_ok_iff.mp h
    exact Pool.text_ne_of_bracket hi hb hd name ht
  dotted name h := by
    obtain ⟨dotted, hd, ht⟩ := putClass_eq_ok_iff.mp h
    rw [Pool.dotted_of_text_eq hd ht, hd]
  loaded _ h hc := by rw [putClass_of_ok h, load_insert_write hc]
  others name h other ho := by rw [putClass_of_ok h, bytes?_insert_of_ne ho]
  failed _ h := putClass_of_error h

/-- A store gives back what was stored last under a name. A class is stored exactly when its own
name makes a class name, which has that name as its dotted form, and touches no other name; a class
that is not stored changes nothing. -/
theorem run_faithful (calls : List StoreCall) :
    (empty.run calls).Keeps calls ∧ ∀ c, (empty.run calls).TakesIn c :=
  ⟨keeps_run calls, takesIn _⟩

/-! ## A class to try it on

Its pool holds a NaN and a number that takes two slots. -/

def scoreClass : ClassFile where
  version := .java8
  pool := .ofList [.utf8 "game/Score", .classRef 1, .float 0x7FC00000, .long 21]
  flags := ⟨0⟩
  thisClass := 2
  superClass := 0
  interfaces := []
  fields := []
  methods := []
  attributes := []

/-- The class of arrays of scores. -/
def scoreArray : ClassFile :=
  { scoreClass with pool := .ofList [.utf8 "[Lgame/Score;", .classRef 1] }

def scoreName : ClassName := ⟨"game/Score", by decide⟩

def scoreCalls : List StoreCall :=
  [.insert scoreName [0xCA, 0xFE], .insertClass scoreClass, .insertClass scoreArray]

/-- The class takes the place of other bytes and is loaded as it is, NaN included, and the class of
arrays does not get in its way. -/
theorem scoreCalls_faithful :
    scoreClass.WithinLimits ∧
    (empty.run scoreCalls).load scoreName = .ok scoreClass ∧
    ((empty.run scoreCalls).putClass scoreClass).1 = .ok scoreName ∧
    ∃ e, ((empty.run scoreCalls).putClass scoreArray).1 = .error e ∧
      ((empty.run scoreCalls).putClass scoreArray).2 = empty.run scoreCalls := by
  obtain ⟨hkeeps, htakes⟩ := run_faithful scoreCalls
  have hlimits : scoreClass.WithinLimits := by decide +kernel
  have harray : scoreArray.pool.internalName 2 = .ok "[Lgame/Score;" := by decide +kernel
  have hname : scoreClass.name = .ok "game.Score" := by decide +kernel
  have hstores : (StoreCall.insertClass scoreClass).Stores scoreName scoreClass.write :=
    .insertClass hname (by decide +kernel)
  have hlast : StoreCall.LastStored scoreCalls scoreName scoreClass.write := by
    refine ⟨[.insert scoreName [0xCA, 0xFE]], _, [.insertClass scoreArray], rfl, hstores, ?_⟩
    exact List.forall_mem_singleton.mpr fun _ => StoreCall.not_stores_of_bracket harray rfl
  obtain ⟨bytes, hbytes, hload⟩ := hkeeps.load_last scoreName ⟨_, by simp [scoreCalls], _, hstores⟩
  obtain rfl := lastStored_unique hbytes hlast
  obtain ⟨e, he⟩ := (htakes scoreArray).array _ harray rfl
  refine ⟨hlimits, ?_, ((htakes scoreClass).stored_iff scoreName).mpr ⟨"game/Score", ?_⟩,
    e, he, (htakes scoreArray).failed e he⟩
  · rw [hload, ClassFile.read_write hlimits]
    rfl
  · exact ⟨by decide +kernel, by decide, by decide +kernel⟩

end ClassStore

end ClassSplice
