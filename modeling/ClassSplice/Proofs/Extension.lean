import ClassSplice.Proofs.Indexing
import ClassSplice.Proofs.LastCall
import Mathlib.Data.List.Find

/-!
# Constants pushed behind a pool

A constant that is pushed takes nothing away: an index that led somewhere leads to the same constant
afterwards, and so every lookup that succeeded gives the same answer. Only what was missing can
change. A call site that is located is located again when neither a class entry for the class of the
callee nor a reference through one is pushed.
-/

namespace ClassSplice

/-! ## Lookups that succeed -/

namespace Pool

variable {pool ext : Pool} {index : PoolIndex} {cs : List Constant} {name : ClassName}

theorem Extends.utf8_eq (h : ext.Extends pool) {c : Constant} (hc : pool.get index = .ok c) :
    ext.utf8 index = pool.utf8 index := by
  simp only [utf8, hc, h index c hc]

theorem Extends.utf8 (h : ext.Extends pool) {text : String} (ht : pool.utf8 index = .ok text) :
    ext.utf8 index = .ok text := by
  obtain ⟨c, hc, -⟩ := bind_eq_ok_iff.mp ht
  rw [h.utf8_eq hc, ht]

theorem Extends.className (h : ext.Extends pool) {text : String}
    (ht : pool.className index = .ok text) : ext.className index = .ok text := by
  obtain ⟨name, hg⟩ := exists_classRef_of_className ht
  simp only [Pool.className, internalName, bind_eq_ok_iff] at ht ⊢
  obtain ⟨internal, ⟨c, hc, hi⟩, hs⟩ := ht
  rw [hg] at hc
  cases hc
  exact ⟨internal, ⟨_, h _ _ hg, h.utf8 hi⟩, hs⟩

theorem Extends.nameAndType (h : ext.Extends pool) {texts : String × String}
    (ht : pool.nameAndType index = .ok texts) : ext.nameAndType index = .ok texts := by
  simp only [Pool.nameAndType, bind_eq_ok_iff] at ht ⊢
  obtain ⟨c, hc, ht⟩ := ht
  refine ⟨c, h _ _ hc, ?_⟩
  cases c with
  | nameAndType name descriptor =>
      simp only [bind_eq_ok_iff] at ht ⊢
      obtain ⟨n, hn, d, hd, ht⟩ := ht
      exact ⟨n, h.utf8 hn, d, h.utf8 hd, ht⟩
  | _ => cases ht

/-! ## Attributes and methods -/

theorem Extends.decode (h : ext.Extends pool) {α : Type} {form : BodyForm α} {a : Attribute}
    {found : Option α} (hd : a.decode form pool = .ok found) : a.decode form ext = .ok found := by
  cases found with
  | none =>
      obtain ⟨text, ht, hne⟩ := Attribute.decode_eq_ok_none_iff.mp hd
      exact Attribute.decode_eq_ok_none_iff.mpr ⟨text, h.utf8 ht, hne⟩
  | some value =>
      obtain ⟨ht, hv⟩ := Attribute.decode_eq_ok_some_iff.mp hd
      exact Attribute.decode_eq_ok_some_iff.mpr ⟨h.utf8 ht, hv⟩

/-- Attributes behind the body are not looked at, so nothing is asked of their names. -/
theorem Extends.code (h : ext.Extends pool) {method : Method} {code : Code}
    (hc : method.code pool = .ok (some code)) : method.code ext = .ok (some code) := by
  obtain ⟨before, a, after, hs, hb, ha⟩ := findSomeM?_eq_ok_some_iff.mp hc
  exact findSomeM?_eq_ok_some_iff.mpr
    ⟨before, a, after, hs, fun other ho => h.decode (hb other ho), h.decode ha⟩

theorem Extends.lineTable (h : ext.Extends pool) {code : Code} {lines : LineTable}
    (hl : code.lineTable pool = .ok lines) : code.lineTable ext = .ok lines := by
  simp only [Code.lineTable, bind_eq_ok_iff, mapM_eq_ok_iff] at hl ⊢
  obtain ⟨tables, ht, hl⟩ := hl
  exact ⟨tables, ht.imp fun a table hd => h.decode hd, hl⟩

/-! ## Constants that do not concern a class -/

/-- The constants that are pushed bring neither an entry for the class nor a reference through one.
Whether an entry stands for the class is asked of the pool before the push: no entry that comes with
the push does. -/
structure Unrelated (pool : Pool) (cs : List Constant) (name : ClassName) : Prop where
  classes : ∀ index text, (index, Constant.classRef text) ∈ pool.added cs →
    ∃ found, (pool.append cs).className index = .ok found ∧ found ≠ name.dotted
  owners : ∀ index c owner, (index, c) ∈ pool.added cs → c.owner? = some owner →
    ¬ pool.Denotes name owner

namespace Unrelated

variable {owner : PoolIndex} {member descriptor : String}

theorem owners_contains (hu : pool.Unrelated cs name) (hd : pool.Denotes name owner) :
    (pool.append cs).owners.contains owner = pool.owners.contains owner := by
  have hnone : owner ∉ (pool.added cs).filterMap (·.2.owner?) := by
    intro hm
    obtain ⟨⟨index, c⟩, he, ho⟩ := List.mem_filterMap.mp hm
    exact hu.owners index c owner he ho hd
  simp only [Pool.owners, Std.HashSet.contains_ofList, entries_append, List.filterMap_append,
    List.contains_eq_mem, List.mem_append, hnone, or_false]

theorem refsThrough_append (hu : pool.Unrelated cs name) (hd : pool.Denotes name owner) :
    (pool.append cs).refsThrough owner = pool.refsThrough owner := by
  simp only [refsThrough, entries_append, List.filterMap_append, List.append_right_eq_self,
    List.filterMap_eq_nil_iff]
  rintro ⟨index, c⟩ he
  cases c with
  | methodRef o nameAndType onInterface =>
      have hne : o ≠ owner := by
        rintro rfl
        exact hu.owners index _ o he rfl hd
      simp [hne]
  | _ => rfl

theorem refsNamed_append (hu : pool.Unrelated cs name) (h : (pool.append cs).Extends pool)
    (hd : pool.Denotes name owner) {found : List PoolIndex}
    (hf : pool.refsNamed owner member descriptor = .ok found) :
    (pool.append cs).refsNamed owner member descriptor = .ok found := by
  simp only [refsNamed, bind_eq_ok_iff, mapM_eq_ok_iff, hu.refsThrough_append hd] at hf ⊢
  obtain ⟨texts, ht, hf⟩ := hf
  refine ⟨texts, ht.imp fun ref entry he => ?_, hf⟩
  obtain ⟨text, hn, he⟩ := he
  exact ⟨text, h.nameAndType hn, he⟩

/-- The class entries that come with a push stand behind the others and have other names. -/
theorem classEntries_append (hu : pool.Unrelated cs name) :
    ∃ more, (pool.append cs).classEntries = pool.classEntries ++ more ∧
      ∀ index ∈ more, ∃ found, (pool.append cs).className index = .ok found ∧
        found ≠ name.dotted := by
  refine ⟨_, by rw [classEntries, entries_append, List.filterMap_append]; rfl, ?_⟩
  intro index hi
  obtain ⟨⟨i, c⟩, he, hc⟩ := List.mem_filterMap.mp hi
  cases c with
  | classRef text =>
      cases hc
      exact hu.classes index text he
  | _ => cases hc

theorem candidates_append (hu : pool.Unrelated cs name) (h : (pool.append cs).Extends pool)
    {candidates : List Candidate} (hc : pool.candidates name = .ok candidates) :
    (pool.append cs).candidates name = .ok candidates := by
  simp only [Pool.candidates, bind_eq_ok_iff, pure, Except.pure, Except.ok.injEq] at hc ⊢
  obtain ⟨named, hn, rfl⟩ := hc
  obtain ⟨more, hmore, hother⟩ := hu.classEntries_append
  have hold : pool.classEntries.mapM (fun index =>
      return (index, ← (pool.append cs).className index)) = Except.ok named := by
    rw [mapM_eq_ok_iff] at hn ⊢
    refine hn.imp fun index entry he => ?_
    obtain ⟨text, ht, he⟩ := bind_eq_ok_iff.mp he
    exact bind_eq_ok_iff.mpr ⟨text, h.className ht, he⟩
  obtain ⟨others, ho⟩ : ∃ others, more.mapM (fun index =>
      return (index, ← (pool.append cs).className index)) = Except.ok others := by
    refine exists_mapM_eq_ok fun index hi => ?_
    obtain ⟨found, hf, -⟩ := hother index hi
    exact ⟨_, bind_eq_ok_iff.mpr ⟨found, hf, rfl⟩⟩
  refine ⟨named ++ others, ?_, ?_⟩
  · rw [hmore, List.mapM_append]
    exact bind_eq_ok_iff.mpr ⟨named, hold, bind_eq_ok_iff.mpr ⟨others, ho, rfl⟩⟩
  · have hnone : others.filter (·.2 == name.dotted) = [] := by
      refine List.filter_eq_nil_iff.mpr fun entry he => ?_
      obtain ⟨index, hi, hentry⟩ := (mem_of_mapM_eq_ok ho).mp he
      obtain ⟨found, hf, hne⟩ := hother index hi
      obtain ⟨text, ht, hentry⟩ := bind_eq_ok_iff.mp hentry
      cases hentry
      rw [hf] at ht
      cases ht
      simpa using hne
    rw [List.filter_append, hnone, List.append_nil]
    refine List.map_congr_left fun entry he => ?_
    obtain ⟨he, hd⟩ := List.mem_filter.mp he
    obtain ⟨index, -, hentry⟩ := (mem_of_mapM_eq_ok hn).mp he
    obtain ⟨text, ht, hentry⟩ := bind_eq_ok_iff.mp hentry
    cases hentry
    obtain rfl : text = name.dotted := by simpa using hd
    rw [hu.owners_contains ht]

theorem resolve_append (hu : pool.Unrelated cs name) (h : (pool.append cs).Extends pool)
    (hr : (pool.resolve name).outcome = .ok owner) :
    ((pool.append cs).resolve name).outcome = .ok owner := by
  obtain ⟨candidates, hc, hf⟩ := resolve_eq_ok_iff.mp hr
  exact resolve_eq_ok_iff.mpr ⟨candidates, hu.candidates_append h hc, hf⟩

end Unrelated

end Pool

/-! ## Call sites -/

namespace SpliceRequest

variable {request : SpliceRequest} {c : ClassFile} {ext pool : Pool} {cs : List Constant}
  {code : Code} {lines : LineTable} {calls : List Encoding} {site : CallSite}

/-- A method whose name could not be read might be the one that is asked for after the push. -/
theorem Targets.of_extends (ht : request.Targets c code lines) (h : ext.Extends c.pool)
    (hn : ∀ m ∈ c.methods, ∃ k, c.pool.get m.name = .ok k) :
    request.Targets { c with pool := ext } code lines := by
  obtain ⟨method, hm, hc, hl, hne⟩ := ht
  refine ⟨method, ?_, h.code hc, h.lineTable hl, hne⟩
  rw [← hm]
  refine List.find?_congr fun m hmem => ?_
  obtain ⟨k, hk⟩ := hn m hmem
  simp only [ClassFile.isNamed, Member.nameText, h.utf8_eq hk]

theorem Encodes.append (he : request.Encodes pool calls) (hp : (pool.append cs).Addressable)
    (hu : pool.Unrelated cs request.calleeOwner) : request.Encodes (pool.append cs) calls := by
  have h := Pool.extends_append hp
  obtain ⟨owner, hr, hi⟩ := he
  obtain ⟨found, hf, hne, hcalls⟩ := Pool.invocations_eq_ok_iff.mp hi
  have hd := (Pool.resolve_sound hp.of_append hr).1
  exact ⟨owner, hu.resolve_append h hr,
    Pool.invocations_eq_ok_iff.mpr ⟨found, hu.refsNamed_append h hd hf, hne, hcalls⟩⟩

/-- Pushing constants that do not concern the class of the callee leaves a call site where it is. -/
theorem locate_append (hn : ∀ m ∈ c.methods, ∃ k, c.pool.get m.name = .ok k)
    (hp : (c.pool.append cs).slots.next ≤ 0xFFFF)
    (hu : c.pool.Unrelated cs request.calleeOwner) (hs : (request.locate c).outcome = .ok site) :
    (request.locate { c with pool := c.pool.append cs }).outcome = .ok site := by
  have hp : (c.pool.append cs).Addressable := Nat.le_trans hp (by decide)
  obtain ⟨code, lines, calls, ht, he, ho, hl⟩ := locate_eq_ok_iff.mp hs
  exact locate_eq_ok_iff.mpr ⟨code, lines, calls, ht.of_extends (Pool.extends_append hp) hn,
    he.append hp hu, ho, hl⟩

/-- An entry for another class, whose name comes behind it, a reference through that entry, a
constant of two slots and a reference that leads nowhere. -/
def sampleMore : List Constant :=
  [.classRef 13, .utf8 "game/Coin", .methodRef 12 9 false, .long 0, .fieldRef 18 9]

theorem sampleMore_unrelated : samplePool.Unrelated sampleMore sampleRequest.calleeOwner := by
  have hadded : samplePool.added sampleMore = [(12, .classRef 13), (13, .utf8 "game/Coin"),
      (14, .methodRef 12 9 false), (15, .long 0), (17, .fieldRef 18 9)] := by decide +kernel
  constructor
  · intro index text hm
    obtain ⟨rfl, -⟩ : index = 12 ∧ text = 13 := by simpa [hadded] using hm
    exact ⟨"game.Coin", by decide +kernel, by decide +kernel⟩
  · intro index c owner hm ho hd
    have howners : (samplePool.added sampleMore).filterMap (·.2.owner?) = [12, 18] := by
      rw [hadded]
      rfl
    have howner : owner ∈ [12, 18] := howners ▸ List.mem_filterMap.mpr ⟨_, hm, ho⟩
    have hcoin : samplePool.get 12 = .error (.missingConstant 12) := by decide +kernel
    have hnowhere : samplePool.get 18 = .error (.missingConstant 18) := by decide +kernel
    obtain ⟨name, hg⟩ := Pool.exists_classRef_of_className hd
    obtain rfl | rfl : owner = 12 ∨ owner = 18 := by simpa using howner
    · rw [hcoin] at hg
      cases hg
    · rw [hnowhere] at hg
      cases hg

theorem sample_locate_append :
    (∀ m ∈ sampleClass.methods, ∃ k, samplePool.get m.name = .ok k) ∧
    (samplePool.append sampleMore).slots.next = 18 ∧
    samplePool.Unrelated sampleMore sampleRequest.calleeOwner ∧
    (sampleRequest.locate sampleClass).outcome = .ok ⟨4, 7⟩ ∧
    (sampleRequest.locate { sampleClass with pool := samplePool.append sampleMore }).outcome =
      .ok ⟨4, 7⟩ := by
  have hn : ∀ m ∈ sampleClass.methods, ∃ k, samplePool.get m.name = .ok k := by
    intro m hm
    rw [show m = _ from List.mem_singleton.mp hm]
    exact ⟨.utf8 "run", by decide +kernel⟩
  have hp : (samplePool.append sampleMore).slots.next = 18 := by decide
  exact ⟨hn, hp, sampleMore_unrelated, sample_locate,
    locate_append (c := sampleClass) hn (Nat.le_trans (Nat.le_of_eq hp) (by decide))
      sampleMore_unrelated sample_locate⟩

end SpliceRequest

end ClassSplice
