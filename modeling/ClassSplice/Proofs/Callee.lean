import ClassSplice.Callee
import ClassSplice.Proofs.Instruction.Search
import ClassSplice.Proofs.Pool

/-!
# What the search for a callee finds

`Denotes` says which entries stand for a class and `RefersTo` which references stand for a method,
both through lookups in the pool. Resolution gives an entry that denotes the class and is live, and
the encodings are those of the references through it.
-/

namespace ClassSplice

namespace Pool

variable {pool : Pool} {owner index : PoolIndex} {name : ClassName}

/-! ## The class -/

/-- The index holds an entry for the class. -/
def Denotes (pool : Pool) (name : ClassName) (index : PoolIndex) : Prop :=
  pool.className index = .ok name.dotted

/-- Some field or method reference names the entry as its class. -/
def IsLive (pool : Pool) (owner : PoolIndex) : Prop :=
  ∃ index c, pool.get index = .ok c ∧ c.owner? = some owner

/-- Of the entries for the class, this one alone is live. -/
structure OnlyLive (pool : Pool) (name : ClassName) (owner : PoolIndex) : Prop where
  denotes : pool.Denotes name owner
  isLive : pool.IsLive owner
  eq_of_isLive : ∀ other, pool.Denotes name other → pool.IsLive other → other = owner

/-- The name of every class entry can be read. -/
def ClassNamesReadable (pool : Pool) : Prop :=
  ∀ index name, pool.get index = .ok (.classRef name) → ∃ text, pool.className index = .ok text

theorem isLive_iff_mem (h : pool.Addressable) :
    pool.IsLive owner ↔ owner ∈ pool.entries.filterMap (·.2.owner?) := by
  simp only [List.mem_filterMap, IsLive, get_eq_ok_iff h, Prod.exists]

theorem owners_contains_iff (h : pool.Addressable) :
    pool.owners.contains owner = true ↔ pool.IsLive owner := by
  simp only [owners, Std.HashSet.contains_ofList, List.contains_iff_mem, isLive_iff_mem h]

theorem mem_classEntries_iff (h : pool.Addressable) :
    index ∈ pool.classEntries ↔ ∃ name, pool.get index = .ok (.classRef name) := by
  simp only [classEntries, List.mem_filterMap, get_eq_ok_iff h]
  constructor
  · rintro ⟨⟨i, c⟩, hm, hc⟩
    split at hc
    · rename_i i' name heq
      cases heq
      cases hc
      exact ⟨name, hm⟩
    · cases hc
  · rintro ⟨name, hm⟩
    exact ⟨_, hm, rfl⟩

theorem mem_candidates_iff (h : pool.Addressable) {candidates : List Candidate}
    (hc : pool.candidates name = .ok candidates) {candidate : Candidate} :
    candidate ∈ candidates ↔ pool.Denotes name candidate.index ∧ candidate.name = name.dotted ∧
      (candidate.isLive = true ↔ pool.IsLive candidate.index) := by
  simp only [Pool.candidates, bind_eq_ok_iff, pure, Except.pure, Except.ok.injEq] at hc
  obtain ⟨named, hn, rfl⟩ := hc
  have hmem : ∀ e, e ∈ named ↔ e.1 ∈ pool.classEntries ∧ pool.className e.1 = .ok e.2 := by
    rintro ⟨i, text⟩
    simp [mem_of_mapM_eq_ok hn]
  rw [← owners_contains_iff h]
  constructor
  · intro hm
    obtain ⟨⟨i, text⟩, he, rfl⟩ := List.mem_map.mp hm
    obtain ⟨he, hd⟩ := List.mem_filter.mp he
    obtain rfl : text = name.dotted := by simpa using hd
    exact ⟨((hmem _).mp he).2, rfl, Iff.rfl⟩
  · rintro ⟨hd, hname, hlive⟩
    have hi := (mem_classEntries_iff h).mpr (exists_classRef_of_className hd)
    refine List.mem_map.mpr ⟨(candidate.index, name.dotted), ?_, ?_⟩
    · exact List.mem_filter.mpr ⟨(hmem _).mpr ⟨hi, hd⟩, by simp⟩
    · obtain ⟨i, text, live⟩ := candidate
      dsimp only at hname hlive ⊢
      rw [hname, Bool.eq_iff_iff.mpr hlive]

theorem exists_candidates (h : pool.Addressable) (hr : pool.ClassNamesReadable)
    (name : ClassName) : ∃ candidates, pool.candidates name = .ok candidates := by
  have hread : ∀ i ∈ pool.classEntries,
      ∃ entry, (return (i, ← pool.className i) : Except ClassFault _) = .ok entry := by
    intro i hi
    obtain ⟨n, hn⟩ := (mem_classEntries_iff h).mp hi
    obtain ⟨text, ht⟩ := hr i n hn
    exact ⟨(i, text), by simp [ht, pure, Except.pure]⟩
  obtain ⟨named, hn⟩ := exists_mapM_eq_ok hread
  exact ⟨_, by simp only [Pool.candidates, bind_eq_ok_iff]; exact ⟨named, hn, rfl⟩⟩

theorem resolve_eq_ok_iff :
    (pool.resolve name).outcome = .ok owner ↔
      ∃ candidates, pool.candidates name = .ok candidates ∧
        (candidates.filter (·.isLive)).head?.map (·.index) = some owner := by
  simp only [resolve, Logged.outcome_bind, bind_eq_ok_iff, Logged.outcome_ofExcept,
    mapError_eq_ok_iff]
  refine exists_congr fun candidates => and_congr_right fun _ => ?_
  split
  · rename_i he
    simp [List.isEmpty_iff.mp he]
  · split <;> simp [*, Logged.outcome_bind]

/-- What is found denotes the class and is live. -/
theorem resolve_sound (h : pool.Addressable) (hr : (pool.resolve name).outcome = .ok owner) :
    pool.Denotes name owner ∧ pool.IsLive owner := by
  obtain ⟨candidates, hc, hf⟩ := resolve_eq_ok_iff.mp hr
  obtain ⟨candidate, hhead, rfl⟩ := Option.map_eq_some_iff.mp hf
  obtain ⟨hm, hl⟩ := List.mem_filter.mp (List.mem_of_mem_head? hhead)
  obtain ⟨hd, -, hiff⟩ := (mem_candidates_iff h hc).mp hm
  exact ⟨hd, hiff.mp hl⟩

/-- An entry that alone is live is the one that is found. -/
theorem OnlyLive.resolve_eq (ho : pool.OnlyLive name owner) (h : pool.Addressable)
    (hr : pool.ClassNamesReadable) : (pool.resolve name).outcome = .ok owner := by
  obtain ⟨candidates, hc⟩ := exists_candidates h hr name
  have hmem : (⟨owner, name.dotted, true⟩ : Candidate) ∈ candidates.filter (·.isLive) :=
    List.mem_filter.mpr
      ⟨(mem_candidates_iff h hc).mpr ⟨ho.denotes, rfl, by simpa using ho.isLive⟩, rfl⟩
  obtain ⟨first, rest, hf⟩ := List.exists_cons_of_ne_nil (List.ne_nil_of_mem hmem)
  obtain ⟨hm, hlive⟩ := List.mem_filter.mp (show first ∈ candidates.filter (·.isLive) by simp [hf])
  obtain ⟨hd, -, hiff⟩ := (mem_candidates_iff h hc).mp hm
  have heq := ho.eq_of_isLive _ hd (hiff.mp hlive)
  exact resolve_eq_ok_iff.mpr ⟨candidates, hc, by simp [hf, heq]⟩

/-! ## The method -/

/-- The index holds a reference to the method through the class entry `owner`. -/
def RefersTo (pool : Pool) (owner : PoolIndex) (name descriptor : String) (index : PoolIndex) :
    Prop :=
  ∃ nameAndType onInterface, pool.get index = .ok (.methodRef owner nameAndType onInterface) ∧
    pool.nameAndType nameAndType = .ok (name, descriptor)

/-- The name and the descriptor of every method reference through `owner` can be read. -/
def RefsReadable (pool : Pool) (owner : PoolIndex) : Prop :=
  ∀ index nameAndType onInterface,
    pool.get index = .ok (.methodRef owner nameAndType onInterface) →
      ∃ texts, pool.nameAndType nameAndType = .ok texts

variable {member descriptor : String}

theorem RefersTo.isLive (h : pool.RefersTo owner member descriptor index) : pool.IsLive owner := by
  obtain ⟨_, _, hg, -⟩ := h
  exact ⟨index, _, hg, rfl⟩

theorem mem_refsThrough {ref : PoolIndex × PoolIndex} :
    ref ∈ pool.refsThrough owner ↔
      ∃ onInterface, (ref.1, Constant.methodRef owner ref.2 onInterface) ∈ pool.entries := by
  simp only [refsThrough, List.mem_filterMap]
  constructor
  · rintro ⟨⟨i, c⟩, hm, hc⟩
    split at hc
    · rename_i i' o nameAndType onInterface heq
      cases heq
      split at hc
      · rename_i ho
        cases hc
        exact ⟨onInterface, ho ▸ hm⟩
      · cases hc
    · cases hc
  · rintro ⟨onInterface, hm⟩
    exact ⟨_, hm, by simp⟩

theorem mem_refsThrough_iff (h : pool.Addressable) {ref : PoolIndex × PoolIndex} :
    ref ∈ pool.refsThrough owner ↔
      ∃ onInterface, pool.get ref.1 = .ok (.methodRef owner ref.2 onInterface) := by
  simp only [mem_refsThrough, get_eq_ok_iff h]

theorem mem_refsNamed {found : List PoolIndex}
    (hf : pool.refsNamed owner member descriptor = .ok found) :
    index ∈ found ↔ ∃ nameAndType onInterface,
      (index, Constant.methodRef owner nameAndType onInterface) ∈ pool.entries ∧
        pool.nameAndType nameAndType = .ok (member, descriptor) := by
  simp only [refsNamed, bind_eq_ok_iff, pure, Except.pure, Except.ok.injEq] at hf
  obtain ⟨texts, ht, rfl⟩ := hf
  have hmem : ∀ e, e ∈ texts ↔ ∃ nameAndType, (e.1, nameAndType) ∈ pool.refsThrough owner ∧
      pool.nameAndType nameAndType = .ok e.2 := by
    rintro ⟨i, text⟩
    simp [mem_of_mapM_eq_ok ht]
  simp only [List.mem_map, List.mem_filter, hmem, mem_refsThrough, beq_iff_eq]
  constructor
  · rintro ⟨⟨i, text⟩, ⟨⟨nameAndType, ⟨onInterface, hg⟩, ht⟩, rfl⟩, rfl⟩
    exact ⟨nameAndType, onInterface, hg, ht⟩
  · rintro ⟨nameAndType, onInterface, hg, ht⟩
    exact ⟨(index, member, descriptor), ⟨⟨nameAndType, ⟨onInterface, hg⟩, ht⟩, rfl⟩, rfl⟩

theorem mem_refsNamed_iff (h : pool.Addressable) {found : List PoolIndex}
    (hf : pool.refsNamed owner member descriptor = .ok found) :
    index ∈ found ↔ pool.RefersTo owner member descriptor index := by
  simp only [mem_refsNamed hf, RefersTo, get_eq_ok_iff h]

/-- The references are found by their texts only when the texts of all of them can be read. -/
theorem exists_nameAndType_of_refsNamed {found : List PoolIndex} {ref : PoolIndex × PoolIndex}
    (hf : pool.refsNamed owner member descriptor = .ok found) (hm : ref ∈ pool.refsThrough owner) :
    ∃ texts, pool.nameAndType ref.2 = .ok texts := by
  obtain ⟨_, ht, -⟩ := bind_eq_ok_iff.mp hf
  obtain ⟨_, he⟩ := exists_of_mapM_eq_ok ht hm
  obtain ⟨texts, ht, -⟩ := bind_eq_ok_iff.mp he
  exact ⟨texts, ht⟩

theorem exists_refsNamed (h : pool.Addressable) (hr : pool.RefsReadable owner)
    (member descriptor : String) :
    ∃ found, pool.refsNamed owner member descriptor = .ok found := by
  have hread : ∀ ref ∈ pool.refsThrough owner,
      ∃ entry, (return (ref.1, ← pool.nameAndType ref.2) : Except ClassFault _) = .ok entry := by
    intro ref href
    obtain ⟨onInterface, hg⟩ := (mem_refsThrough_iff h).mp href
    obtain ⟨text, ht⟩ := hr _ _ _ hg
    exact ⟨(ref.1, text), by simp [ht, pure, Except.pure]⟩
  obtain ⟨texts, ht⟩ := exists_mapM_eq_ok hread
  exact ⟨_, by simp only [refsNamed, bind_eq_ok_iff]; exact ⟨texts, ht, rfl⟩⟩

theorem invocations_eq_ok_iff {type : MethodDescriptor} {calls : List Encoding} :
    (pool.invocations owner member type).outcome = .ok calls ↔
      ∃ found, pool.refsNamed owner member type.render = .ok found ∧ found ≠ [] ∧
        found.map Encoding.invokeStatic = calls := by
  simp only [invocations, methodRefs, Logged.outcome_bind, bind_eq_ok_iff, Logged.outcome_pure,
    Logged.outcome_ofExcept, mapError_eq_ok_iff, Except.ok.injEq]
  constructor
  · rintro ⟨refs, ⟨found, hf, hrefs⟩, rfl⟩
    split at hrefs
    · simp [Logged.outcome_bind] at hrefs
    · cases hrefs
      exact ⟨_, hf, by simp, rfl⟩
    · rename_i hne _
      simp only [Logged.outcome_bind, bind_eq_ok_iff, Logged.outcome_pure, Except.ok.injEq] at hrefs
      obtain ⟨-, -, rfl⟩ := hrefs
      exact ⟨found, hf, hne, rfl⟩
  · rintro ⟨found, hf, hne, rfl⟩
    refine ⟨found, ⟨found, hf, ?_⟩, rfl⟩
    split
    · exact absurd rfl hne
    · rfl
    · simp [Logged.outcome_bind]

/-- Without a reference to the method, the answer names what is missing. -/
theorem invocations_eq_memberNotFound {type : MethodDescriptor} {text : String}
    (hf : pool.refsNamed owner member type.render = .ok []) (hn : pool.className owner = .ok text) :
    (pool.invocations owner member type).outcome =
      .error (.memberNotFound text member type.render) := by
  simp [invocations, methodRefs, Logged.outcome_bind, hf, hn]

end Pool

/-! ## Calls -/

/-- The bytes call a static method through the reference at `index`: the opcode, then the index with
its high byte first. -/
def IsStaticCall (bytes : Bytes) (index : PoolIndex) : Prop :=
  ∃ high low : UInt8, bytes = [0xB8, high, low] ∧
    index.toNat = high.toNat * 0x100 + low.toNat

theorem isStaticCall_iff {bytes : Bytes} {index : PoolIndex} :
    IsStaticCall bytes index ↔ (Encoding.invokeStatic index).bytes = bytes := by
  have hi := index.toNat_lt
  constructor
  · rintro ⟨high, low, rfl, hn⟩
    have hh := high.toNat_lt
    have hl := low.toNat_lt
    have h1 : UInt8.ofNat (index.toNat / 0x100) = high := by
      apply UInt8.toNat.inj
      rw [UInt8.toNat_ofNat']
      omega
    have h2 : UInt8.ofNat index.toNat = low := by
      apply UInt8.toNat.inj
      rw [UInt8.toNat_ofNat']
      omega
    simp [Encoding.invokeStatic, Opcode.invokeStatic, h1, h2]
  · rintro rfl
    refine ⟨_, _, rfl, ?_⟩
    rw [UInt8.toNat_ofNat', UInt8.toNat_ofNat']
    omega

theorem Instruction.matches_invocations_iff {found : List PoolIndex} {i : Instruction} :
    i.Matches (found.map Encoding.invokeStatic) ↔ ∃ index ∈ found, IsStaticCall i.bytes index := by
  simp [Matches, Encoding.invokeStatic_accepts_iff, isStaticCall_iff]

end ClassSplice
