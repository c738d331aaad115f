import ClassSplice.Proofs.Resolution

/-!
# How a callee is encoded

The references through a class entry are gone through by increasing index. A name or descriptor that
cannot be read decides the answer, but only at a reference through that very entry. Otherwise each
reference to the method is encoded once, in order, and when there is none the answer names what is
missing. `Invokes` has one rule for each of these ways to end.
-/

namespace ClassSplice.Pool

variable {pool : Pool} {owner index : PoolIndex} {member descriptor : String} {fault : ClassFault}
  {found : List PoolIndex} {calls : List Encoding} {type : MethodDescriptor}
  {r : Except CalleeError (List Encoding)}

/-! ## What is looked for -/

/-- Of the method references through `owner` whose name and descriptor cannot be read, the first
one, with what is wrong with it. -/
structure FirstBrokenRef (pool : Pool) (owner index : PoolIndex) (fault : ClassFault) : Prop where
  broken : ∃ nameAndType onInterface,
    pool.get index = .ok (.methodRef owner nameAndType onInterface) ∧
      pool.nameAndType nameAndType = .error fault
  readable_before : ∀ other nameAndType onInterface, other < index →
    pool.get other = .ok (.methodRef owner nameAndType onInterface) →
      ∃ texts, pool.nameAndType nameAndType = .ok texts

/-- The references to the method through `owner`. -/
def refsTo (pool : Pool) (owner : PoolIndex) (member descriptor : String) : Set PoolIndex :=
  {index | pool.RefersTo owner member descriptor index}

/-- The ways to encode a callee. -/
inductive Invokes (pool : Pool) (owner : PoolIndex) (member descriptor : String) :
    Except CalleeError (List Encoding) → Prop
  | malformed {index : PoolIndex} {fault : ClassFault}
      (hf : pool.FirstBrokenRef owner index fault) :
      Invokes pool owner member descriptor (.error (.malformed fault))
  | notFound {text : String} (hr : pool.RefsReadable owner)
      (hn : pool.refsTo owner member descriptor = ∅) (ho : pool.className owner = .ok text) :
      Invokes pool owner member descriptor (.error (.memberNotFound text member descriptor))
  | nameless {fault : ClassFault} (hr : pool.RefsReadable owner)
      (hn : pool.refsTo owner member descriptor = ∅) (ho : pool.className owner = .error fault) :
      Invokes pool owner member descriptor (.error (.malformed fault))
  | encoded {indices : List PoolIndex} {calls : List Encoding} (hr : pool.RefsReadable owner)
      (hi : Enumerates indices (pool.refsTo owner member descriptor)) (hne : calls ≠ [])
      (hc : List.Forall₂ (fun call index => IsStaticCall call.bytes index) calls indices) :
      Invokes pool owner member descriptor (.ok calls)

/-! ## References in order -/

theorem refsThrough_pairwise_lt (h : pool.Addressable) (owner : PoolIndex) :
    (pool.refsThrough owner).Pairwise fun e f => e.1 < f.1 := by
  refine filterMap_entries_pairwise_lt h Prod.fst ?_
  rintro ⟨i, c⟩ ref hr
  split at hr
  · rename_i heq
    cases heq
    split at hr
    · cases hr
      rfl
    · cases hr
  · cases hr

theorem refsNamed_eq_error_iff (h : pool.Addressable) :
    pool.refsNamed owner member descriptor = .error fault ↔
      ∃ index, pool.FirstBrokenRef owner index fault := by
  simp only [refsNamed, bind_eq_error_iff, bind_eq_ok_iff, pure, Except.pure, reduceCtorEq,
    and_false, exists_false, or_false, mem_refsThrough_iff h,
    mapM_eq_error_iff_of_pairwise (fun _ _ => UInt16.lt_asymm) (refsThrough_pairwise_lt h owner)]
  constructor
  · rintro ⟨⟨index, nameAndType⟩, ⟨onInterface, hg⟩, he, hb⟩
    refine ⟨index, ⟨nameAndType, onInterface, hg, he⟩, fun other nat oi hlt ho => ?_⟩
    obtain ⟨_, texts, ht, -⟩ := hb (other, nat) ⟨oi, ho⟩ hlt
    exact ⟨texts, ht⟩
  · rintro ⟨index, ⟨nameAndType, onInterface, hg, he⟩, hb⟩
    refine ⟨(index, nameAndType), ⟨onInterface, hg⟩, he, fun other hother hlt => ?_⟩
    obtain ⟨oi, ho⟩ := hother
    obtain ⟨texts, ht⟩ := hb other.1 other.2 oi hlt ho
    exact ⟨_, texts, ht, rfl⟩

theorem refsReadable_of_refsNamed (h : pool.Addressable)
    (hf : pool.refsNamed owner member descriptor = .ok found) : pool.RefsReadable owner := by
  intro index nameAndType onInterface hg
  have hm : (index, nameAndType) ∈ pool.refsThrough owner :=
    (mem_refsThrough_iff h).mpr ⟨onInterface, hg⟩
  exact exists_nameAndType_of_refsNamed hf hm

theorem enumerates_refsTo (h : pool.Addressable)
    (hf : pool.refsNamed owner member descriptor = .ok found) :
    Enumerates found (pool.refsTo owner member descriptor) where
  pairwise_lt := by
    simp only [refsNamed, bind_eq_ok_iff, pure, Except.pure, Except.ok.injEq] at hf
    obtain ⟨texts, hm, rfl⟩ := hf
    have hindices : texts.map (·.1) = (pool.refsThrough owner).map (·.1) := by
      refine map_of_mapM_eq_ok (fun ref entry he => ?_) hm
      obtain ⟨text, -, he⟩ := bind_eq_ok_iff.mp he
      cases he
      rfl
    have hsorted : texts.Pairwise fun e f => e.1 < f.1 :=
      List.pairwise_map.mp (hindices ▸ List.pairwise_map.mpr (refsThrough_pairwise_lt h owner))
    exact List.pairwise_map.mpr (hsorted.filter _)
  mem_iff _ := mem_refsNamed_iff h hf

/-! ## What is answered -/

theorem invocations_of_error (hf : pool.refsNamed owner member type.render = .error fault) :
    (pool.invocations owner member type).outcome = .error (.malformed fault) := by
  simp [invocations, methodRefs, Logged.outcome_bind, hf]

theorem invocations_of_nameless (hf : pool.refsNamed owner member type.render = .ok [])
    (ho : pool.className owner = .error fault) :
    (pool.invocations owner member type).outcome = .error (.malformed fault) := by
  simp [invocations, methodRefs, Logged.outcome_bind, hf, ho]

/-- Each call is that of the reference beside it, so the references decide the calls. -/
theorem forall₂_isStaticCall_iff :
    List.Forall₂ (fun (call : Encoding) index => IsStaticCall call.bytes index) calls found ↔
      calls = found.map Encoding.invokeStatic := by
  have hcall : ∀ (call : Encoding) (index : PoolIndex),
      IsStaticCall call.bytes index ↔ call = .invokeStatic index := by
    rintro ⟨bytes⟩ index
    rw [isStaticCall_iff, Encoding.mk.injEq, eq_comm]
  simp only [hcall, ← List.forall₂_map_right_iff (f := Encoding.invokeStatic),
    List.forall₂_eq_eq_eq]

theorem invokes_invocations (h : pool.Addressable) (owner : PoolIndex) (member : String)
    (type : MethodDescriptor) :
    pool.Invokes owner member type.render (pool.invocations owner member type).outcome := by
  cases hf : pool.refsNamed owner member type.render with
  | error fault =>
      obtain ⟨index, hb⟩ := (refsNamed_eq_error_iff h).mp hf
      rw [invocations_of_error hf]
      exact .malformed hb
  | ok found =>
      have hr := refsReadable_of_refsNamed h hf
      have hi := enumerates_refsTo h hf
      cases found with
      | nil =>
          have hn := (hi.eq_iff .nil).mp rfl
          cases ho : pool.className owner with
          | error fault =>
              rw [invocations_of_nameless hf ho]
              exact .nameless hr hn ho
          | ok text =>
              rw [invocations_eq_memberNotFound hf ho]
              exact .notFound hr hn ho
      | cons first others =>
          rw [invocations_eq_ok_iff.mpr ⟨_, hf, List.cons_ne_nil first others, rfl⟩]
          exact .encoded hr hi (by simp) (forall₂_isStaticCall_iff.mpr rfl)

theorem Invokes.outcome_eq (h : pool.Addressable) (hr : pool.Invokes owner member type.render r) :
    (pool.invocations owner member type).outcome = r := by
  cases hr with
  | malformed hf => exact invocations_of_error ((refsNamed_eq_error_iff h).mpr ⟨_, hf⟩)
  | notFound hr hn ho =>
      obtain ⟨found, hf⟩ := exists_refsNamed h hr member type.render
      obtain rfl := ((enumerates_refsTo h hf).eq_iff .nil).mpr hn
      exact invocations_eq_memberNotFound hf ho
  | nameless hr hn ho =>
      obtain ⟨found, hf⟩ := exists_refsNamed h hr member type.render
      obtain rfl := ((enumerates_refsTo h hf).eq_iff .nil).mpr hn
      exact invocations_of_nameless hf ho
  | encoded hr hi hne hc =>
      obtain ⟨found, hf⟩ := exists_refsNamed h hr member type.render
      obtain rfl := hi.unique (enumerates_refsTo h hf)
      obtain rfl := forall₂_isStaticCall_iff.mp hc
      exact invocations_eq_ok_iff.mpr ⟨_, hf, by simpa using hne, rfl⟩

/-- Every reference to the method through `owner` is encoded once, by increasing index, and nothing
else is. Only when none is found, or when the texts of a reference through `owner` cannot be read,
there is an error instead. -/
theorem invocations_eq_iff_invokes (h : pool.Addressable) :
    (pool.invocations owner member type).outcome = r ↔ pool.Invokes owner member type.render r :=
  ⟨fun hr => hr ▸ invokes_invocations h owner member type, fun hr => hr.outcome_eq h⟩

/-- Both references to the method are encoded, and the broken one through 12 does not matter. -/
theorem crowdedPool_invocations : crowdedPool.Addressable ∧
    (crowdedPool.invocations 11 "roll" ⟨[], some .int⟩).outcome =
      .ok [⟨[0xB8, 0x00, 0x05]⟩, ⟨[0xB8, 0x00, 0x0D]⟩] := by
  have h := crowdedPool_addressable
  have hf : crowdedPool.refsNamed 11 "roll" (⟨[], some .int⟩ : MethodDescriptor).render =
      .ok [5, 13] := by decide +kernel
  have hc : List.Forall₂ (fun (call : Encoding) index => IsStaticCall call.bytes index)
      [⟨[0xB8, 0x00, 0x05]⟩, ⟨[0xB8, 0x00, 0x0D]⟩] [5, 13] :=
    .cons ⟨0x00, 0x05, rfl, by decide⟩ (.cons ⟨0x00, 0x0D, rfl, by decide⟩ .nil)
  exact ⟨h, (invocations_eq_iff_invokes h).mpr
    (.encoded (refsReadable_of_refsNamed h hf) (enumerates_refsTo h hf) (by simp) hc)⟩

end ClassSplice.Pool
