import ClassSplice.Pool
import ClassSplice.Proofs.Slots
import ClassSplice.Proofs.Outcome
import Mathlib.Data.List.Sort
import Mathlib.Data.Set.Card

/-!
# Entries of a constant pool

While the pool has at most 65536 slots, every slot has an index of its own. Looking an index up then
finds exactly the entry that is listed under it, and the entries are listed by increasing index.
-/

namespace ClassSplice

/-! ## Sets of indices -/

/-- The list goes through the set by increasing index. -/
structure Enumerates (indices : List PoolIndex) (s : Set PoolIndex) : Prop where
  pairwise_lt : indices.Pairwise (· < ·)
  mem_iff : ∀ index, index ∈ indices ↔ index ∈ s

namespace Enumerates

variable {indices others : List PoolIndex} {s t : Set PoolIndex} {index : PoolIndex}

theorem nil : Enumerates [] ∅ := ⟨.nil, by simp⟩

theorem singleton (index : PoolIndex) : Enumerates [index] {index} :=
  ⟨List.pairwise_singleton _ _, by simp⟩

theorem nodup (h : Enumerates indices s) : indices.Nodup := h.pairwise_lt.imp UInt16.ne_of_lt

theorem unique (h : Enumerates indices s) (h' : Enumerates others s) : indices = others := by
  have hp : indices.Perm others := (List.perm_ext_iff_of_nodup h.nodup h'.nodup).mpr fun i =>
    (h.mem_iff i).trans (h'.mem_iff i).symm
  exact hp.eq_of_pairwise (fun _ _ _ _ hab hba => absurd hba (UInt16.lt_asymm hab)) h.pairwise_lt
    h'.pairwise_lt

theorem eq_iff (h : Enumerates indices s) (h' : Enumerates others t) :
    indices = others ↔ s = t := by
  constructor
  · rintro rfl
    exact Set.ext fun i => (h.mem_iff i).symm.trans (h'.mem_iff i)
  · rintro rfl
    exact h.unique h'

theorem exists_cons (h : Enumerates indices s) (hs : s.Nonempty) :
    ∃ first more, indices = first :: more := by
  obtain ⟨index, hi⟩ := hs
  exact List.exists_cons_of_ne_nil (List.ne_nil_of_mem ((h.mem_iff index).mpr hi))

theorem ncard_eq (h : Enumerates indices s) : s.ncard = indices.length := by
  obtain rfl : s = indices.toFinset := by
    ext index
    simp [h.mem_iff]
  rw [Set.ncard_coe_finset, List.toFinset_card_of_nodup h.nodup]

theorem isLeast_iff (h : Enumerates indices s) : IsLeast s index ↔ indices.head? = some index := by
  cases indices with
  | nil =>
      simp only [List.head?_nil, reduceCtorEq, iff_false]
      exact fun hl => by simpa using (h.mem_iff index).mpr hl.1
  | cons first others =>
      have hleast : ∀ i ∈ s, first ≤ i := by
        intro i hi
        rcases List.mem_cons.mp ((h.mem_iff i).mpr hi) with rfl | hi
        · exact UInt16.le_refl _
        · exact UInt16.le_of_lt ((List.pairwise_cons.mp h.pairwise_lt).1 i hi)
      have hfirst : first ∈ s := (h.mem_iff first).mp (by simp)
      simp only [List.head?_cons, Option.some.injEq]
      constructor
      · exact fun hl => UInt16.le_antisymm (hleast index hl.1) (hl.2 hfirst)
      · rintro rfl
        exact ⟨hfirst, hleast⟩

end Enumerates

/-! ## Entries -/

namespace Pool

variable {pool : Pool} {index : PoolIndex} {c : Constant}

/-- Every slot of the pool, the reserved one included, has an index of its own. -/
def Addressable (pool : Pool) : Prop := pool.slots.next ≤ 0x10000

theorem toNat_index (h : pool.Addressable) {e : Nat × Constant} (he : e ∈ pool.slots.toList) :
    (UInt16.ofNat e.1).toNat = e.1 := by
  have hb := Slots.mem_bounds he
  have hw := e.2.width_pos
  unfold Addressable at h
  rw [UInt16.toNat_ofNat']
  omega

theorem toNat_slotCount (h : pool.slots.next ≤ 0xFFFF) :
    pool.slotCount.toNat = pool.slots.next := by
  rw [slotCount, UInt16.toNat_ofNat', Nat.mod_eq_of_lt (Nat.lt_succ_of_le h)]

theorem width_pos_of_mem (pool : Pool) : ∀ e ∈ pool.slots.toList, 0 < width e.2 :=
  fun e _ => e.2.width_pos

theorem get_eq_ok_iff_slot :
    pool.get index = .ok c ↔ (index.toNat, c) ∈ pool.slots.toList := by
  rw [← Slots.get?_eq_some_iff pool.width_pos_of_mem]
  unfold get
  split <;> simp [*]

theorem get_eq_ok_iff (h : pool.Addressable) :
    pool.get index = .ok c ↔ (index, c) ∈ pool.entries := by
  rw [get_eq_ok_iff_slot]
  simp only [entries, List.mem_map, Prod.mk.injEq]
  constructor
  · intro hm
    exact ⟨_, hm, by simp, rfl⟩
  · rintro ⟨⟨slot, c⟩, hm, rfl, rfl⟩
    rwa [toNat_index h hm]

theorem entries_pairwise_lt (h : pool.Addressable) :
    pool.entries.Pairwise fun e f => e.1 < f.1 := by
  refine List.pairwise_map.mpr ((Slots.pairwise_lt pool.width_pos_of_mem).imp_of_mem ?_)
  intro e f he hf hlt
  rwa [UInt16.lt_iff_toNat_lt, toNat_index h he, toNat_index h hf]

/-- What is picked from the entries stands in their order. -/
theorem filterMap_entries_pairwise_lt (h : pool.Addressable) {β : Type}
    {pick : PoolIndex × Constant → Option β} (key : β → PoolIndex)
    (hkey : ∀ e b, pick e = some b → key b = e.1) :
    (pool.entries.filterMap pick).Pairwise fun a b => key a < key b := by
  refine (entries_pairwise_lt h).filterMap _ fun e f hlt a ha b hb => ?_
  rwa [hkey e a ha, hkey f b hb]

/-! ## Names -/

/-- Looking a text up fails for what stands at the index, never for the body of an attribute. -/
theorem utf8_ne_malformedAttribute (pool : Pool) (index : PoolIndex) (name : String)
    (fault : BodyFault) : pool.utf8 index ≠ .error (.malformedAttribute name fault) := by
  intro h
  obtain hg | ⟨c, -, hc⟩ := bind_eq_error_iff.mp h
  · unfold get at hg
    split at hg <;> cases hg
  · cases c <;> cases hc

/-- Only a class entry has a class name. -/
theorem exists_classRef_of_className {text : String} (h : pool.className index = .ok text) :
    ∃ name, pool.get index = .ok (.classRef name) := by
  simp only [className, internalName, bind_eq_ok_iff] at h
  obtain ⟨_, ⟨c, hc, hn⟩, _⟩ := h
  cases c with
  | classRef name => exact ⟨name, hc⟩
  | _ => cases hn

end Pool

end ClassSplice
