import ClassSplice.ClassFile
import ClassSplice.Proofs.Constant
import ClassSplice.Proofs.Pool

/-!
# Class files are read as they are written

All layouts of a class file are exact, so a class is read exactly from the bytes that it is written
as. The classes this holds of are those within the limits of the format: a count that is written in
two bytes must fit them, and so must the length of a body the four bytes it has.
-/

namespace ClassSplice

/-! ## Pools -/

namespace Pool

theorem readSlots_eq_ok_iff {count : Nat} {slots : Slots 1 Constant} {bytes rest : Bytes}
    {pool : Pool} :
    readSlots count slots bytes = .ok (pool, rest) ↔
      ∃ cs, pool = ⟨slots.append cs⟩ ∧ (slots.append cs).next = count ∧ (∀ c ∈ cs, c.Fits) ∧
        bytes = cs.flatMap Constant.layout.write ++ rest := by
  constructor
  · intro h
    fun_induction readSlots count slots bytes with
    | case1 => cases h
    | case2 slots bytes hlt c rest' hc ih =>
        obtain ⟨cs, hpool, hnext, fits, rfl⟩ := ih h
        obtain ⟨fc, rfl⟩ := (Constant.exact_layout _ _ _).1 hc
        exact ⟨c :: cs, by simpa using hpool, hnext, by simpa using ⟨fc, fits⟩,
          by simp⟩
    | case3 => cases h
    | case4 slots bytes hle hge =>
        cases h
        exact ⟨[], rfl, by rw [Slots.append_nil]; omega, by simp, by simp⟩
  · rintro ⟨cs, rfl, rfl, fits, rfl⟩
    induction cs generalizing slots with
    | nil => simp [readSlots]
    | cons c cs ih =>
        rw [List.forall_mem_cons] at fits
        have hc := (Constant.exact_layout
          (Constant.layout.write c ++ (cs.flatMap Constant.layout.write ++ rest)) c _).2
          ⟨fits.1, rfl⟩
        have hlt : slots.next < (slots.append (c :: cs)).next := by
          have hle := Slots.next_le_append (slots.push c) cs
          have hpos := c.width_pos
          rw [Slots.next_push] at hle
          rw [Slots.append_cons]
          omega
        rw [readSlots, if_pos hlt, List.flatMap_cons, List.append_assoc, hc]
        exact ih fits.2

theorem exact_layout : layout.Exact := by
  intro bytes pool rest
  constructor
  · intro h
    simp only [layout] at h
    split at h
    · cases h
    · rename_i count rest' hc
      split at h
      · cases h
      · obtain ⟨-, rfl⟩ := (Layout.exact_u16 _ _ _).1 hc
        obtain ⟨cs, rfl, hnext, fits, rfl⟩ := readSlots_eq_ok_iff.mp h
        have hcs : (Slots.empty.append cs : Slots 1 Constant).toList.map (·.2) = cs :=
          Slots.elements_ofList cs
        have hlt := count.toNat_lt
        have hfits : ∀ e ∈ (Slots.empty.append cs).toList, e.2.Fits :=
          fun e he => fits _ (hcs ▸ List.mem_map_of_mem he)
        refine ⟨⟨Nat.lt_of_le_of_lt (Nat.le_of_eq hnext) hlt, hfits⟩, ?_⟩
        simp only [layout, slotCount, hnext, UInt16.ofNat_toNat, List.append_assoc]
        rw [← List.flatMap_map Prod.snd Constant.layout.write, hcs]
  · rintro ⟨⟨hlt, fits⟩, rfl⟩
    have hn := toNat_slotCount (Nat.le_of_lt_succ hlt)
    have hpos : ¬ pool.slotCount = 0 := by
      have := pool.slots.laid.start_le_stop
      rw [← UInt16.toNat_inj, hn]
      exact fun h => absurd (h ▸ this) (by decide)
    have hc := (Layout.exact_u16 (layout.write pool ++ rest) pool.slotCount _).2
      ⟨trivial, List.append_assoc ..⟩
    simp only [layout] at hc ⊢
    rw [hc]
    simp only [if_neg hpos]
    have hbuilt := pool.slots.ofList_elements
    refine readSlots_eq_ok_iff.mpr ⟨pool.slots.toList.map (·.2), ?_, ?_, ?_, ?_⟩
    · exact congrArg Pool.mk hbuilt.symm
    · exact (congrArg Slots.next hbuilt).trans hn.symm
    · intro c hm
      obtain ⟨e, he, rfl⟩ := List.mem_map.mp hm
      exact fits e he
    · rw [List.flatMap_map]

end Pool

/-! ## Parts of a class -/

theorem AccessFlags.exact_layout {owner : FlagOwner} :
    (layout : Layout (AccessFlags owner)).Exact :=
  Layout.exact_u16.imap (fun _ => rfl) fun _ => rfl

theorem Version.exact_layout : layout.Exact :=
  (Layout.exact_u16.pair Layout.exact_u16).imap (fun _ => rfl) fun _ => rfl

theorem Attribute.exact_layout : layout.Exact :=
  (Layout.exact_u16.pair Layout.exact_blob).imap (fun _ => rfl) fun _ => rfl

theorem Member.exact_layout {owner : FlagOwner} : (layout : Layout (Member owner)).Exact :=
  (AccessFlags.exact_layout.pair (Layout.exact_u16.pair (Layout.exact_u16.pair
    Attribute.exact_layout.list))).imap (fun _ => rfl) fun _ => rfl

/-! ## What fits -/

/-- The texts among the constants. -/
def Pool.texts (pool : Pool) : List String :=
  pool.slots.toList.filterMap fun
    | (_, .utf8 text) => some text
    | _ => none

theorem Pool.mem_texts_iff {pool : Pool} {text : String} :
    text ∈ pool.texts ↔ ∃ slot, (slot, Constant.utf8 text) ∈ pool.slots.toList := by
  simp only [texts, List.mem_filterMap]
  constructor
  · rintro ⟨e, hm, he⟩
    split at he
    · cases he
      exact ⟨_, hm⟩
    · cases he
  · rintro ⟨slot, hm⟩
    exact ⟨_, hm, rfl⟩

theorem Pool.fits_iff {pool : Pool} :
    Pool.layout.Fits pool ↔ pool.slots.next ≤ 0xFFFF ∧
      ∀ slot text, (slot, Constant.utf8 text) ∈ pool.slots.toList →
        (ModifiedUtf8.encode text).length ≤ 0xFFFF := by
  simp only [layout, Nat.lt_succ_iff]
  refine and_congr_right fun _ => ⟨fun h slot text hm => Nat.le_of_lt_succ (h _ hm), ?_⟩
  rintro h ⟨slot, c⟩ hm
  cases c with
  | utf8 text => exact Nat.lt_succ_of_le (h slot text hm)
  | _ => trivial

theorem Attribute.fits_list_iff {as : List Attribute} :
    Attribute.layout.list.Fits as ↔
      as.length ≤ 0xFFFF ∧ ∀ a ∈ as, a.body.length ≤ 0xFFFFFFFF := by
  simp [Layout.list, layout, Layout.imap, Layout.pair, Layout.u16, Layout.blob, Nat.lt_succ_iff]

theorem Member.fits_list_iff {owner : FlagOwner} {ms : List (Member owner)} :
    Member.layout.list.Fits ms ↔ ms.length ≤ 0xFFFF ∧
      ∀ m ∈ ms, m.attributes.length ≤ 0xFFFF ∧
        ∀ a ∈ m.attributes, a.body.length ≤ 0xFFFFFFFF := by
  have hmember : ∀ m : Member owner,
      Member.layout.Fits m ↔ Attribute.layout.list.Fits m.attributes := by
    simp [layout, AccessFlags.layout, Layout.imap, Layout.pair, Layout.u16]
  simp only [Layout.list.eq_1 Member.layout, hmember, Attribute.fits_list_iff, Nat.lt_succ_iff]

/-! ## Classes -/

namespace ClassFile

theorem exact_magicLayout : magicLayout.Exact := by
  rintro bytes ⟨⟩ rest
  constructor
  · intro h
    simp only [magicLayout] at h
    split at h
    · rename_i a b c d rest'
      split at h
      · rename_i hm
        cases h
        exact ⟨trivial, congrArg (· ++ rest) hm⟩
      · cases h
    · cases h
  · rintro ⟨-, rfl⟩
    rfl

theorem exact_layout : layout.Exact :=
  (exact_magicLayout.pair (Version.exact_layout.pair (Pool.exact_layout.pair
    (AccessFlags.exact_layout.pair (Layout.exact_u16.pair (Layout.exact_u16.pair
      (Layout.exact_u16.list.pair (Member.exact_layout.list.pair (Member.exact_layout.list.pair
        Attribute.exact_layout.list))))))))).imap (fun _ => rfl) fun _ => rfl

variable {c : ClassFile} {bytes : Bytes}

theorem read_eq_ok_iff_fits : read bytes = .ok c ↔ c.Fits ∧ bytes = c.write := by
  have hexact := exact_layout bytes c []
  rw [List.append_nil] at hexact
  rw [Fits, write, ← hexact]
  unfold read
  split
  · simp [*]
  · simp [*]
  · rename_i b rest hr
    simp [hr]

/-- The lists of attributes of the class and of its fields and methods. -/
def attributeLists (c : ClassFile) : List (List Attribute) :=
  c.attributes :: (c.fields.map (·.attributes) ++ c.methods.map (·.attributes))

/-- Every count and every length of the class fits the bytes that the format has for it. -/
structure WithinLimits (c : ClassFile) : Prop where
  /-- The reserved slot 0 counts as well. -/
  slots : c.pool.slots.next ≤ 0xFFFF
  texts : ∀ slot text, (slot, Constant.utf8 text) ∈ c.pool.slots.toList →
    (ModifiedUtf8.encode text).length ≤ 0xFFFF
  interfaces : c.interfaces.length ≤ 0xFFFF
  fields : c.fields.length ≤ 0xFFFF
  methods : c.methods.length ≤ 0xFFFF
  attributes : ∀ list ∈ c.attributeLists, list.length ≤ 0xFFFF
  bodies : ∀ list ∈ c.attributeLists, ∀ a ∈ list, a.body.length ≤ 0xFFFFFFFF

instance (c : ClassFile) : Decidable c.WithinLimits :=
  decidable_of_iff
    (c.pool.slots.next ≤ 0xFFFF ∧
      (∀ text ∈ c.pool.texts, (ModifiedUtf8.encode text).length ≤ 0xFFFF) ∧
      c.interfaces.length ≤ 0xFFFF ∧ c.fields.length ≤ 0xFFFF ∧ c.methods.length ≤ 0xFFFF ∧
      (∀ list ∈ c.attributeLists, list.length ≤ 0xFFFF) ∧
      ∀ list ∈ c.attributeLists, ∀ a ∈ list, a.body.length ≤ 0xFFFFFFFF)
    ⟨fun ⟨hs, ht, hi, hf, hm, ha, hb⟩ =>
      ⟨hs, fun slot text h => ht text (Pool.mem_texts_iff.mpr ⟨slot, h⟩), hi, hf, hm, ha, hb⟩,
    fun ⟨hs, ht, hi, hf, hm, ha, hb⟩ =>
      ⟨hs, fun text h => have ⟨slot, h⟩ := Pool.mem_texts_iff.mp h
        ht slot text h, hi, hf, hm, ha, hb⟩⟩

theorem fits_iff_withinLimits : c.Fits ↔ c.WithinLimits := by
  have hfits : c.Fits ↔ Pool.layout.Fits c.pool ∧ c.interfaces.length ≤ 0xFFFF ∧
      Member.layout.list.Fits c.fields ∧ Member.layout.list.Fits c.methods ∧
      Attribute.layout.list.Fits c.attributes := by
    simp [Fits, layout, magicLayout, Version.layout, AccessFlags.layout, Layout.imap, Layout.pair,
      Layout.u16, Layout.list, Nat.lt_succ_iff]
  rw [hfits, Pool.fits_iff, Member.fits_list_iff, Member.fits_list_iff, Attribute.fits_list_iff]
  constructor
  · rintro ⟨⟨hs, ht⟩, hi, ⟨hf, hfa⟩, ⟨hm, hma⟩, ha, hb⟩
    refine ⟨hs, ht, hi, hf, hm, ?_, ?_⟩
    · simp only [attributeLists, List.forall_mem_cons, List.forall_mem_append, List.forall_mem_map]
      exact ⟨ha, fun m h => (hfa m h).1, fun m h => (hma m h).1⟩
    · simp only [attributeLists, List.forall_mem_cons, List.forall_mem_append, List.forall_mem_map]
      exact ⟨hb, fun m h => (hfa m h).2, fun m h => (hma m h).2⟩
  · rintro ⟨hs, ht, hi, hf, hm, ha, hb⟩
    simp only [attributeLists, List.forall_mem_cons, List.forall_mem_append,
      List.forall_mem_map] at ha hb
    exact ⟨⟨hs, ht⟩, hi, ⟨hf, fun m h => ⟨ha.2.1 m h, hb.2.1 m h⟩⟩,
      ⟨hm, fun m h => ⟨ha.2.2 m h, hb.2.2 m h⟩⟩, ha.1, hb.1⟩

theorem read_write (h : c.WithinLimits) : read c.write = .ok c :=
  read_eq_ok_iff_fits.mpr ⟨fits_iff_withinLimits.mpr h, rfl⟩

/-- A class is read from exactly the bytes that it is written as, if it is within the limits. -/
theorem read_eq_ok_iff : read bytes = .ok c ↔ c.write = bytes ∧ c.WithinLimits := by
  rw [read_eq_ok_iff_fits, fits_iff_withinLimits, and_comm, eq_comm]

/-- The pool of a class that is read has no two constants under one index. -/
theorem addressable_of_read (h : read bytes = .ok c) : c.pool.Addressable := by
  have hs := (fits_iff_withinLimits.mp (read_eq_ok_iff_fits.mp h).1).slots
  exact Nat.le_trans hs (by decide)

end ClassFile

end ClassSplice
