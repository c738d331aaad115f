import ClassSplice.Proofs.Callee
import ClassSplice.Proofs.Name
import Mathlib.Data.Set.Card

/-!
# How a class is resolved

A class entry with an unreadable name decides the resolution, whatever stands before it. Otherwise
the least live entry for the class is taken, and a warning says of how many. `Resolves` has one rule
for each of these ways to end, in terms of lookups and of sets of indices; `resolve` follows them.
-/

namespace ClassSplice

theorem ClassName.bracket_not_mem_dotted (name : ClassName) : '[' ∉ name.dotted.toList := by
  intro hm
  simp only [dotted, replaceChar, String.toList_ofList, List.mem_map] at hm
  obtain ⟨c, hc, heq⟩ := hm
  split at heq
  · exact absurd heq (by decide)
  · exact name.not_mem_of_illegal (c := '[') (by decide) (by decide) (heq ▸ hc)

namespace Pool

variable {pool : Pool} {owner index : PoolIndex} {name : ClassName} {fault : ClassFault}
  {candidates : List Candidate}

/-! ## What is looked for -/

/-- The index holds the entry of a class that is no array class, and its name with dots is that of
the class. -/
def Names (pool : Pool) (name : ClassName) (index : PoolIndex) : Prop :=
  ∃ internal, pool.internalName index = .ok internal ∧ internal.toList.head? ≠ some '[' ∧
    ClassName.replaceChar '/' '.' internal = name.dotted

/-- The entries for the class. -/
def entriesFor (pool : Pool) (name : ClassName) : Set PoolIndex := {index | pool.Names name index}

/-- Those of them that some field or method reference names. -/
def liveEntriesFor (pool : Pool) (name : ClassName) : Set PoolIndex :=
  {index | pool.Names name index ∧ pool.IsLive index}

/-- Of the class entries whose name cannot be read, the first one, with what is wrong with it. -/
structure FirstUnreadable (pool : Pool) (index : PoolIndex) (fault : ClassFault) : Prop where
  isClass : ∃ text, pool.get index = .ok (.classRef text)
  unreadable : pool.className index = .error fault
  readable_before : ∀ other text, other < index → pool.get other = .ok (.classRef text) →
    ∃ found, pool.className other = .ok found

/-- What is written to the log when several entries for the class are live. -/
def severalLive (name : ClassName) (count : Nat) (chosen : PoolIndex) : LogRecord :=
  ⟨.warn, toString count ++ " referenced class entries for " ++ name.dotted ++ ", using #" ++
    toString chosen.toNat⟩

/-- The ways to resolve a class, with what is logged. -/
inductive Resolves (pool : Pool) (name : ClassName) : Logged ResolveError PoolIndex → Prop
  | malformed {index : PoolIndex} {fault : ClassFault} (hf : pool.FirstUnreadable index fault) :
      Resolves pool name ⟨.error (.malformed fault), []⟩
  | noCandidates (hr : pool.ClassNamesReadable) (hn : pool.entriesFor name = ∅) :
      Resolves pool name ⟨.error (.noCandidates name.dotted), []⟩
  | noLive (hr : pool.ClassNamesReadable) (hs : (pool.entriesFor name).Nonempty)
      (hn : pool.liveEntriesFor name = ∅) :
      Resolves pool name ⟨.error (.noLiveCandidate name.dotted (pool.entriesFor name).ncard), []⟩
  | only {owner : PoolIndex} (hr : pool.ClassNamesReadable)
      (ho : pool.liveEntriesFor name = {owner}) : Resolves pool name ⟨.ok owner, []⟩
  | first {owner : PoolIndex} (hr : pool.ClassNamesReadable)
      (ho : IsLeast (pool.liveEntriesFor name) owner)
      (hm : 2 ≤ (pool.liveEntriesFor name).ncard) :
      Resolves pool name
        ⟨.ok owner, [severalLive name (pool.liveEntriesFor name).ncard owner]⟩

/-! ## Names of entries -/

/-- An array class never has the name of a class. -/
theorem names_iff_denotes : pool.Names name index ↔ pool.Denotes name index := by
  constructor
  · rintro ⟨internal, hi, hb, hd⟩
    exact bind_eq_ok_iff.mpr ⟨internal, hi, by rw [sourceNameOf, if_neg hb, hd]⟩
  · intro hd
    obtain ⟨internal, hi, hs⟩ := bind_eq_ok_iff.mp hd
    have hb : internal.toList.head? ≠ some '[' := fun hb =>
      name.bracket_not_mem_dotted (bracket_mem_className hi hb hd)
    rw [sourceNameOf, if_neg hb, Except.ok.injEq] at hs
    exact ⟨internal, hi, hb, hs⟩

/-! ## Class entries in order -/

theorem classEntries_pairwise_lt (h : pool.Addressable) : pool.classEntries.Pairwise (· < ·) := by
  refine filterMap_entries_pairwise_lt h id ?_
  rintro ⟨i, c⟩ index hi
  cases c <;> cases hi
  rfl

theorem candidates_eq_error_iff (h : pool.Addressable) :
    pool.candidates name = .error fault ↔ ∃ index, pool.FirstUnreadable index fault := by
  simp only [Pool.candidates, bind_eq_error_iff, bind_eq_ok_iff, pure, Except.pure, reduceCtorEq,
    and_false, exists_false, or_false, mem_classEntries_iff h,
    mapM_eq_error_iff_of_pairwise (fun _ _ => UInt16.lt_asymm) (classEntries_pairwise_lt h)]
  refine exists_congr fun index => ?_
  constructor
  · rintro ⟨hc, he, hb⟩
    refine ⟨hc, he, fun other text hlt hg => ?_⟩
    obtain ⟨_, found, hf, -⟩ := hb other ⟨text, hg⟩ hlt
    exact ⟨found, hf⟩
  · rintro ⟨hc, he, hb⟩
    refine ⟨hc, he, fun other hother hlt => ?_⟩
    obtain ⟨text, hg⟩ := hother
    obtain ⟨found, hf⟩ := hb other text hlt hg
    exact ⟨_, found, hf, rfl⟩

theorem classNamesReadable_of_candidates (h : pool.Addressable)
    (hc : pool.candidates name = .ok candidates) : pool.ClassNamesReadable := by
  intro index text hg
  obtain ⟨named, hn, -⟩ := bind_eq_ok_iff.mp hc
  obtain ⟨_, he⟩ := exists_of_mapM_eq_ok hn ((mem_classEntries_iff h).mpr ⟨text, hg⟩)
  obtain ⟨found, hf, -⟩ := bind_eq_ok_iff.mp he
  exact ⟨found, hf⟩

theorem candidates_pairwise_lt (h : pool.Addressable)
    (hc : pool.candidates name = .ok candidates) :
    candidates.Pairwise fun c d => c.index < d.index := by
  simp only [Pool.candidates, bind_eq_ok_iff, pure, Except.pure, Except.ok.injEq] at hc
  obtain ⟨named, hn, rfl⟩ := hc
  have hindices : named.map (·.1) = pool.classEntries := by
    refine (map_of_mapM_eq_ok (fun index entry he => ?_) hn).trans (List.map_id _)
    obtain ⟨text, -, he⟩ := bind_eq_ok_iff.mp he
    cases he
    rfl
  have hnamed : named.Pairwise fun e f => e.1 < f.1 :=
    List.pairwise_map.mp (hindices ▸ classEntries_pairwise_lt h)
  exact List.pairwise_map.mpr (hnamed.filter _)

theorem enumerates_entriesFor (h : pool.Addressable)
    (hc : pool.candidates name = .ok candidates) :
    Enumerates (candidates.map (·.index)) (pool.entriesFor name) where
  pairwise_lt := List.pairwise_map.mpr (candidates_pairwise_lt h hc)
  mem_iff index := by
    simp only [List.mem_map, entriesFor, Set.mem_ofPred_eq, names_iff_denotes]
    constructor
    · rintro ⟨candidate, hm, rfl⟩
      exact ((mem_candidates_iff h hc).mp hm).1
    · intro hd
      exact ⟨⟨index, name.dotted, pool.owners.contains index⟩,
        (mem_candidates_iff h hc).mpr ⟨hd, rfl, owners_contains_iff h⟩, rfl⟩

theorem enumerates_liveEntriesFor (h : pool.Addressable)
    (hc : pool.candidates name = .ok candidates) :
    Enumerates ((candidates.filter (·.isLive)).map (·.index)) (pool.liveEntriesFor name) where
  pairwise_lt := List.pairwise_map.mpr ((candidates_pairwise_lt h hc).filter _)
  mem_iff index := by
    simp only [List.mem_map, List.mem_filter, liveEntriesFor, Set.mem_ofPred_eq, names_iff_denotes]
    constructor
    · rintro ⟨candidate, ⟨hm, hl⟩, rfl⟩
      obtain ⟨hd, -, hlive⟩ := (mem_candidates_iff h hc).mp hm
      exact ⟨hd, hlive.mp hl⟩
    · rintro ⟨hd, hl⟩
      exact ⟨⟨index, name.dotted, true⟩,
        ⟨(mem_candidates_iff h hc).mpr ⟨hd, rfl, by simpa using hl⟩, rfl⟩, rfl⟩

/-! ## What is answered -/

theorem resolve_of_error (hc : pool.candidates name = .error fault) :
    pool.resolve name = ⟨.error (.malformed fault), []⟩ := by
  unfold resolve
  exact Logged.bind_of_error (by simp [hc])

theorem resolve_of_ok (hc : pool.candidates name = .ok candidates) :
    pool.resolve name =
      match candidates.map (·.index), (candidates.filter (·.isLive)).map (·.index) with
      | [], _ => ⟨.error (.noCandidates name.dotted), []⟩
      | indices, [] => ⟨.error (.noLiveCandidate name.dotted indices.length), []⟩
      | _, [only] => ⟨.ok only, []⟩
      | _, first :: others => ⟨.ok first, [severalLive name (others.length + 1) first]⟩ := by
  unfold resolve
  rw [Logged.bind_of_ok (a := candidates) (by simp [hc])]
  cases candidates with
  | nil => rfl
  | cons candidate rest =>
      simp only [List.isEmpty_cons, Bool.false_eq_true, ↓reduceIte, List.map_cons]
      generalize (candidate :: rest).filter (·.isLive) = live
      match live with
      | [] => simp [Logged.fail, Logged.ofExcept]
      | [only] => rfl
      | first :: second :: others =>
          simp [severalLive, Logged.warn, Logged.ofExcept, Logged.bind_of_ok]

theorem resolves_resolve (h : pool.Addressable) (name : ClassName) :
    pool.Resolves name (pool.resolve name) := by
  cases hc : pool.candidates name with
  | error fault =>
      obtain ⟨index, hf⟩ := (candidates_eq_error_iff h).mp hc
      rw [resolve_of_error hc]
      exact .malformed hf
  | ok candidates =>
      have hr := classNamesReadable_of_candidates h hc
      have hs := enumerates_entriesFor h hc
      have hl := enumerates_liveEntriesFor h hc
      rw [resolve_of_ok hc]
      generalize candidates.map (·.index) = indices at hs
      generalize (candidates.filter (·.isLive)).map (·.index) = live at hl
      match indices, live with
      | [], _ => exact .noCandidates hr ((hs.eq_iff .nil).mp rfl)
      | first :: others, [] =>
          dsimp only
          rw [← hs.ncard_eq]
          exact .noLive hr ⟨first, (hs.mem_iff first).mp (by simp)⟩ ((hl.eq_iff .nil).mp rfl)
      | _ :: _, [only] => exact .only hr ((hl.eq_iff (.singleton only)).mp rfl)
      | _ :: _, first :: second :: others =>
          have hn := hl.ncard_eq
          dsimp only
          rw [← List.length_cons (a := first), ← hn]
          exact .first hr (hl.isLeast_iff.mpr rfl) (by simp [hn])

theorem liveEntriesFor_subset : pool.liveEntriesFor name ⊆ pool.entriesFor name :=
  fun _ h => h.1

theorem Resolves.resolve_eq (h : pool.Addressable) {r : Logged ResolveError PoolIndex}
    (hr : pool.Resolves name r) : pool.resolve name = r := by
  cases hr with
  | malformed hf => exact resolve_of_error ((candidates_eq_error_iff h).mpr ⟨_, hf⟩)
  | noCandidates hr hn =>
      obtain ⟨candidates, hc⟩ := exists_candidates h hr name
      have hs := ((enumerates_entriesFor h hc).eq_iff .nil).mpr hn
      rw [resolve_of_ok hc, hs]
  | noLive hr hs hn =>
      obtain ⟨candidates, hc⟩ := exists_candidates h hr name
      have hl := ((enumerates_liveEntriesFor h hc).eq_iff .nil).mpr hn
      have hi := enumerates_entriesFor h hc
      obtain ⟨first, more, hcons⟩ := hi.exists_cons hs
      rw [resolve_of_ok hc, hl, hi.ncard_eq, hcons]
  | @only owner hr ho =>
      obtain ⟨candidates, hc⟩ := exists_candidates h hr name
      have hl := ((enumerates_liveEntriesFor h hc).eq_iff (.singleton owner)).mpr ho
      have hs : (pool.liveEntriesFor name).Nonempty := ho ▸ Set.singleton_nonempty owner
      obtain ⟨first, more, hcons⟩ :=
        (enumerates_entriesFor h hc).exists_cons (hs.mono liveEntriesFor_subset)
      rw [resolve_of_ok hc, hl, hcons]
  | @first owner hr ho hm =>
      obtain ⟨candidates, hc⟩ := exists_candidates h hr name
      have hl := enumerates_liveEntriesFor h hc
      have hs : (pool.liveEntriesFor name).Nonempty := ⟨owner, ho.1⟩
      obtain ⟨first, more, hcons⟩ :=
        (enumerates_entriesFor h hc).exists_cons (hs.mono liveEntriesFor_subset)
      obtain ⟨others, hothers⟩ := List.head?_eq_some_iff.mp (hl.isLeast_iff.mp ho)
      rw [hl.ncard_eq, hothers] at hm ⊢
      rw [resolve_of_ok hc, hothers, hcons]
      cases others with
      | nil => simp at hm
      | cons second others => rfl

/-- An unreadable name anywhere decides the resolution. Otherwise it ends with the least of the live
entries for the class, with a warning when there are several, or says that there is none. -/
theorem resolve_eq_iff_resolves (h : pool.Addressable) {r : Logged ResolveError PoolIndex} :
    pool.resolve name = r ↔ pool.Resolves name r :=
  ⟨fun hr => hr ▸ resolves_resolve h name, fun hr => hr.resolve_eq h⟩

/-! ## A crowded pool

It has three entries for `game.Die`, of which 11 and 12 are live, and one for the array class. The
reference at 5 stands before its class and behind a constant of two slots, 13 is the same method as
5, 14 is another method, and the name and type of 17 is none. -/

def crowdedPool : Pool := .ofList
  [.utf8 "game/Die", .classRef 1, .long 7, .methodRef 11 8 false, .utf8 "roll", .utf8 "()I",
    .nameAndType 6 7, .utf8 "[Lgame/Die;", .classRef 9, .classRef 1, .classRef 1,
    .methodRef 11 8 true, .methodRef 11 16 false, .utf8 "(I)I", .nameAndType 6 15,
    .methodRef 12 1 false]

def dieClass : ClassName := ⟨"game/Die", by decide⟩

theorem crowdedPool_addressable : crowdedPool.Addressable := by
  unfold Addressable
  decide

theorem crowdedPool_classNamesReadable : crowdedPool.ClassNamesReadable := by
  intro index text h
  have hm := (mem_classEntries_iff crowdedPool_addressable).mpr ⟨text, h⟩
  rw [show crowdedPool.classEntries = [2, 10, 11, 12] by decide] at hm
  simp only [List.mem_cons, List.not_mem_nil, or_false] at hm
  obtain rfl | rfl | rfl | rfl := hm
  · exact ⟨"game.Die", by decide +kernel⟩
  · exact ⟨"game.Die[]", by decide +kernel⟩
  · exact ⟨"game.Die", by decide +kernel⟩
  · exact ⟨"game.Die", by decide +kernel⟩

theorem crowdedPool_live : Enumerates [11, 12] (crowdedPool.liveEntriesFor dieClass) where
  pairwise_lt := by decide
  mem_iff index := by
    simp only [liveEntriesFor, Set.mem_ofPred_eq, names_iff_denotes,
      isLive_iff_mem crowdedPool_addressable,
      show crowdedPool.entries.filterMap (·.2.owner?) = [11, 11, 11, 12] by decide]
    constructor
    · intro hm
      obtain rfl | rfl : index = 11 ∨ index = 12 := by simpa using hm
      · exact ⟨by unfold Denotes; decide +kernel, by simp⟩
      · exact ⟨by unfold Denotes; decide +kernel, by simp⟩
    · rintro ⟨-, hl⟩
      simpa using hl

theorem crowdedPool_resolve : crowdedPool.Addressable ∧
    crowdedPool.resolve dieClass =
      ⟨.ok 11, [⟨.warn, "2 referenced class entries for game.Die, using #11"⟩]⟩ := by
  have hfirst : crowdedPool.Resolves dieClass ⟨.ok 11, [severalLive dieClass 2 11]⟩ := by
    have hn := crowdedPool_live.ncard_eq
    rw [← show (crowdedPool.liveEntriesFor dieClass).ncard = 2 from hn]
    exact .first crowdedPool_classNamesReadable (crowdedPool_live.isLeast_iff.mpr rfl)
      (by simp [hn])
  have htext : severalLive dieClass 2 11 =
      ⟨.warn, "2 referenced class entries for game.Die, using #11"⟩ := by decide +kernel
  exact ⟨crowdedPool_addressable,
    (resolve_eq_iff_resolves crowdedPool_addressable).mpr (htext ▸ hfirst)⟩

end Pool

end ClassSplice
