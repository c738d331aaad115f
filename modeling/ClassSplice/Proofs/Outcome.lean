import ClassSplice.Log
import Mathlib.Data.List.Forall2

/-!
# Outcomes of chained steps

When a chain of steps succeeds, each of its steps did. The lemmas take chains apart, with and
without a log.
-/

namespace ClassSplice

variable {ε ε' α β : Type}

/-! ## Results -/

@[simp] theorem bind_eq_ok_iff {x : Except ε α} {f : α → Except ε β} {b : β} :
    (x >>= f) = .ok b ↔ ∃ a, x = .ok a ∧ f a = .ok b := by
  cases x with
  | error e => simp [bind, Except.bind]
  | ok a => simp [bind, Except.bind]

@[simp] theorem bind_eq_error_iff {x : Except ε α} {f : α → Except ε β} {e : ε} :
    (x >>= f) = .error e ↔ x = .error e ∨ ∃ a, x = .ok a ∧ f a = .error e := by
  cases x with
  | error e => simp [bind, Except.bind]
  | ok a => simp [bind, Except.bind]

@[simp] theorem mapError_eq_ok_iff {f : ε → ε'} {x : Except ε α} {a : α} :
    x.mapError f = .ok a ↔ x = .ok a := by
  cases x <;> simp [Except.mapError]

@[simp] theorem mapError_eq_error_iff {f : ε → ε'} {x : Except ε α} {e : ε'} :
    x.mapError f = .error e ↔ ∃ cause, x = .error cause ∧ f cause = e := by
  cases x <;> simp [Except.mapError]

@[simp] theorem mapError_id (x : Except ε α) : x.mapError id = x := by
  cases x <;> rfl

theorem mapM_eq_ok_iff {f : α → Except ε β} {as : List α} {bs : List β} :
    as.mapM f = .ok bs ↔ List.Forall₂ (fun a b => f a = .ok b) as bs := by
  induction as generalizing bs with
  | nil => cases bs <;> simp [pure, Except.pure]
  | cons a as ih =>
      simp only [List.mapM_cons, bind_eq_ok_iff, ih, pure, Except.pure, Except.ok.injEq]
      constructor
      · rintro ⟨b, hb, bs, hbs, rfl⟩
        exact .cons hb hbs
      · rintro (_ | ⟨hb, hbs⟩)
        exact ⟨_, hb, _, hbs, rfl⟩

theorem mem_of_mapM_eq_ok {f : α → Except ε β} {as : List α} {bs : List β}
    (h : as.mapM f = .ok bs) {b : β} : b ∈ bs ↔ ∃ a ∈ as, f a = .ok b := by
  rw [mapM_eq_ok_iff] at h
  induction h with
  | nil => simp
  | @cons a b' as bs hb _ ih =>
      simp only [List.mem_cons, ih, or_and_right, exists_or, exists_eq_left, hb, Except.ok.injEq,
        eq_comm (a := b)]

theorem exists_of_mapM_eq_ok {f : α → Except ε β} {as : List α} {bs : List β}
    (h : as.mapM f = .ok bs) {a : α} (ha : a ∈ as) : ∃ b, f a = .ok b := by
  rw [mapM_eq_ok_iff] at h
  induction h with
  | nil => cases ha
  | cons hb _ ih =>
      rcases List.mem_cons.mp ha with rfl | ha
      · exact ⟨_, hb⟩
      · exact ih ha

/-- A chain over a list keeps what each step keeps. -/
theorem map_of_mapM_eq_ok {κ : Type} {f : α → Except ε β} {key : α → κ} {key' : β → κ}
    (hkey : ∀ a b, f a = .ok b → key' b = key a) {as : List α} {bs : List β}
    (h : as.mapM f = .ok bs) : bs.map key' = as.map key := by
  rw [mapM_eq_ok_iff] at h
  induction h with
  | nil => rfl
  | cons hb _ ih => rw [List.map_cons, List.map_cons, hkey _ _ hb, ih]

/-- A chain over a list succeeds when it does at every element. -/
theorem exists_mapM_eq_ok {f : α → Except ε β} {as : List α} (h : ∀ a ∈ as, ∃ b, f a = .ok b) :
    ∃ bs, as.mapM f = .ok bs := by
  induction as with
  | nil => exact ⟨[], rfl⟩
  | cons a as ih =>
      obtain ⟨b, hb⟩ := h a (by simp)
      obtain ⟨bs, hbs⟩ := ih fun a ha => h a (by simp [ha])
      exact ⟨b :: bs, by simp [List.mapM_cons, hb, hbs, pure, Except.pure]⟩

/-- A chain over a list stops at the first element that fails. -/
theorem mapM_eq_error_iff {f : α → Except ε β} {as : List α} {e : ε} :
    as.mapM f = .error e ↔
      ∃ before a after, as = before ++ a :: after ∧ (∀ x ∈ before, ∃ b, f x = .ok b) ∧
        f a = .error e := by
  induction as with
  | nil => simp [pure, Except.pure]
  | cons a as ih =>
      simp only [List.mapM_cons, bind_eq_error_iff, ih, pure, Except.pure, reduceCtorEq, and_false,
        exists_false, or_false]
      constructor
      · rintro (ha | ⟨b, ha, before, x, after, rfl, hb, hx⟩)
        · exact ⟨[], a, as, rfl, by simp, ha⟩
        · exact ⟨a :: before, x, after, rfl, by simpa using ⟨⟨b, ha⟩, hb⟩, hx⟩
      · rintro ⟨before, x, after, heq, hb, hx⟩
        cases before with
        | nil =>
            cases heq
            exact .inl hx
        | cons y before =>
            cases heq
            obtain ⟨⟨b, ha⟩, hb⟩ := List.forall_mem_cons.mp hb
            exact .inr ⟨b, ha, before, x, after, rfl, hb, hx⟩

/-- Over a list in order the failure is that of the least element that fails. -/
theorem mapM_eq_error_iff_of_pairwise {r : α → α → Prop} (hr : ∀ a b, r a b → ¬ r b a)
    {f : α → Except ε β} {as : List α} (hs : as.Pairwise r) {e : ε} :
    as.mapM f = .error e ↔
      ∃ a ∈ as, f a = .error e ∧ ∀ x ∈ as, r x a → ∃ b, f x = .ok b := by
  rw [mapM_eq_error_iff]
  constructor
  · rintro ⟨before, a, after, rfl, hb, ha⟩
    refine ⟨a, by simp, ha, fun x hx hlt => ?_⟩
    have hafter := (List.pairwise_cons.mp (List.pairwise_append.mp hs).2.1).1
    rcases List.mem_append.mp hx with hx | hx
    · exact hb x hx
    · rcases List.mem_cons.mp hx with rfl | hx
      · exact absurd hlt (hr x x hlt)
      · exact absurd (hafter x hx) (hr x a hlt)
  · rintro ⟨a, hm, ha, hb⟩
    obtain ⟨before, after, rfl⟩ := List.append_of_mem hm
    have hbefore := (List.pairwise_append.mp hs).2.2
    exact ⟨before, a, after, rfl,
      fun x hx => hb x (by simp [hx]) (hbefore x hx a (by simp)), ha⟩

/-- A search stops at the first element that gives something, and none before it may fail. -/
theorem findSomeM?_eq_ok_some_iff {f : α → Except ε (Option β)} {as : List α} {b : β} :
    as.findSomeM? f = .ok (some b) ↔
      ∃ before a after, as = before ++ a :: after ∧ (∀ x ∈ before, f x = .ok none) ∧
        f a = .ok (some b) := by
  induction as with
  | nil => simp [pure, Except.pure]
  | cons a as ih =>
      rw [List.findSomeM?_cons, bind_eq_ok_iff]
      constructor
      · rintro ⟨found, ha, h⟩
        cases found with
        | some b' =>
            cases h
            exact ⟨[], a, as, rfl, by simp, ha⟩
        | none =>
            obtain ⟨before, x, after, rfl, hb, hx⟩ := ih.mp h
            exact ⟨a :: before, x, after, rfl, by simpa using ⟨ha, hb⟩, hx⟩
      · rintro ⟨before, x, after, heq, hb, hx⟩
        cases before with
        | nil =>
            cases heq
            exact ⟨_, hx, rfl⟩
        | cons y before =>
            cases heq
            exact ⟨none, hb a (by simp),
              ih.mpr ⟨before, x, after, rfl, fun z hz => hb z (by simp [hz]), hx⟩⟩

/-! ## Logged results -/

namespace Logged

@[simp] theorem outcome_ofExcept (f : ε → ε') (x : Except ε α) :
    (ofExcept f x).outcome = x.mapError f := rfl

@[simp] theorem outcome_fail (e : ε) : (fail e : Logged ε α).outcome = .error e := rfl

@[simp] theorem outcome_warn (text : String) : (warn text : Logged ε Unit).outcome = .ok () := rfl

@[simp] theorem outcome_mapError (f : ε → ε') (x : Logged ε α) :
    (x.mapError f).outcome = x.outcome.mapError f := rfl

theorem bind_of_error {x : Logged ε α} {f : α → Logged ε β} {e : ε} (h : x.outcome = .error e) :
    x >>= f = ⟨.error e, x.log⟩ := by
  obtain ⟨outcome, log⟩ := x
  cases h
  rfl

theorem bind_of_ok {x : Logged ε α} {f : α → Logged ε β} {a : α} (h : x.outcome = .ok a) :
    x >>= f = ⟨(f a).outcome, x.log ++ (f a).log⟩ := by
  obtain ⟨outcome, log⟩ := x
  cases h
  rfl

end Logged

end ClassSplice
