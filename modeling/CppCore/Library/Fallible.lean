import Mathlib.Data.List.Forall2

/-!
# Fallible computations

Inversion rules for `Except`: a sequence of steps succeeds exactly when each of
its steps does.
-/

namespace Fallible

universe u v

variable {Fault : Type u} {α β : Type v}

instance decidableEq [DecidableEq Fault] [DecidableEq α] : DecidableEq (Except Fault α)
  | .error first, .error second => decidable_of_iff (first = second) (by simp)
  | .ok first, .ok second => decidable_of_iff (first = second) (by simp)
  | .error _, .ok _ => .isFalse nofun
  | .ok _, .error _ => .isFalse nofun

theorem bind_eq_ok_iff {step : Except Fault α} {next : α → Except Fault β} {result : β} :
    step >>= next = .ok result ↔ ∃ value, step = .ok value ∧ next value = .ok result := by
  cases step with
  | error fault => simp [bind, Except.bind]
  | ok value => simp [bind, Except.bind]

@[simp]
theorem ok_bind (value : α) (next : α → Except Fault β) :
    (.ok value >>= next : Except Fault β) = next value := rfl

@[simp]
theorem pure_eq_ok (value : α) : (pure value : Except Fault α) = .ok value := rfl

/-- The computation ends without a fault. -/
def Succeeds {γ : Type*} (step : Except Fault γ) : Prop := ∃ value, step = .ok value

theorem Succeeds.ok {γ : Type*} (value : γ) : Succeeds (.ok value : Except Fault γ) :=
  ⟨value, rfl⟩

theorem Succeeds.bind {step : Except Fault α} {next : α → Except Fault β}
    (first : Succeeds step) (rest : ∀ value, step = .ok value → Succeeds (next value)) :
    Succeeds (step >>= next) := by
  rcases first with ⟨value, returned⟩
  rcases rest value returned with ⟨result, returnedNext⟩
  exact ⟨result, bind_eq_ok_iff.mpr ⟨value, returned, returnedNext⟩⟩

theorem Succeeds.mapM {step : α → Except Fault β} {items : List α}
    (each : ∀ item ∈ items, Succeeds (step item)) : Succeeds (items.mapM step) := by
  induction items with
  | nil => exact .ok []
  | cons item items inductionHypothesis =>
      rw [List.mapM_cons]
      have ⟨first, rest⟩ := List.forall_mem_cons.mp each
      apply Succeeds.bind first
      intro value _
      apply Succeeds.bind (inductionHypothesis rest)
      intro values _
      exact .ok (value :: values)

theorem Succeeds.foldlM {step : β → α → Except Fault β} {items : List α}
    (each : ∀ state, ∀ item ∈ items, Succeeds (step state item)) (initial : β) :
    Succeeds (items.foldlM step initial) := by
  induction items generalizing initial with
  | nil => exact .ok initial
  | cons item items inductionHypothesis =>
      rw [List.foldlM_cons]
      apply Succeeds.bind (each initial item List.mem_cons_self)
      intro state _
      apply inductionHypothesis
      intro state item membership
      exact each state item (List.mem_cons_of_mem _ membership)

/-- The results are those of the items, one by one. -/
theorem forall₂_of_mapM {step : α → Except Fault β} {items : List α} {results : List β}
    (ran : items.mapM step = .ok results) :
    List.Forall₂ (fun item result => step item = .ok result) items results := by
  induction items generalizing results with
  | nil =>
      cases ran
      exact .nil
  | cons item items inductionHypothesis =>
      rw [List.mapM_cons] at ran
      obtain ⟨result, first, ran⟩ := bind_eq_ok_iff.mp ran
      obtain ⟨rest, later, returned⟩ := bind_eq_ok_iff.mp ran
      cases returned
      exact .cons first (inductionHypothesis later)

/-- The results come in the order of the items. -/
theorem mapM_of_perm {step : α → Except Fault β} {items others : List α} {results : List β}
    (permuted : items.Perm others) (ran : items.mapM step = .ok results) :
    ∃ shuffled, others.mapM step = .ok shuffled ∧ results.Perm shuffled := by
  induction permuted generalizing results with
  | nil => exact ⟨results, ran, .refl _⟩
  | cons item _ inductionHypothesis =>
      rw [List.mapM_cons] at ran
      obtain ⟨result, first, ran⟩ := bind_eq_ok_iff.mp ran
      obtain ⟨rest, later, returned⟩ := bind_eq_ok_iff.mp ran
      cases returned
      obtain ⟨shuffled, ranOther, same⟩ := inductionHypothesis later
      refine ⟨result :: shuffled, ?_, same.cons result⟩
      simp only [List.mapM_cons, first, ranOther, ok_bind]
      rfl
  | swap first second rest =>
      simp only [List.mapM_cons] at ran
      obtain ⟨resultSecond, stepSecond, ran⟩ := bind_eq_ok_iff.mp ran
      obtain ⟨results, ran, returned⟩ := bind_eq_ok_iff.mp ran
      obtain ⟨resultFirst, stepFirst, ran⟩ := bind_eq_ok_iff.mp ran
      obtain ⟨later, stepLater, returnedLater⟩ := bind_eq_ok_iff.mp ran
      cases returned
      cases returnedLater
      refine ⟨resultFirst :: resultSecond :: later, ?_, .swap _ _ _⟩
      simp only [List.mapM_cons, stepFirst, stepSecond, stepLater, ok_bind]
      rfl
  | trans _ _ firstHypothesis secondHypothesis =>
      obtain ⟨middle, ranMiddle, sameMiddle⟩ := firstHypothesis ran
      obtain ⟨shuffled, ranOther, same⟩ := secondHypothesis ranMiddle
      exact ⟨shuffled, ranOther, sameMiddle.trans same⟩

/-- Every element of the second list has its partner in the first. -/
theorem exists_of_mem_right {relates : α → β → Prop} {first : List α} {second : List β}
    (related : List.Forall₂ relates first second) {result : β} (membership : result ∈ second) :
    ∃ item ∈ first, relates item result := by
  induction related with
  | nil => cases membership
  | cons here _ inductionHypothesis =>
      rcases List.mem_cons.mp membership with rfl | later
      · exact ⟨_, List.mem_cons_self, here⟩
      · obtain ⟨item, isItem, relatesLater⟩ := inductionHypothesis later
        exact ⟨item, List.mem_cons_of_mem _ isItem, relatesLater⟩

theorem forall₂_and_of_forall_mem {relates : α → β → Prop} {holds : β → Prop} {items : List α}
    {results : List β} (related : List.Forall₂ relates items results)
    (all : ∀ result ∈ results, holds result) :
    List.Forall₂ (fun item result => relates item result ∧ holds result) items results := by
  induction related with
  | nil => exact .nil
  | cons here _ inductionHypothesis =>
      obtain ⟨first, later⟩ := List.forall_mem_cons.mp all
      exact .cons ⟨here, first⟩ (inductionHypothesis later)

/-- Two lists that are related to a third one are related to each other. -/
theorem forall₂_of_common {γ : Type*} {first : γ → α → Prop} {second : γ → β → Prop}
    {relates : α → β → Prop} {sources : List γ} {items : List α} {results : List β}
    (relatedFirst : List.Forall₂ first sources items)
    (relatedSecond : List.Forall₂ second sources results)
    (each : ∀ source item result, first source item → second source result →
      relates item result) : List.Forall₂ relates items results := by
  induction relatedFirst generalizing results with
  | nil =>
      cases relatedSecond
      exact .nil
  | cons here _ inductionHypothesis =>
      obtain ⟨result, rest, hereSecond, laterSecond, rfl⟩ :=
        List.forall₂_cons_left_iff.mp relatedSecond
      exact .cons (each _ _ _ here hereSecond) (inductionHypothesis laterSecond)

theorem forall₂_iff_forall_mem {relates : α → β → Prop} {holds : β → Prop} {items : List α}
    {results : List β}
    (related : List.Forall₂ (fun item result => relates item result ↔ holds result) items results) :
    List.Forall₂ relates items results ↔ ∀ result ∈ results, holds result := by
  induction related with
  | nil => exact iff_of_true .nil nofun
  | cons here _ inductionHypothesis =>
      rw [List.forall₂_cons, List.forall_mem_cons, here, inductionHypothesis]

/-- A second fold that follows every step of the first follows the whole of it. -/
theorem foldlM_follows {State Follower Item : Type v} {relates : State → Follower → Prop}
    {step : State → Item → Except Fault State} {follow : Follower → Item → Except Fault Follower}
    {items : List Item}
    (each : ∀ item ∈ items, ∀ state follower next, relates state follower →
      step state item = .ok next → ∃ followed, follow follower item = .ok followed ∧
        relates next followed)
    {state final : State} {follower : Follower} (related : relates state follower)
    (ran : items.foldlM step state = .ok final) :
    ∃ followed, items.foldlM follow follower = .ok followed ∧ relates final followed := by
  induction items generalizing state follower with
  | nil =>
      cases ran
      exact ⟨follower, rfl, related⟩
  | cons item items inductionHypothesis =>
      obtain ⟨here, later⟩ := List.forall_mem_cons.mp each
      obtain ⟨next, stepped, ran⟩ := bind_eq_ok_iff.mp ran
      obtain ⟨followed, followStepped, relatedNext⟩ := here state follower next related stepped
      obtain ⟨last, followRan, relatedLast⟩ := inductionHypothesis later relatedNext ran
      exact ⟨last, bind_eq_ok_iff.mpr ⟨followed, followStepped, followRan⟩, relatedLast⟩

/-- Both computations succeed with related values, or end in the same fault. -/
inductive Related {γ δ : Type*} (relates : γ → δ → Prop) :
    Except Fault γ → Except Fault δ → Prop where
  | ok {value : γ} {other : δ} : relates value other → Related relates (.ok value) (.ok other)
  | error (fault : Fault) : Related relates (.error fault) (.error fault)

section Related

theorem Related.refl {relates : α → α → Prop} (reflexive : ∀ value, relates value value)
    (step : Except Fault α) : Related relates step step := by
  cases step with
  | error fault => exact .error fault
  | ok value => exact .ok (reflexive value)

variable {γ δ : Type v} {relates : α → γ → Prop}

theorem Related.bind {step : Except Fault α} {other : Except Fault γ} {related : β → δ → Prop}
    {next : α → Except Fault β} {nextOther : γ → Except Fault δ}
    (first : Related relates step other)
    (rest : ∀ value valueOther, relates value valueOther →
      Related related (next value) (nextOther valueOther)) :
    Related related (step >>= next) (other >>= nextOther) := by
  cases first with
  | ok same => exact rest _ _ same
  | error fault => exact .error fault

/-- Related computations can be continued in the same way. -/
theorem Related.bind_eq {step : Except Fault α} {other : Except Fault γ}
    {next : α → Except Fault β} {nextOther : γ → Except Fault β}
    (first : Related relates step other)
    (rest : ∀ value valueOther, relates value valueOther → next value = nextOther valueOther) :
    (step >>= next) = other >>= nextOther := by
  cases first with
  | ok same => exact rest _ _ same
  | error fault => rfl

variable {items : List α} {others : List γ}

theorem foldlM_related {State : Type v} {step : State → α → Except Fault State}
    {stepOther : State → γ → Except Fault State} (related : List.Forall₂ relates items others)
    (each : ∀ state item other, relates item other → step state item = stepOther state other)
    (state : State) : items.foldlM step state = others.foldlM stepOther state := by
  induction related generalizing state with
  | nil => rfl
  | cons here _ inductionHypothesis =>
      rw [List.foldlM_cons, List.foldlM_cons, each state _ _ here]
      simp only [inductionHypothesis]

theorem mapM_related {step : α → Except Fault β} {stepOther : γ → Except Fault β}
    (related : List.Forall₂ relates items others)
    (each : ∀ item other, item ∈ items → relates item other → step item = stepOther other) :
    items.mapM step = others.mapM stepOther := by
  induction related with
  | nil => rfl
  | cons here _ inductionHypothesis =>
      rw [List.mapM_cons, List.mapM_cons, each _ _ List.mem_cons_self here,
        inductionHypothesis fun item other inside =>
          each item other (List.mem_cons_of_mem _ inside)]

theorem find?_related {selects : α → Bool} {selectsOther : γ → Bool}
    (related : List.Forall₂ relates items others)
    (each : ∀ item other, relates item other → selects item = selectsOther other) :
    Option.Rel relates (items.find? selects) (others.find? selectsOther) := by
  induction related with
  | nil => exact .none
  | cons here _ inductionHypothesis =>
      rw [List.find?_cons, List.find?_cons, each _ _ here]
      split
      · exact .some here
      · exact inductionHypothesis

theorem filter_related {selects : α → Bool} {selectsOther : γ → Bool}
    (related : List.Forall₂ relates items others)
    (each : ∀ item other, relates item other → selects item = selectsOther other) :
    List.Forall₂ relates (items.filter selects) (others.filter selectsOther) := by
  induction related with
  | nil => exact .nil
  | cons here _ inductionHypothesis =>
      rw [List.filter_cons, List.filter_cons, each _ _ here]
      split
      · exact .cons here inductionHypothesis
      · exact inductionHypothesis

theorem any_related {selects : α → Bool} {selectsOther : γ → Bool}
    (related : List.Forall₂ relates items others)
    (each : ∀ item other, relates item other → selects item = selectsOther other) :
    items.any selects = others.any selectsOther := by
  induction related with
  | nil => rfl
  | cons here _ inductionHypothesis =>
      rw [List.any_cons, List.any_cons, each _ _ here, inductionHypothesis]

end Related

end Fallible
