import Mathlib.Data.List.Basic

/-!
# Splitting by a scanner

A scanner reads a list with a state, and cuts it at the items that it decides
on from the state they lead to.  An item at which the list is cut belongs to no
segment.
-/

universe u v

structure Scanner (State : Type u) (Item : Type v) where
  next : State → Item → State
  cuts : State → Item → Bool

namespace Scanner

variable {State : Type u} {Item : Type v} (scanner : Scanner State Item)

def run (state : State) (items : List Item) : State := items.foldl scanner.next state

/-- The segments between the cuts, the first one after what was read already. -/
def segments (state : State) (current : List Item) : List Item → List (List Item)
  | [] => [current]
  | item :: items =>
      let state := scanner.next state item
      if scanner.cuts state item then
        current :: segments state [] items
      else
        segments state (current ++ [item]) items

/-- The list is read without a cut. -/
def Uncut (state : State) : List Item → Prop
  | [] => True
  | item :: items =>
      scanner.cuts (scanner.next state item) item = false ∧ Uncut (scanner.next state item) items

variable {scanner} {state : State}

theorem run_append (first second : List Item) :
    scanner.run state (first ++ second) = scanner.run (scanner.run state first) second :=
  List.foldl_append

theorem uncut_append {first second : List Item} :
    scanner.Uncut state (first ++ second) ↔
      scanner.Uncut state first ∧ scanner.Uncut (scanner.run state first) second := by
  induction first generalizing state with
  | nil => exact ⟨fun later => ⟨trivial, later⟩, fun both => both.2⟩
  | cons item first inductionHypothesis =>
      rw [List.cons_append, Uncut, inductionHypothesis, Uncut, and_assoc]
      rfl

/-- A list of items that never cut and never change the state. -/
theorem run_and_uncut_of_neutral {items : List Item}
    (neutral : ∀ item ∈ items, scanner.next state item = state ∧ scanner.cuts state item = false) :
    scanner.run state items = state ∧ scanner.Uncut state items := by
  induction items with
  | nil => exact ⟨rfl, trivial⟩
  | cons item items inductionHypothesis =>
      have ⟨⟨unchanged, uncut⟩, later⟩ := List.forall_mem_cons.mp neutral
      have ⟨ran, uncutLater⟩ := inductionHypothesis later
      have read : scanner.run state (item :: items) = scanner.run (scanner.next state item) items :=
        rfl
      rw [read, Uncut, unchanged]
      exact ⟨ran, uncut, uncutLater⟩

theorem segments_append {first : List Item} (uncut : scanner.Uncut state first)
    (current second : List Item) :
    scanner.segments state current (first ++ second) =
      scanner.segments (scanner.run state first) (current ++ first) second := by
  induction first generalizing state current with
  | nil =>
      rw [List.append_nil]
      rfl
  | cons item first inductionHypothesis =>
      rw [List.cons_append, segments, if_neg (by rw [uncut.1]; decide),
        inductionHypothesis uncut.2, List.append_assoc]
      rfl

theorem segments_of_uncut {items : List Item} (uncut : scanner.Uncut state items)
    (current : List Item) : scanner.segments state current items = [current ++ items] := by
  have ended := segments_append uncut current []
  rw [List.append_nil] at ended
  exact ended

theorem segments_cut {item : Item} (cut : scanner.cuts (scanner.next state item) item = true)
    (current items : List Item) :
    scanner.segments state current (item :: items) =
      current :: scanner.segments (scanner.next state item) [] items := by
  rw [segments, if_pos cut]

theorem segments_ne_nil (current items : List Item) :
    scanner.segments state current items ≠ [] := by
  induction items generalizing state current with
  | nil => exact List.cons_ne_nil _ _
  | cons item items inductionHypothesis =>
      rw [segments]
      split
      · exact List.cons_ne_nil _ _
      · exact inductionHypothesis _

/-- Behind a cut the scanner starts anew from the state that it has reached. -/
theorem segments_append_cut {first : List Item} {item : Item}
    (cut : scanner.cuts (scanner.next (scanner.run state first) item) item = true)
    (current second : List Item) :
    scanner.segments state current (first ++ item :: second) =
      scanner.segments state current first ++
        scanner.segments (scanner.next (scanner.run state first) item) [] second := by
  induction first generalizing state current with
  | nil => exact segments_cut cut current second
  | cons head first inductionHypothesis =>
      rw [List.cons_append, segments, segments]
      by_cases cutHere : scanner.cuts (scanner.next state head) head = true
      · rw [if_pos cutHere, if_pos cutHere, inductionHypothesis cut, List.cons_append]
        rfl
      · rw [if_neg cutHere, if_neg cutHere, inductionHypothesis cut]
        rfl

/-- Between two segments the scanner has cut. -/
theorem exists_cut {current items : List Item} {left right : List (List Item)}
    (parted : scanner.segments state current items = left ++ right) (leftNonempty : left ≠ [])
    (rightNonempty : right ≠ []) :
    ∃ first item second, items = first ++ item :: second ∧
      scanner.cuts (scanner.next (scanner.run state first) item) item = true ∧
      scanner.segments state current first = left ∧
      scanner.segments (scanner.next (scanner.run state first) item) [] second = right := by
  induction items generalizing state current left with
  | nil =>
      rw [segments] at parted
      rcases List.append_eq_singleton_iff.mp parted.symm with ⟨empty, _⟩ | ⟨_, empty⟩
      · exact absurd empty leftNonempty
      · exact absurd empty rightNonempty
  | cons head items inductionHypothesis =>
      rw [segments] at parted
      by_cases cutHere : scanner.cuts (scanner.next state head) head = true
      · rw [if_pos cutHere] at parted
        cases left with
        | nil => exact absurd rfl leftNonempty
        | cons segment left =>
            have ⟨same, later⟩ := List.cons.inj parted
            by_cases leftEmpty : left = []
            · rw [leftEmpty] at later ⊢
              exact ⟨[], head, items, rfl, cutHere, by rw [segments, same], later⟩
            · obtain ⟨first, item, second, rfl, cut, ended, behind⟩ :=
                inductionHypothesis later leftEmpty
              refine ⟨head :: first, item, second, rfl, cut, ?_, behind⟩
              rw [segments, if_pos cutHere, ended, same]
      · rw [if_neg cutHere] at parted
        obtain ⟨first, item, second, rfl, cut, ended, behind⟩ :=
          inductionHypothesis parted leftNonempty
        refine ⟨head :: first, item, second, rfl, cut, ?_, behind⟩
        rw [segments, if_neg cutHere, ended]

/-- What holds of every segment at its cut holds of all but the last. -/
theorem forall_mem_dropLast_segments (invariant : State → List Item → Prop)
    {property : List Item → Prop}
    (cut : ∀ {state current item}, invariant state current →
      scanner.cuts (scanner.next state item) item = true →
      property current ∧ invariant (scanner.next state item) [])
    (step : ∀ {state current item}, invariant state current →
      invariant (scanner.next state item) (current ++ [item]))
    {current items : List Item} (initially : invariant state current) :
    ∀ segment ∈ (scanner.segments state current items).dropLast, property segment := by
  induction items generalizing state current with
  | nil => exact List.forall_mem_nil _
  | cons item items inductionHypothesis =>
      rw [segments]
      by_cases cutHere : scanner.cuts (scanner.next state item) item = true
      · have ⟨right, later⟩ := cut initially cutHere
        rw [if_pos cutHere, List.dropLast_cons_of_ne_nil (segments_ne_nil _ _)]
        exact List.forall_mem_cons.mpr ⟨right, inductionHypothesis later⟩
      · rw [if_neg cutHere]
        exact inductionHypothesis (step initially)

/-- What holds of the state, the current segment and the rest at every step, and makes the current
segment right at every cut and at the end, makes all segments right. -/
theorem forall_mem_segments (invariant : State → List Item → List Item → Prop)
    {property : List Item → Prop}
    (finish : ∀ {state current}, invariant state current [] → property current)
    (cut : ∀ {state current item items}, invariant state current (item :: items) →
      scanner.cuts (scanner.next state item) item = true →
      property current ∧ invariant (scanner.next state item) [] items)
    (step : ∀ {state current item items}, invariant state current (item :: items) →
      scanner.cuts (scanner.next state item) item = false →
      invariant (scanner.next state item) (current ++ [item]) items)
    {current items : List Item} (initially : invariant state current items) :
    ∀ segment ∈ scanner.segments state current items, property segment := by
  induction items generalizing state current with
  | nil => exact List.forall_mem_singleton.mpr (finish initially)
  | cons item items inductionHypothesis =>
      rw [segments]
      by_cases cutHere : scanner.cuts (scanner.next state item) item = true
      · rw [if_pos cutHere]
        have ⟨right, later⟩ := cut initially cutHere
        exact List.forall_mem_cons.mpr ⟨right, inductionHypothesis later⟩
      · rw [if_neg cutHere]
        exact inductionHypothesis (step initially (Bool.eq_false_iff.mpr cutHere))

/-- The segments joined by the separator are the list, when only the separator is cut at. -/
theorem intercalate_segments {separator : Item}
    (separates : ∀ state item, scanner.cuts state item = true → item = separator)
    (current items : List Item) :
    List.intercalate [separator] (scanner.segments state current items) = current ++ items := by
  induction items generalizing state current with
  | nil => rw [segments, List.intercalate_singleton, List.append_nil]
  | cons item items inductionHypothesis =>
      rw [segments]
      by_cases cutHere : scanner.cuts (scanner.next state item) item = true
      · rw [if_pos cutHere, List.intercalate_cons_of_ne_nil (segments_ne_nil _ _),
          inductionHypothesis, separates _ _ cutHere, List.append_assoc]
        rfl
      · rw [if_neg cutHere, inductionHypothesis, List.append_assoc]
        rfl

end Scanner
