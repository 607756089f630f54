import Mathlib.Data.List.Forall2
import Mathlib.Data.List.Perm.Lattice
import Mathlib.Order.Lattice

/-!
# Stable sorting

A stable sort orders by a key and leaves the elements of each key in their
order.  These two facts determine it.
-/

universe u v

variable {α : Type u} {Key : Type v} [LinearOrder Key]

structure StableSort (key : α → Key) (input output : List α) : Prop where
  perm : output.Perm input
  ordered : output.Pairwise fun first second => key first ≤ key second
  stable : ∀ value, (output.filter fun element => key element = value) =
    input.filter fun element => key element = value

namespace StableSort

variable {key : α → Key}

theorem decide_le_trans (first second third : α) (before : decide (key first ≤ key second) = true)
    (after : decide (key second ≤ key third) = true) : decide (key first ≤ key third) = true :=
  decide_eq_true (le_trans (of_decide_eq_true before) (of_decide_eq_true after))

theorem decide_le_total (first second : α) :
    (decide (key first ≤ key second) || decide (key second ≤ key first)) = true := by
  rw [Bool.or_eq_true, decide_eq_true_iff, decide_eq_true_iff]
  exact le_total (key first) (key second)

theorem mergeSort (key : α → Key) (input : List α) :
    StableSort key input (input.mergeSort fun first second => key first ≤ key second) where
  perm := List.mergeSort_perm input _
  ordered := (List.pairwise_mergeSort decide_le_trans decide_le_total input).imp of_decide_eq_true
  stable value := by
    -- The elements of one key are an ordered sublist, which the sort leaves in place.
    have equalKeys : (input.filter fun element => key element = value).Pairwise
        fun first second => decide (key first ≤ key second) = true := by
      apply List.pairwise_of_forall_mem_list
      intro first firstIn second secondIn
      have firstKey : key first = value := by simpa using (List.mem_filter.mp firstIn).2
      have secondKey : key second = value := by simpa using (List.mem_filter.mp secondIn).2
      exact decide_eq_true (le_of_eq (firstKey.trans secondKey.symm))
    have kept := List.sublist_mergeSort decide_le_trans decide_le_total equalKeys
      List.filter_sublist
    have keptAmongEqual := kept.filter fun element => key element = value
    rw [List.filter_filter] at keptAmongEqual
    simp only [Bool.and_self] at keptAmongEqual
    have permuted := List.mergeSort_perm input fun first second => key first ≤ key second
    have sameLength := (permuted.filter fun element => key element = value).length_eq
    exact (keptAmongEqual.eq_of_length sameLength.symm).symm

/-- Each element of the one list is in the other one, which begins with its least key. -/
theorem key_head_le {head head' : α} {tail tail' : List α}
    (ordered : (head :: tail).Pairwise fun one other => key one ≤ key other)
    (agree : ∀ value, ((head :: tail).filter fun element => key element = value) =
      (head' :: tail').filter fun element => key element = value) : key head ≤ key head' := by
  have inFilter : head' ∈ (head :: tail).filter fun element => key element = key head' := by
    rw [agree]
    simp
  rcases List.mem_cons.mp (List.mem_filter.mp inFilter).1 with rfl | later
  · exact le_refl _
  · exact (List.pairwise_cons.mp ordered).1 head' later

/-- Ordered lists that agree on every key are equal. -/
theorem eq_of_filter_eq {first second : List α}
    (firstOrdered : first.Pairwise fun one other => key one ≤ key other)
    (secondOrdered : second.Pairwise fun one other => key one ≤ key other)
    (agree : ∀ value, (first.filter fun element => key element = value) =
      second.filter fun element => key element = value) : first = second := by
  induction first generalizing second with
  | nil =>
      cases second with
      | nil => rfl
      | cons head tail => simpa using agree (key head)
  | cons head tail inductionHypothesis =>
      cases second with
      | nil => simpa using agree (key head)
      | cons head' tail' =>
          have sameKey : key head = key head' :=
            le_antisymm (key_head_le firstOrdered agree)
              (key_head_le secondOrdered fun value => (agree value).symm)
          have sameHead : head = head' := by
            have heads := agree (key head)
            rw [List.filter_cons_of_pos (by simp),
              List.filter_cons_of_pos (by simp [sameKey])] at heads
            exact (List.cons.inj heads).1
          subst sameHead
          congr 1
          apply inductionHypothesis firstOrdered.of_cons secondOrdered.of_cons
          intro value
          have heads := agree value
          by_cases here : key head = value
          · rw [List.filter_cons_of_pos (by simpa using here),
              List.filter_cons_of_pos (by simpa using here)] at heads
            exact (List.cons.inj heads).2
          · rwa [List.filter_cons_of_neg (by simpa using here),
              List.filter_cons_of_neg (by simpa using here)] at heads

theorem unique {input first second : List α} (sorted : StableSort key input first)
    (sorted' : StableSort key input second) : first = second :=
  eq_of_filter_eq sorted.ordered sorted'.ordered fun value =>
    (sorted.stable value).trans (sorted'.stable value).symm

/-- Elements of distinct keys are sorted in one way, whatever order they come in. -/
theorem eq_of_perm {input input' output output' : List α} (sorted : StableSort key input output)
    (sorted' : StableSort key input' output') (same : input.Perm input')
    (distinct : (input.map key).Nodup) : output = output' := by
  apply eq_of_filter_eq sorted.ordered sorted'.ordered
  intro value
  rw [sorted.stable, sorted'.stable]
  have permuted := same.filter fun element => key element = value
  have few : (input.filter fun element => key element = value).length ≤ 1 := by
    calc (input.filter fun element => key element = value).length
        = (input.map key).count value := by
          rw [← List.countP_eq_length_filter, List.count, List.countP_map]
          exact List.countP_congr fun element _ => by simp
      _ ≤ 1 := List.nodup_iff_count_le_one.mp distinct value
  cases shape : input.filter fun element => key element = value with
  | nil =>
      rw [shape] at permuted
      exact (List.nil_perm.mp permuted).symm
  | cons element rest =>
      rw [shape] at permuted few
      have alone : rest = [] := by
        apply List.length_eq_zero_iff.mp
        rw [List.length_cons] at few
        omega
      subst alone
      exact List.singleton_perm.mp permuted

section Merge

variable {first second : List α}

/-- A merge takes the elements of each key from the first list first. -/
theorem filter_merge (firstOrdered : first.Pairwise fun one other => key one ≤ key other)
    (value : Key) :
    ((first.merge second fun one other => key one ≤ key other).filter fun element =>
        key element = value) =
      (first.filter fun element => key element = value) ++
        second.filter fun element => key element = value := by
  induction first generalizing second with
  | nil => rw [List.nil_merge, List.filter_nil, List.nil_append]
  | cons head tail firstHypothesis =>
      induction second with
      | nil => rw [List.merge_right, List.filter_nil, List.append_nil]
      | cons head' tail' secondHypothesis =>
          rw [List.cons_merge_cons]
          by_cases before : key head ≤ key head'
          · rw [if_pos (decide_eq_true before), List.filter_cons, List.filter_cons,
              firstHypothesis firstOrdered.of_cons]
            split_ifs
            · rw [List.cons_append]
            · rfl
          · rw [if_neg (by simpa using before), List.filter_cons, secondHypothesis,
              List.filter_cons (x := head')]
            split_ifs with isValue
            · -- Every key of the first list is greater than this one.
              have none : ((head :: tail).filter fun element => key element = value) = [] := by
                apply List.filter_eq_nil_iff.mpr
                intro element membership same
                have isKey : key element = key head' :=
                  (of_decide_eq_true same).trans (of_decide_eq_true isValue).symm
                apply before
                rw [← isKey]
                rcases List.mem_cons.mp membership with rfl | later
                · exact le_refl _
                · exact (List.pairwise_cons.mp firstOrdered).1 element later
              rw [none, List.nil_append, List.nil_append]
            · rfl

/-- Merging what is sorted sorts the concatenation. -/
theorem merge {input input' : List α} (sorted : StableSort key input first)
    (sorted' : StableSort key input' second) :
    StableSort key (input ++ input') (first.merge second fun one other => key one ≤ key other) where
  perm := (List.merge_perm_append _).trans (sorted.perm.append sorted'.perm)
  ordered := by
    have whole := List.pairwise_merge decide_le_trans decide_le_total first second
      (sorted.ordered.imp decide_eq_true) (sorted'.ordered.imp decide_eq_true)
    exact whole.imp of_decide_eq_true
  stable value := by
    rw [filter_merge sorted.ordered, sorted.stable, sorted'.stable, List.filter_append]

end Merge

section Related

variable {β : Type u} {relates : α → β → Prop} {first : List α} {second : List β}

theorem exists_pairs (related : List.Forall₂ relates first second) :
    ∃ pairs : List (α × β), pairs.map Prod.fst = first ∧ pairs.map Prod.snd = second ∧
      ∀ pair ∈ pairs, relates pair.1 pair.2 := by
  induction related with
  | nil => exact ⟨[], rfl, rfl, nofun⟩
  | @cons head head' tail tail' relatesHere _ inductionHypothesis =>
      obtain ⟨pairs, rfl, rfl, all⟩ := inductionHypothesis
      exact ⟨(head, head') :: pairs, rfl, rfl, List.forall_mem_cons.mpr ⟨relatesHere, all⟩⟩

/-- Two lists whose elements have the same keys are sorted in step. -/
theorem forall₂_mergeSort {key' : β → Key}
    (sameKey : ∀ element element', relates element element' → key element = key' element')
    (related : List.Forall₂ relates first second) :
    List.Forall₂ relates (first.mergeSort fun one other => key one ≤ key other)
      (second.mergeSort fun one other => key' one ≤ key' other) := by
  obtain ⟨pairs, rfl, rfl, all⟩ := exists_pairs related
  have left : (pairs.mergeSort fun one other => key one.1 ≤ key other.1).map Prod.fst =
      (pairs.map Prod.fst).mergeSort fun one other => key one ≤ key other :=
    List.map_mergeSort fun _ _ _ _ => rfl
  have right : (pairs.mergeSort fun one other => key one.1 ≤ key other.1).map Prod.snd =
      (pairs.map Prod.snd).mergeSort fun one other => key' one ≤ key' other := by
    apply List.map_mergeSort
    intro one oneIn other otherIn
    rw [sameKey _ _ (all one oneIn), sameKey _ _ (all other otherIn)]
  rw [← left, ← right, List.forall₂_map_left_iff, List.forall₂_map_right_iff, List.forall₂_same]
  intro pair membership
  exact all pair (List.mem_mergeSort.mp membership)

end Related

end StableSort
