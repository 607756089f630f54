import Mathlib.Data.List.Basic

/-!
# Delimited lists

A list as the part in front of the first delimiter and the parts behind each of
them.
-/

universe u

variable {α : Type u}

/-- Every part behind a delimiter. -/
def delimit (delimiter : α) (parts : List (List α)) : List α :=
  parts.flatMap fun part => delimiter :: part

variable {delimiter : α}

@[simp]
theorem delimit_nil : delimit delimiter [] = [] := rfl

@[simp]
theorem delimit_cons (part : List α) (parts : List (List α)) :
    delimit delimiter (part :: parts) = delimiter :: (part ++ delimit delimiter parts) := rfl

variable [DecidableEq α]

theorem splitOn_delimited {first : List α} {behind : List (List α)}
    (absentFirst : delimiter ∉ first) (absent : ∀ part ∈ behind, delimiter ∉ part) :
    (first ++ delimit delimiter behind).splitOn delimiter = first :: behind := by
  induction behind generalizing first with
  | nil =>
      rw [delimit_nil, List.append_nil]
      exact List.splitOn_eq_singleton absentFirst
  | cons part behind inductionHypothesis =>
      have ⟨absentHere, absentLater⟩ := List.forall_mem_cons.mp absent
      rw [delimit_cons, List.splitOn_append_cons_self_of_not_mem absentFirst,
        inductionHypothesis absentHere absentLater]

/-- Every list is delimited in a way. -/
theorem exists_delimited (delimiter : α) (items : List α) : ∃ first behind,
    items = first ++ delimit delimiter behind ∧ delimiter ∉ first ∧
      ∀ part ∈ behind, delimiter ∉ part := by
  induction items with
  | nil => exact ⟨[], [], rfl, List.not_mem_nil, List.forall_mem_nil _⟩
  | cons item items inductionHypothesis =>
      obtain ⟨first, behind, rfl, absentFirst, absent⟩ := inductionHypothesis
      by_cases isDelimiter : item = delimiter
      · subst isDelimiter
        exact ⟨[], first :: behind, rfl, List.not_mem_nil,
          List.forall_mem_cons.mpr ⟨absentFirst, absent⟩⟩
      · refine ⟨item :: first, behind, rfl, ?_, absent⟩
        rintro (_ | ⟨_, membership⟩)
        · exact isDelimiter rfl
        · exact absentFirst membership

theorem delimited_injective {first other : List α} {behind others : List (List α)}
    (absentFirst : delimiter ∉ first) (absent : ∀ part ∈ behind, delimiter ∉ part)
    (absentOther : delimiter ∉ other) (absentOthers : ∀ part ∈ others, delimiter ∉ part)
    (same : first ++ delimit delimiter behind = other ++ delimit delimiter others) :
    first = other ∧ behind = others := by
  have split := splitOn_delimited absentFirst absent
  rw [same, splitOn_delimited absentOther absentOthers] at split
  cases split
  exact ⟨rfl, rfl⟩
