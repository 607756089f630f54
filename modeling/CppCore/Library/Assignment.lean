import Mathlib.Data.List.Nodup

/-!
# Ordered assignment

The entries of a dictionary in the order in which their keys were first assigned.
-/

namespace Assignment

universe u v

variable {Key : Type u} {Value : Type v} [BEq Key]

/-- A key that is there keeps its place. -/
def assign (key : Key) (value : Value) : List (Key × Value) → List (Key × Value)
  | [] => [(key, value)]
  | (known, content) :: entries =>
      if known == key then (key, value) :: entries
      else (known, content) :: assign key value entries

def assignAll (entries pairs : List (Key × Value)) : List (Key × Value) :=
  pairs.foldl (fun entries pair => assign pair.1 pair.2 entries) entries

def keys (entries : List (Key × Value)) : List Key := entries.map Prod.fst

theorem assignAll_cons (entries : List (Key × Value)) (pair : Key × Value)
    (pairs : List (Key × Value)) : assignAll entries (pair :: pairs) =
      assignAll (assign pair.1 pair.2 entries) pairs := rfl

variable [LawfulBEq Key] {entries : List (Key × Value)}

theorem assign_of_notMem {key : Key} (fresh : key ∉ keys entries) (value : Value) :
    assign key value entries = entries ++ [(key, value)] := by
  induction entries with
  | nil => rfl
  | cons entry entries inductionHypothesis =>
      obtain ⟨different, later⟩ := not_or.mp (mt List.mem_cons.mpr fresh)
      rw [assign, if_neg (by simpa using Ne.symm different), inductionHypothesis later]
      rfl

theorem keys_assign_of_mem {key : Key} (known : key ∈ keys entries) (value : Value) :
    keys (assign key value entries) = keys entries := by
  induction entries with
  | nil => cases known
  | cons entry entries inductionHypothesis =>
      rw [assign]
      split_ifs with same
      · rw [beq_iff_eq] at same
        simp only [keys, List.map_cons, same]
      · have later : key ∈ keys entries := by
          rcases List.mem_cons.mp known with here | later
          · exact absurd (beq_iff_eq.mpr here.symm) same
          · exact later
        exact congrArg (entry.1 :: ·) (inductionHypothesis later)

theorem keys_assign_of_notMem {key : Key} (fresh : key ∉ keys entries) (value : Value) :
    keys (assign key value entries) = keys entries ++ [key] := by
  rw [assign_of_notMem fresh, keys, List.map_append]
  rfl

theorem mem_keys_assign {key other : Key} {value : Value} :
    other ∈ keys (assign key value entries) ↔ other = key ∨ other ∈ keys entries := by
  by_cases known : key ∈ keys entries
  · rw [keys_assign_of_mem known]
    exact ⟨.inr, Or.rec (fun same => same ▸ known) id⟩
  · rw [keys_assign_of_notMem known, List.mem_append, List.mem_singleton, or_comm]

theorem nodup_assign (distinct : (keys entries).Nodup) (key : Key) (value : Value) :
    (keys (assign key value entries)).Nodup := by
  by_cases known : key ∈ keys entries
  · rw [keys_assign_of_mem known]
    exact distinct
  · rw [keys_assign_of_notMem known]
    refine List.nodup_append.mpr ⟨distinct, List.nodup_singleton key, ?_⟩
    rintro other inside _ isKey rfl
    exact known (List.mem_singleton.mp isKey ▸ inside)

theorem lookup_assign_self (key : Key) (value : Value) :
    (assign key value entries).lookup key = some value := by
  induction entries with
  | nil => simp [assign]
  | cons entry entries inductionHypothesis =>
      rw [assign]
      split_ifs with same
      · rw [List.lookup_cons_self]
      · rw [List.lookup_cons, beq_false_of_ne (fun equal => same (beq_iff_eq.mpr equal.symm))]
        exact inductionHypothesis

theorem lookup_assign_of_ne {key other : Key} (different : other ≠ key) (value : Value) :
    (assign key value entries).lookup other = entries.lookup other := by
  induction entries with
  | nil => simp [assign, different]
  | cons entry entries inductionHypothesis =>
      rw [assign]
      split_ifs with same
      · rw [beq_iff_eq] at same
        rw [List.lookup_cons, List.lookup_cons, same, beq_false_of_ne different]
      · rw [List.lookup_cons, List.lookup_cons, inductionHypothesis]

theorem lookup_eq_none_of_notMem {key : Key} (absent : key ∉ keys entries) :
    entries.lookup key = none := by
  rw [List.lookup_eq_none_iff]
  intro entry membership
  apply bne_iff_ne.mpr
  rintro rfl
  exact absent (List.mem_map_of_mem membership)

theorem lookup_of_mem (distinct : (keys entries).Nodup) {key : Key} {value : Value}
    (membership : (key, value) ∈ entries) : entries.lookup key = some value := by
  induction entries with
  | nil => cases membership
  | cons entry entries inductionHypothesis =>
      obtain ⟨fresh, later⟩ := List.nodup_cons.mp distinct
      rcases List.mem_cons.mp membership with rfl | inside
      · exact List.lookup_cons_self
      · have different : key ≠ entry.1 := by
          rintro rfl
          exact fresh (List.mem_map.mpr ⟨_, inside, rfl⟩)
        rw [List.lookup_cons, beq_false_of_ne different]
        exact inductionHypothesis later inside

theorem nodup_assignAll (distinct : (keys entries).Nodup) (pairs : List (Key × Value)) :
    (keys (assignAll entries pairs)).Nodup := by
  induction pairs generalizing entries with
  | nil => exact distinct
  | cons pair pairs inductionHypothesis => exact inductionHypothesis (nodup_assign distinct _ _)

/-- Entries with distinct keys are taken over as they are. -/
theorem assignAll_of_nodup {pairs : List (Key × Value)}
    (distinct : (keys (entries ++ pairs)).Nodup) : assignAll entries pairs = entries ++ pairs := by
  induction pairs generalizing entries with
  | nil => rw [List.append_nil]; rfl
  | cons pair pairs inductionHypothesis =>
      have fresh : pair.1 ∉ keys entries := by
        rw [keys, List.map_append] at distinct
        intro known
        exact (List.nodup_append.mp distinct).2.2 _ known _ List.mem_cons_self rfl
      rw [assignAll_cons, assign_of_notMem fresh, inductionHypothesis]
      · exact List.append_assoc _ _ _
      · rw [List.append_assoc]
        exact distinct

/-- The last of the values assigned to a key counts. -/
theorem lookup_assignAll (pairs : List (Key × Value)) (key : Key) :
    (assignAll entries pairs).lookup key = (pairs.reverse.lookup key).or (entries.lookup key) := by
  induction pairs generalizing entries with
  | nil => rfl
  | cons pair pairs inductionHypothesis =>
      rw [assignAll_cons, inductionHypothesis, List.reverse_cons, List.lookup_append,
        Option.or_assoc]
      congr 1
      by_cases same : key = pair.1
      · rw [same, lookup_assign_self, List.lookup_cons_self]
        rfl
      · rw [lookup_assign_of_ne same, List.lookup_cons, beq_false_of_ne same]
        rfl

end Assignment
