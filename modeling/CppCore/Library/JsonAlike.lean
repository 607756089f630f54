import CppCore.Library.Assignment
import CppCore.Library.Fallible
import CppCore.Library.Json

/-!
# Values that read alike

A reader looks fields up by their names, and only some names.  It cannot tell
two values apart that differ in the order of the fields of their objects, and in
the scalars under the other names.
-/

/-- A field that shows: one that is looked up, or that holds further values. -/
def Json.shows (reads : Text → Bool) (field : Text × Json) : Bool :=
  reads field.1 || field.2.isContainer

/-- The same value, for a reader of some names. -/
inductive Json.Alike (reads : Text → Bool) : Json → Json → Prop where
  | scalar {value : Json} : value.isContainer = false → Alike reads value value
  | arr {items others : List Json} : List.Forall₂ (Alike reads) items others →
      Alike reads (.arr items) (.arr others)
  | obj {fields shuffled others : Dict} : (Assignment.keys fields).Nodup →
      (fields.filter (Json.shows reads)).Perm shuffled →
      Assignment.keys shuffled = Assignment.keys (others.filter (Json.shows reads)) →
      List.Forall₂ (Alike reads) (Dict.values shuffled)
        (Dict.values (others.filter (Json.shows reads))) →
      Alike reads (.obj fields) (.obj others)

/-- Objects with the same fields. -/
def Dict.Alike (reads : Text → Bool) (fields others : Dict) : Prop :=
  Json.Alike reads (.obj fields) (.obj others)

section Lists

variable {Key : Type*} {Value : Type*}

/-- A key is looked up in any order of the entries, when no key is there twice. -/
theorem List.lookup_eq_of_perm [BEq Key] [LawfulBEq Key] {entries others : List (Key × Value)}
    (same : entries.Perm others) (distinct : (Assignment.keys entries).Nodup) (key : Key) :
    entries.lookup key = others.lookup key := by
  have distinctOthers : (Assignment.keys others).Nodup := (same.map Prod.fst).nodup_iff.mp distinct
  by_cases known : key ∈ Assignment.keys entries
  · obtain ⟨⟨_, value⟩, membership, rfl⟩ := List.mem_map.mp known
    rw [Assignment.lookup_of_mem distinct membership,
      Assignment.lookup_of_mem distinctOthers (same.mem_iff.mp membership)]
  · have unknown : key ∉ Assignment.keys others := mt (same.map Prod.fst).mem_iff.mpr known
    rw [Assignment.lookup_eq_none_of_notMem known, Assignment.lookup_eq_none_of_notMem unknown]

end Lists

namespace Json

variable {reads : Text → Bool}

/-- The other fields stand in the way of no lookup. -/
theorem lookup_filter_shows (fields : Dict) {key : Text} (isRead : reads key = true) :
    (fields.filter (shows reads)).lookup key = fields.lookup key := by
  induction fields with
  | nil => rfl
  | cons field fields inductionHypothesis =>
      by_cases same : key = field.1
      · have shown : shows reads field = true := by
          rw [shows, ← same, isRead, Bool.true_or]
        rw [List.filter_cons_of_pos shown, List.lookup_cons, List.lookup_cons,
          inductionHypothesis]
      · rw [List.lookup_cons, beq_false_of_ne same]
        by_cases shown : shows reads field = true
        · rw [List.filter_cons_of_pos shown, List.lookup_cons, beq_false_of_ne same]
          exact inductionHypothesis
        · rw [List.filter_cons_of_neg shown]
          exact inductionHypothesis

/-- Nor do they hold objects. -/
theorem flatMap_objects_filter_shows (reads : Text → Bool) (fields : Dict) :
    (Dict.values (fields.filter (shows reads))).flatMap objects =
      fields.values.flatMap objects := by
  induction fields with
  | nil => rfl
  | cons field fields inductionHypothesis =>
      have values : Dict.values (field :: fields) = field.2 :: Dict.values fields := rfl
      rw [values, List.flatMap_cons, ← inductionHypothesis]
      by_cases shown : shows reads field = true
      · rw [List.filter_cons_of_pos shown]
        rfl
      · have scalar : field.2.isContainer = false := by
          rw [shows, Bool.or_eq_true, not_or] at shown
          exact Bool.eq_false_iff.mpr shown.2
        rw [List.filter_cons_of_neg shown, objects_eq_nil scalar, List.nil_append]

theorem lookup_forall₂ {shuffled others : Dict}
    (sameKeys : Assignment.keys shuffled = Assignment.keys others)
    (related : List.Forall₂ (Alike reads) shuffled.values others.values) (key : Text) :
    Option.Rel (Alike reads) (shuffled.lookup key) (others.lookup key) := by
  induction shuffled generalizing others with
  | nil =>
      cases others with
      | nil => exact .none
      | cons field others => cases sameKeys
  | cons field shuffled inductionHypothesis =>
      cases others with
      | nil => cases sameKeys
      | cons other others =>
          obtain ⟨sameKey, sameLater⟩ := List.cons.inj sameKeys
          obtain ⟨here, later⟩ := List.forall₂_cons.mp related
          rw [List.lookup_cons, List.lookup_cons, sameKey]
          cases key == other.1 with
          | true => exact .some here
          | false => exact inductionHypothesis sameLater later

end Json

namespace Dict.Alike

variable {reads : Text → Bool} {fields others : Dict}

theorem lookup (related : Dict.Alike reads fields others) (key : Text)
    (isRead : reads key = true) :
    Option.Rel (Json.Alike reads) (List.lookup key fields) (List.lookup key others) := by
  cases related with
  | scalar notContainer => cases notContainer
  | obj distinct permuted sameKeys sameValues =>
      have distinctShown : (Assignment.keys (fields.filter (Json.shows reads))).Nodup :=
        distinct.sublist (List.filter_sublist.map Prod.fst)
      rw [← Json.lookup_filter_shows fields isRead, ← Json.lookup_filter_shows others isRead,
        List.lookup_eq_of_perm permuted distinctShown]
      exact Json.lookup_forall₂ sameKeys sameValues key

/-- An absent field reads as `null` in both. -/
theorem get (related : Dict.Alike reads fields others) (key : Text) (isRead : reads key = true) :
    Json.Alike reads (fields.get key) (others.get key) := by
  have same := related.lookup key isRead
  revert same
  unfold Dict.get
  generalize List.lookup key fields = found, List.lookup key others = foundOther
  rintro (same | none)
  · exact same
  · exact .scalar rfl

end Dict.Alike

namespace Json

variable {reads : Text → Bool} {value other : Json}

theorem Alike.eq_of_scalar (related : Alike reads value other)
    (scalar : value.isContainer = false) : value = other := by
  cases related with
  | scalar _ => rfl
  | arr _ => cases scalar
  | obj _ _ _ _ => cases scalar

theorem Alike.of_arr {items : List Json} (related : Alike reads (.arr items) other) :
    ∃ others, other = .arr others ∧ List.Forall₂ (Alike reads) items others := by
  cases related with
  | scalar notContainer => cases notContainer
  | arr same => exact ⟨_, rfl, same⟩

theorem Alike.of_obj {fields : Dict} (related : Alike reads (.obj fields) other) :
    ∃ others, other = .obj others ∧ Dict.Alike reads fields others := by
  cases related with
  | scalar notContainer => cases notContainer
  | obj distinct permuted sameKeys sameValues =>
      exact ⟨_, rfl, .obj distinct permuted sameKeys sameValues⟩

theorem Alike.isText (related : Alike reads value other) (text : Text) :
    value.isText text = other.isText text := by
  cases related with
  | scalar _ => rfl
  | arr _ => rfl
  | obj _ _ _ _ => rfl

/-- The objects among the items, in their order. -/
theorem forall₂_filterMap_asDict {items others : List Json}
    (related : List.Forall₂ (Alike reads) items others) :
    List.Forall₂ (Dict.Alike reads) (items.filterMap asDict) (others.filterMap asDict) := by
  induction related with
  | nil => exact .nil
  | @cons item other _ _ here _ inductionHypothesis =>
      cases item with
      | obj fields =>
          obtain ⟨others, rfl, same⟩ := here.of_obj
          exact .cons same inductionHypothesis
      | arr items =>
          obtain ⟨others, rfl, _⟩ := here.of_arr
          exact inductionHypothesis
      | _ =>
          rw [← here.eq_of_scalar rfl]
          exact inductionHypothesis

/-- Lists of values have the same objects, if each of the values has. -/
theorem exists_objects_of_forall₂ {values others : List Json}
    (related : List.Forall₂ (Alike reads) values others)
    (each : ∀ value ∈ values, ∀ other, Alike reads value other → ∃ shuffled,
      value.objects.Perm shuffled ∧ List.Forall₂ (Dict.Alike reads) shuffled other.objects) :
    ∃ shuffled, (values.flatMap objects).Perm shuffled ∧
      List.Forall₂ (Dict.Alike reads) shuffled (others.flatMap objects) := by
  induction related with
  | nil => exact ⟨[], .refl _, .nil⟩
  | cons here _ inductionHypothesis =>
      obtain ⟨first, later⟩ := List.forall_mem_cons.mp each
      obtain ⟨shuffled, permuted, same⟩ := first _ here
      obtain ⟨rest, permutedRest, sameRest⟩ := inductionHypothesis later
      refine ⟨shuffled ++ rest, ?_, ?_⟩
      · exact permuted.append permutedRest
      · exact List.rel_append same sameRest

/-- Values that read alike have objects that read alike, in another order. -/
theorem exists_objects {value other : Json} (related : Alike reads value other) : ∃ shuffled,
    value.objects.Perm shuffled ∧ List.Forall₂ (Dict.Alike reads) shuffled other.objects := by
  cases related with
  | scalar notContainer =>
      rw [objects_eq_nil notContainer]
      exact ⟨[], .refl _, .nil⟩
  | @arr items others same =>
      rw [objects, objects, itemObjects_eq_flatMap, itemObjects_eq_flatMap]
      exact exists_objects_of_forall₂ same fun item membership _ here => exists_objects here
  | @obj fields shuffled others distinct permuted sameKeys sameValues =>
      rw [objects, objects, fieldObjects_eq_flatMap, fieldObjects_eq_flatMap,
        ← flatMap_objects_filter_shows reads fields, ← flatMap_objects_filter_shows reads others]
      obtain ⟨inner, permutedInner, sameInner⟩ :=
        exists_objects_of_forall₂ sameValues fun item membership _ here => exists_objects here
      refine ⟨fields :: inner, ?_, .cons (.obj distinct permuted sameKeys sameValues) sameInner⟩
      have sameObjects := (permuted.map Prod.snd).flatMap_right objects
      exact (sameObjects.trans permutedInner).cons fields
termination_by sizeOf value
decreasing_by
  · have smaller := List.sizeOf_lt_of_mem membership
    simp only [Json.arr.sizeOf_spec]
    omega
  · obtain ⟨field, inShuffled, rfl⟩ := List.mem_map.mp membership
    have inFields := (List.mem_filter.mp (permuted.mem_iff.mpr inShuffled)).1
    have smaller := List.sizeOf_lt_of_mem inFields
    obtain ⟨key, content⟩ := field
    simp only [Json.obj.sizeOf_spec, Prod.mk.sizeOf_spec] at smaller ⊢
    omega

end Json
