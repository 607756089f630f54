import Mathlib.Algebra.GroupWithZero.Nat
import CppCore.Library.Text

/-!
# JSON values

Values as a JSON reader builds them: an object keeps its fields in the order of
the document, and a float keeps the digits it is printed with.
-/

inductive Json where
  | null
  | bool (value : Bool)
  | int (value : Int)
  | float (digits : Text)
  | str (value : Text)
  | arr (items : List Json)
  | obj (fields : List (Text × Json))

/-- The fields of an object. -/
abbrev Dict := List (Text × Json)

def Dict.values (dict : Dict) : List Json := dict.map Prod.snd

/-- `dict.get(key)`: an absent field reads as `None`. -/
def Dict.get (dict : Dict) (key : Text) : Json := (dict.lookup key).getD .null

namespace Json

def isContainer : Json → Bool
  | .arr _ | .obj _ => true
  | _ => false

/-- The truth value of a JSON value in Python. -/
def truthy : Json → Bool
  | .null => false
  | .bool value => value
  | .int value => value ≠ 0
  | .float digits => digits ≠ "0.0" ∧ digits ≠ "-0.0"
  | .str value => value ≠ []
  | .arr items => !items.isEmpty
  | .obj fields => !fields.isEmpty

def isText (value : Json) (expected : Text) : Bool :=
  match value with
  | .str text => text = expected
  | _ => false

def asDict : Json → Option Dict
  | .obj fields => some fields
  | _ => none

mutual

/-- The objects of a value in the pre-order of the document. -/
def objects : Json → List Dict
  | .arr items => itemObjects items
  | .obj fields => fields :: fieldObjects fields
  | _ => []

def itemObjects : List Json → List Dict
  | [] => []
  | item :: items => item.objects ++ itemObjects items

def fieldObjects : List (Text × Json) → List Dict
  | [] => []
  | field :: fields => field.2.objects ++ fieldObjects fields

end

mutual

/-- The number of values in a value. -/
def weight : Json → Nat
  | .arr items => itemsWeight items + 1
  | .obj fields => fieldsWeight fields + 1
  | _ => 1

def itemsWeight : List Json → Nat
  | [] => 0
  | item :: items => item.weight + itemsWeight items

def fieldsWeight : List (Text × Json) → Nat
  | [] => 0
  | field :: fields => field.2.weight + fieldsWeight fields

end

theorem itemObjects_eq_flatMap (items : List Json) :
    itemObjects items = items.flatMap objects := by
  induction items with
  | nil => rfl
  | cons item items inductionHypothesis =>
      rw [itemObjects, inductionHypothesis, List.flatMap_cons]

theorem fieldObjects_eq_flatMap (fields : Dict) :
    fieldObjects fields = fields.values.flatMap objects := by
  induction fields with
  | nil => rfl
  | cons field fields inductionHypothesis =>
      rw [fieldObjects, inductionHypothesis, Dict.values, Dict.values, List.map_cons,
        List.flatMap_cons]

theorem itemsWeight_eq_sum (items : List Json) : itemsWeight items = (items.map weight).sum := by
  induction items with
  | nil => rfl
  | cons item items inductionHypothesis =>
      rw [itemsWeight, inductionHypothesis, List.map_cons, List.sum_cons]

theorem fieldsWeight_eq_sum (fields : Dict) :
    fieldsWeight fields = (fields.values.map weight).sum := by
  induction fields with
  | nil => rfl
  | cons field fields inductionHypothesis =>
      rw [fieldsWeight, inductionHypothesis, Dict.values, Dict.values, List.map_cons,
        List.map_cons, List.sum_cons]

theorem weight_pos (value : Json) : 0 < value.weight := by
  cases value <;> simp [weight]

theorem objects_eq_nil {value : Json} (scalar : value.isContainer = false) :
    value.objects = [] := by
  cases value with
  | arr items => cases scalar
  | obj fields => cases scalar
  | _ => rfl

theorem mem_objects_of_item {items : List Json} {item : Json} (membership : item ∈ items)
    {object : Dict} (inside : object ∈ item.objects) : object ∈ (arr items).objects := by
  rw [objects, itemObjects_eq_flatMap]
  exact List.mem_flatMap.mpr ⟨item, membership, inside⟩

theorem mem_objects_of_field {fields : Dict} {key : Text} {value : Json}
    (membership : (key, value) ∈ fields) {object : Dict} (inside : object ∈ value.objects) :
    object ∈ (obj fields).objects := by
  rw [objects, fieldObjects_eq_flatMap]
  apply List.mem_cons_of_mem
  exact List.mem_flatMap.mpr ⟨value, List.mem_map_of_mem membership, inside⟩

mutual

/-- An object of an object of a value is an object of the value. -/
theorem objects_trans (value : Json) {outer inner : Dict} (outerIn : outer ∈ value.objects)
    (innerIn : inner ∈ (obj outer).objects) : inner ∈ value.objects := by
  cases value with
  | arr items => exact itemObjects_trans items outerIn innerIn
  | obj fields =>
      rcases List.mem_cons.mp outerIn with rfl | deeper
      · exact innerIn
      · exact List.mem_cons_of_mem _ (fieldObjects_trans fields deeper innerIn)
  | _ => cases outerIn

theorem itemObjects_trans (items : List Json) {outer inner : Dict}
    (outerIn : outer ∈ itemObjects items) (innerIn : inner ∈ (obj outer).objects) :
    inner ∈ itemObjects items := by
  cases items with
  | nil => cases outerIn
  | cons item items =>
      rcases List.mem_append.mp outerIn with here | later
      · exact List.mem_append_left _ (objects_trans item here innerIn)
      · exact List.mem_append_right _ (itemObjects_trans items later innerIn)

theorem fieldObjects_trans (fields : Dict) {outer inner : Dict}
    (outerIn : outer ∈ fieldObjects fields) (innerIn : inner ∈ (obj outer).objects) :
    inner ∈ fieldObjects fields := by
  cases fields with
  | nil => cases outerIn
  | cons field fields =>
      rcases List.mem_append.mp outerIn with here | later
      · exact List.mem_append_left _ (objects_trans field.2 here innerIn)
      · exact List.mem_append_right _ (fieldObjects_trans fields later innerIn)

end

end Json
