import CppCore.Ffi.Construction
import CppCore.Ffi.Output
import CppCore.Library.JsonRoundTrip

/-!
# Reading the metadata back

A consumer of the metadata file finds in it exactly what the reducer has built
from the tree.
-/

namespace CppCore.Ffi

open Dict JsonText

section Readers

universe u

variable {α : Type u}

def asText : Json → Option Text
  | .str text => some text
  | _ => none

def asNullable : Json → Option (Option Text)
  | .null => some none
  | .str text => some (some text)
  | _ => none

def asItems (read : Json → Option α) : Json → Option (List α)
  | .arr items => items.mapM read
  | _ => none

def required (read : Json → Option α) (fields : Dict) (key : Text) : Option α :=
  (fields.lookup key).bind read

def optional (read : Json → Option α) (fields : Dict) (key : Text) : Option (Option α) :=
  match fields.lookup key with
  | none => some none
  | some value => (read value).map some

def asEntry : Json → Option ParamEntry
  | .obj fields => do
      let description ← required asText fields "description"
      let direction ← optional asText fields "direction"
      return { description, direction }
  | _ => none

def asCallback : Json → Option FunctionPointer
  | .obj fields => do
      let returnType ← required asText fields "returnType"
      let parameters ← required (asItems asText) fields "parameters"
      return { returnType, parameters }
  | _ => none

def asParameter : Json → Option Parameter
  | .obj fields => do
      let name ← required asText fields "name"
      let type ← required asNullable fields "type"
      let default ← optional some fields "default"
      let callback ← optional asCallback fields "callback"
      let doc ← optional asEntry fields "doc"
      return { name, type, default, callback, doc }
  | _ => none

def asDoc : Json → Option Doc
  | .obj fields => do
      let brief ← optional asText fields "brief"
      let returns ← optional asText fields "returns"
      let details ← optional (asItems asText) fields "details"
      return { brief, returns, details := details.getD [], params := [] }
  | _ => none

def asFunction : Json → Option Function
  | .obj fields => do
      let name ← required asText fields "name"
      let symbol ← required asText fields "symbol"
      let declaredIn ← required asNullable fields "declaredIn"
      let returnType ← required asText fields "returnType"
      let parameters ← required (asItems asParameter) fields "parameters"
      let inline ← optional some fields "inline"
      let doc ← optional asDoc fields "doc"
      return { name, symbol, declaredIn, returnType, parameters, inline := inline.isSome, doc }
  | _ => none

def asVersion : Json → Option Nat
  | .int (.ofNat version) => some version
  | _ => none

def asMetadata : Json → Option Metadata
  | .obj fields => do
      let schema ← required asText fields "schema"
      let schemaVersion ← required asVersion fields "schemaVersion"
      let publicHeader ← required asText fields "publicHeader"
      let functions ← required (asItems asFunction) fields "functions"
      return { schema, schemaVersion, publicHeader, functions }
  | _ => none

end Readers

section Fields

universe u

variable {α : Type u}

theorem asItems_map {read : Json → Option α} {write : α → Json}
    (inverse : ∀ item, read (write item) = some item) (items : List α) :
    asItems read (.arr (items.map write)) = some items := by
  have each : (items.map write).mapM read = some items := by
    induction items with
    | nil => rfl
    | cons item items inductionHypothesis => simp [inverse, inductionHypothesis]
  exact each

theorem asText_texts (items : List Text) : asItems asText (texts items) = some items :=
  asItems_map (fun text => show asText (.str text) = some text from rfl) items

theorem asNullable_nullable (text : Option Text) : asNullable (nullable text) = some text := by
  cases text <;> rfl

theorem asEntry_fields (entry : ParamEntry) : asEntry (.obj entry.fields) = some entry := by
  obtain ⟨description, direction⟩ := entry
  cases direction <;> rfl

theorem asCallback_fields (callback : FunctionPointer) :
    asCallback (.obj callback.fields) = some callback := by
  have parameters : required (asItems asText) callback.fields "parameters" =
      some callback.parameters := asText_texts callback.parameters
  have returnType : required asText callback.fields "returnType" = some callback.returnType := rfl
  simp only [asCallback, parameters, returnType, Option.bind_eq_bind, Option.bind_some]
  rfl

/-- An optional field is found when it is there. -/
theorem optional_of_lookup {read : Json → Option α} {write : α → Json}
    (inverse : ∀ item, read (write item) = some item) {fields : Dict} {key : Text}
    {value : Option α} (found : fields.lookup key = value.map write) :
    optional read fields key = some value := by
  rw [optional, found]
  cases value with
  | none => rfl
  | some value => simp [inverse]

theorem Parameter.lookup_fields (parameter : Parameter) :
    parameter.fields.lookup "default".toList = parameter.default ∧
      parameter.fields.lookup "callback".toList =
        parameter.callback.map (fun callback => .obj callback.fields) ∧
      parameter.fields.lookup "doc".toList = parameter.doc.map fun entry => .obj entry.fields := by
  obtain ⟨_, _, default, callback, doc⟩ := parameter
  cases default <;> cases callback <;> cases doc <;> exact ⟨rfl, rfl, rfl⟩

theorem asParameter_fields (parameter : Parameter) :
    asParameter (.obj parameter.fields) = some parameter := by
  obtain ⟨defaultFound, callbackFound, docFound⟩ := parameter.lookup_fields
  have name : required asText parameter.fields "name" = some parameter.name := rfl
  have type : required asNullable parameter.fields "type" = some parameter.type :=
    asNullable_nullable parameter.type
  have default : optional some parameter.fields "default" = some parameter.default :=
    optional_of_lookup (fun value => show some (id value) = some value from rfl)
      (defaultFound.trans Option.map_id_apply.symm)
  have callback : optional asCallback parameter.fields "callback" = some parameter.callback :=
    optional_of_lookup asCallback_fields callbackFound
  have doc : optional asEntry parameter.fields "doc" = some parameter.doc :=
    optional_of_lookup asEntry_fields docFound
  simp only [asParameter, name, type, default, callback, doc, Option.bind_eq_bind,
    Option.bind_some]
  rfl

/-- The dictionary of the comment of a function holds what its record holds. -/
structure Describes (doc : Doc) (fields : Dict) : Prop where
  brief : fields.lookup "brief".toList = doc.brief.map .str
  returns : fields.lookup "returns".toList = doc.returns.map .str
  details : fields.lookup "details".toList =
    if doc.details = [] then none else some (texts doc.details)
  distinct : (Assignment.keys fields).Nodup
  known : ∀ key ∈ Assignment.keys fields, key ∈ ["brief".toList, "returns".toList, "details".toList]

theorem asDoc_of_describes {fields : Dict} {doc : Doc} (describes : Describes doc fields) :
    asDoc (.obj fields) = some { doc with params := [] } := by
  have inverse (text : Text) : asText (.str text) = some text := rfl
  have brief := optional_of_lookup inverse describes.brief
  have returns := optional_of_lookup inverse describes.returns
  have details : optional (asItems asText) fields "details" =
      some (if doc.details = [] then none else some doc.details) := by
    apply optional_of_lookup asText_texts
    rw [describes.details]
    split_ifs <;> rfl
  have kept : (if doc.details = [] then none else some doc.details).getD [] = doc.details := by
    split_ifs with empty
    · exact empty.symm
    · rfl
  simp only [asDoc, brief, returns, details, Option.bind_eq_bind, Option.bind_some, kept]
  rfl

end Fields

section Comments

/-- The state of the loop holds what the record of the comment holds. -/
structure Records (doc : Doc) (state : Dict × List Text) : Prop where
  brief : state.1.lookup "brief".toList = doc.brief.map .str
  returns : state.1.lookup "returns".toList = doc.returns.map .str
  details : state.2 = doc.details
  distinct : (Assignment.keys state.1).Nodup
  known : ∀ key ∈ Assignment.keys state.1, key ∈ ["brief".toList, "returns".toList]

theorem records_empty : Records .empty ([], []) where
  brief := rfl
  returns := rfl
  details := rfl
  distinct := List.nodup_nil
  known := nofun

theorem lookup_recordText (key other text : Text) (doc : Dict) :
    (recordText key text doc).lookup other =
      if text ≠ [] ∧ other = key then some (.str text) else doc.lookup other := by
  unfold recordText
  by_cases empty : text = []
  · simp [empty]
  by_cases same : other = key
  · simp [empty, same, Assignment.lookup_assign_self]
  · simp [empty, same, Assignment.lookup_assign_of_ne same]

theorem Records.keys_recordText {doc : Doc} {state : Dict × List Text} (records : Records doc state)
    {key : Text} (isKey : key ∈ ["brief".toList, "returns".toList]) (text : Text) :
    (Assignment.keys (recordText key text state.1)).Nodup ∧
      ∀ other ∈ Assignment.keys (recordText key text state.1),
        other ∈ ["brief".toList, "returns".toList] := by
  unfold recordText
  split_ifs
  · exact ⟨records.distinct, records.known⟩
  · refine ⟨Assignment.nodup_assign records.distinct _ _, ?_⟩
    intro other membership
    rcases Assignment.mem_keys_assign.mp membership with rfl | before
    · exact isKey
    · exact records.known other before

theorem Records.recorded {doc next : Doc} {state : Dict × List Text} (records : Records doc state)
    {key : Text} (isKey : key ∈ ["brief".toList, "returns".toList]) (text : Text)
    (brief : next.brief = if text ≠ [] ∧ "brief".toList = key then some text else doc.brief)
    (returns : next.returns = if text ≠ [] ∧ "returns".toList = key then some text else doc.returns)
    (details : next.details = doc.details) :
    Records next (recordText key text state.1, state.2) := by
  obtain ⟨distinct, known⟩ := records.keys_recordText isKey text
  constructor
  · rw [lookup_recordText, brief, records.brief]
    split_ifs <;> rfl
  · rw [lookup_recordText, returns, records.returns]
    split_ifs <;> rfl
  · rw [details, records.details]
  · exact distinct
  · exact known

/-- One child of the comment. -/
theorem Records.step {doc next : Doc} {state : Dict × List Text} {child : Dict}
    (records : Records doc state) (stepped : addComment doc child = .ok next) :
    ∃ followed, recordComment state child = .ok followed ∧ Records next followed := by
  unfold addComment at stepped
  unfold recordComment
  split_ifs at stepped ⊢ with isBrief isReturns isParam isParagraph
  · obtain ⟨text, read, returned⟩ := Fallible.bind_eq_ok_iff.mp stepped
    cases returned
    refine ⟨_, by rw [read]; rfl, records.recorded (by decide) text ?_ ?_ ?_⟩
    · by_cases empty : text = [] <;> simp [empty]
    · by_cases empty : text = [] <;> simp [empty]
    · split_ifs <;> rfl
  · obtain ⟨text, read, returned⟩ := Fallible.bind_eq_ok_iff.mp stepped
    cases returned
    refine ⟨_, by rw [read]; rfl, records.recorded (by decide) text ?_ ?_ ?_⟩
    · by_cases empty : text = [] <;> simp [empty]
    · by_cases empty : text = [] <;> simp [empty]
    · split_ifs <;> rfl
  · simp only [Fallible.bind_eq_ok_iff] at stepped
    obtain ⟨name, _, text, _, direction, _, returned⟩ := stepped
    refine ⟨state, rfl, ?_⟩
    have same : next.brief = doc.brief ∧ next.returns = doc.returns ∧
        next.details = doc.details := by
      split at returned
      · cases returned
        exact ⟨rfl, rfl, rfl⟩
      · cases returned
        exact ⟨rfl, rfl, rfl⟩
      · split_ifs at returned
        · cases returned
          exact ⟨rfl, rfl, rfl⟩
        · cases returned
          exact ⟨rfl, rfl, rfl⟩
    obtain ⟨sameBrief, sameReturns, sameDetails⟩ := same
    exact ⟨sameBrief ▸ records.brief, sameReturns ▸ records.returns, sameDetails ▸ records.details,
      records.distinct, records.known⟩
  · obtain ⟨paragraph, read, returned⟩ := Fallible.bind_eq_ok_iff.mp stepped
    cases returned
    refine ⟨_, by rw [read]; rfl, ?_⟩
    split_ifs with empty
    · exact records
    · exact { records with details := congrArg (· ++ [paragraph]) records.details }
  · cases stepped
    exact ⟨state, rfl, records⟩

theorem Records.describes {doc : Doc} {state : Dict × List Text} (records : Records doc state) :
    Describes doc (if state.2 = [] then state.1
      else Assignment.assign "details" (texts state.2) state.1) := by
  have fresh : "details".toList ∉ Assignment.keys state.1 := by
    intro present
    exact absurd (records.known _ present) (by decide)
  have among {key : Text} (known : key ∈ ["brief".toList, "returns".toList]) :
      key ∈ ["brief".toList, "returns".toList, "details".toList] :=
    List.mem_append_left ["details".toList] known
  rw [records.details]
  split_ifs with empty
  · constructor
    · exact records.brief
    · exact records.returns
    · rw [if_pos empty]
      exact Assignment.lookup_eq_none_of_notMem fresh
    · exact records.distinct
    · exact fun key present => among (records.known key present)
  · constructor
    · rw [Assignment.lookup_assign_of_ne (by decide)]
      exact records.brief
    · rw [Assignment.lookup_assign_of_ne (by decide)]
      exact records.returns
    · rw [if_neg empty]
      exact Assignment.lookup_assign_self _ _
    · exact Assignment.nodup_assign records.distinct _ _
    · intro key present
      rcases Assignment.mem_keys_assign.mp present with rfl | before
      · decide
      · exact among (records.known key before)

/-- The comment is recorded in the dictionary as in the record. -/
theorem commentFields_of_extractComment {node : Dict} {doc : Doc}
    (extracted : extractComment node = .ok doc) :
    ∃ fields, commentFields node = .ok fields ∧ Describes doc fields := by
  unfold extractComment at extracted
  unfold commentFields
  obtain ⟨children, read, extracted⟩ := Fallible.bind_eq_ok_iff.mp extracted
  rw [read, Fallible.ok_bind]
  cases found : children.find? fun child => child.hasKind "FullComment" with
  | none =>
      rw [found] at extracted
      cases extracted
      exact ⟨[], rfl, records_empty.describes⟩
  | some fullComment =>
      rw [found] at extracted
      obtain ⟨comments, readComments, ran⟩ := Fallible.bind_eq_ok_iff.mp extracted
      have each : ∀ child ∈ comments, ∀ doc state next, Records doc state →
          addComment doc child = .ok next →
            ∃ followed, recordComment state child = .ok followed ∧ Records next followed :=
        fun _ _ _ _ _ held stepped => held.step stepped
      obtain ⟨state, followed, records⟩ := Fallible.foldlM_follows each records_empty ran
      exact ⟨_, by simp only [readComments, Fallible.ok_bind, followed]; rfl, records.describes⟩

variable {doc : Doc} {fields : Dict}

theorem Describes.value (describes : Describes doc fields) {key : Text} {value : Json}
    (membership : (key, value) ∈ fields) :
    (∃ text, value = .str text) ∨ value = texts doc.details := by
  have found := Assignment.lookup_of_mem describes.distinct membership
  have known := describes.known key (List.mem_map_of_mem membership)
  simp only [List.mem_cons, List.not_mem_nil, or_false] at known
  rcases known with rfl | rfl | rfl
  · rw [describes.brief, Option.map_eq_some_iff] at found
    obtain ⟨text, _, same⟩ := found
    exact .inl ⟨text, same.symm⟩
  · rw [describes.returns, Option.map_eq_some_iff] at found
    obtain ⟨text, _, same⟩ := found
    exact .inl ⟨text, same.symm⟩
  · rw [describes.details] at found
    split_ifs at found
    exact .inr (Option.some.inj found).symm

/-- The dictionary is empty exactly if nothing is documented. -/
theorem Describes.isEmpty (describes : Describes doc fields) :
    doc.isEmpty = true ↔ fields = [] := by
  constructor
  · intro empty
    simp only [Doc.isEmpty, Bool.and_eq_true, Option.isNone_iff_eq_none,
      List.isEmpty_iff] at empty
    obtain ⟨⟨noBrief, noReturns⟩, noDetails⟩ := empty
    cases fields with
    | nil => rfl
    | cons entry fields =>
        have found : (entry :: fields).lookup entry.1 = some entry.2 := List.lookup_cons_self
        have known := describes.known entry.1 List.mem_cons_self
        simp only [List.mem_cons, List.not_mem_nil, or_false] at known
        rcases known with same | same | same
        · rw [same, describes.brief, noBrief] at found
          cases found
        · rw [same, describes.returns, noReturns] at found
          cases found
        · rw [same, describes.details, if_pos noDetails] at found
          cases found
  · rintro rfl
    have noBrief := describes.brief
    have noReturns := describes.returns
    have noDetails := describes.details
    rw [List.lookup_nil, eq_comm, Option.map_eq_none_iff] at noBrief noReturns
    have empty : doc.details = [] := by
      by_contra some
      rw [if_neg some] at noDetails
      cases noDetails
    simp [Doc.isEmpty, noBrief, noReturns, empty]

end Comments

section Functions

theorem Function.lookup_fields (function : Function) (doc : Dict) :
    (function.fields doc).lookup "inline".toList =
        (if function.inline then some (.bool true) else none) ∧
      (function.fields doc).lookup "doc".toList = if doc = [] then none else some (.obj doc) := by
  obtain ⟨_, _, _, _, _, inline, _⟩ := function
  cases inline <;> cases doc <;> exact ⟨rfl, rfl⟩

theorem asFunction_fields {function : Function} {comment : Doc} {doc : Dict}
    (describes : Describes comment doc)
    (documented : function.doc =
      if comment.isEmpty then none else some { comment with params := [] }) :
    asFunction (.obj (function.fields doc)) = some function := by
  obtain ⟨inlineFound, docFound⟩ := function.lookup_fields doc
  have name : required asText (function.fields doc) "name" = some function.name := rfl
  have symbol : required asText (function.fields doc) "symbol" = some function.symbol := rfl
  have declaredIn : required asNullable (function.fields doc) "declaredIn" =
      some function.declaredIn := asNullable_nullable function.declaredIn
  have returnType : required asText (function.fields doc) "returnType" =
      some function.returnType := rfl
  have parameters : required (asItems asParameter) (function.fields doc) "parameters" =
      some function.parameters := asItems_map asParameter_fields function.parameters
  have inline : (optional some (function.fields doc) "inline").map Option.isSome =
      some function.inline := by
    rw [optional, inlineFound]
    cases function.inline <;> rfl
  have doc : optional asDoc (function.fields doc) "doc" = some function.doc := by
    rw [optional, docFound, documented]
    by_cases empty : doc = []
    · rw [if_pos empty, if_pos (describes.isEmpty.mpr empty)]
    · rw [if_neg empty, if_neg (mt describes.isEmpty.mp empty)]
      simp [asDoc_of_describes describes]
  obtain ⟨found, readInline, isInline⟩ := Option.map_eq_some_iff.mp inline
  simp only [asFunction, name, symbol, declaredIn, returnType, parameters, readInline, doc,
    Option.bind_eq_bind, Option.bind_some, isInline]
  rfl

/-- The dictionary says what the record says. -/
structure Reads (fields : Dict) (function : Function) : Prop where
  read : asFunction (.obj fields) = some function
  name : itemName fields = function.name

theorem functionFields_of_buildFunction {environment : Environment} {node : Dict}
    {function : Function} (built : buildFunction environment node = .ok function) :
    ∃ fields, functionFields environment node = .ok fields ∧ Reads fields function := by
  obtain ⟨comment, source⟩ := buildFunction_eq_ok built
  obtain ⟨doc, recorded, describes⟩ := commentFields_of_extractComment source.extracted
  refine ⟨function.fields doc, ?_, asFunction_fields describes source.doc, rfl⟩
  simp only [functionFields, built, recorded, Fallible.ok_bind, Fallible.pure_eq_ok]

theorem buildFunction_of_functionFields {environment : Environment} {node fields : Dict}
    (filled : functionFields environment node = .ok fields) :
    ∃ function, buildFunction environment node = .ok function ∧ Reads fields function := by
  obtain ⟨function, built, _⟩ := Fallible.bind_eq_ok_iff.mp filled
  obtain ⟨other, filledOther, reads⟩ := functionFields_of_buildFunction built
  rw [filled] at filledOther
  cases filledOther
  exact ⟨function, built, reads⟩

/-- The dictionaries are filled for the nodes for which the records are built. -/
theorem exportedFields_of_exportedFunctions {environment : Environment} {nodes : List Dict}
    {functions : List Function} (collected : exportedFunctions environment nodes = .ok functions) :
    ∃ items, exportedFields environment nodes = .ok items ∧
      List.Forall₂ Reads items functions := by
  induction nodes generalizing functions with
  | nil =>
      cases collected
      exact ⟨[], rfl, .nil⟩
  | cons node nodes inductionHypothesis =>
      obtain ⟨exported, decided, collected⟩ := Fallible.bind_eq_ok_iff.mp collected
      cases exported with
      | false =>
          obtain ⟨items, filled, related⟩ := inductionHypothesis collected
          exact ⟨items, Fallible.bind_eq_ok_iff.mpr ⟨false, decided, filled⟩, related⟩
      | true =>
          obtain ⟨function, built, collected⟩ := Fallible.bind_eq_ok_iff.mp collected
          obtain ⟨rest, later, returned⟩ := Fallible.bind_eq_ok_iff.mp collected
          cases returned
          obtain ⟨fields, filled, reads⟩ := functionFields_of_buildFunction built
          obtain ⟨items, filledLater, related⟩ := inductionHypothesis later
          refine ⟨fields :: items, ?_, .cons reads related⟩
          simp only [exportedFields, decided, filled, filledLater, Fallible.ok_bind, if_true,
            Fallible.pure_eq_ok]

theorem exportedFunctions_of_exportedFields {environment : Environment} {nodes items : List Dict}
    (collected : exportedFields environment nodes = .ok items) :
    ∃ functions, exportedFunctions environment nodes = .ok functions ∧
      List.Forall₂ Reads items functions := by
  induction nodes generalizing items with
  | nil =>
      cases collected
      exact ⟨[], rfl, .nil⟩
  | cons node nodes inductionHypothesis =>
      obtain ⟨exported, decided, collected⟩ := Fallible.bind_eq_ok_iff.mp collected
      cases exported with
      | false =>
          obtain ⟨functions, built, related⟩ := inductionHypothesis collected
          exact ⟨functions, Fallible.bind_eq_ok_iff.mpr ⟨false, decided, built⟩, related⟩
      | true =>
          obtain ⟨fields, filled, collected⟩ := Fallible.bind_eq_ok_iff.mp collected
          obtain ⟨rest, later, returned⟩ := Fallible.bind_eq_ok_iff.mp collected
          cases returned
          obtain ⟨function, built, reads⟩ := buildFunction_of_functionFields filled
          obtain ⟨functions, builtLater, related⟩ := inductionHypothesis later
          refine ⟨function :: functions, ?_, .cons reads related⟩
          simp only [exportedFunctions, decided, built, builtLater, Fallible.ok_bind, if_true,
            Fallible.pure_eq_ok]

end Functions

end CppCore.Ffi
