import CppCore.Ffi.Documentation
import CppCore.Ffi.Recovery

/-!
# The metadata file is the metadata

A tree that is read from a file holds only values that can be written, and so
does the metadata.  Its file is ASCII, and reading it gives the metadata again.
-/

namespace CppCore.Ffi

open Dict JsonText

section Stored

variable {format : FloatFormat}

theorem itemsStorable_iff {items : List Json} :
    ItemsStorable format items ↔ ∀ item ∈ items, Storable format item := by
  induction items with
  | nil => simp [ItemsStorable]
  | cons item items inductionHypothesis =>
      rw [ItemsStorable, inductionHypothesis, List.forall_mem_cons]

theorem storable_of_mem {fields : Dict} (storable : Storable format (.obj fields)) {key : Text}
    {value : Json} (membership : (key, value) ∈ fields) : Storable format value :=
  fieldsStorable_iff.mp storable.2 (key, value) membership

theorem storable_get {node : Dict} (storable : Storable format (.obj node)) (key : Text) :
    Storable format (node.get key) := by
  unfold Dict.get
  cases found : node.lookup key with
  | none => trivial
  | some value => exact storable_of_mem storable (mem_of_lookup found)

theorem storable_getList {node : Dict} (storable : Storable format (.obj node)) {key : Text}
    {items : List Json} (read : node.getList key = .ok items) :
    ∀ item ∈ items, Storable format item := by
  rcases getList_eq_ok read with rfl | membership
  · exact nofun
  · exact itemsStorable_iff.mp (storable_of_mem storable membership)

theorem storable_childObjects {node : Dict} (storable : Storable format (.obj node))
    {children : List Dict} (read : node.childObjects = .ok children) :
    ∀ child ∈ children, Storable format (.obj child) := by
  obtain ⟨items, readItems, returned⟩ := Fallible.bind_eq_ok_iff.mp read
  cases returned
  intro child membership
  obtain ⟨item, isItem, shape⟩ := List.mem_filterMap.mp membership
  have storableItem := storable_getList storable readItems item isItem
  cases item with
  | obj fields =>
      cases shape
      exact storableItem
  | _ => cases shape

mutual

/-- The objects of a storable value are storable. -/
theorem storable_objects {value : Json} (storable : Storable format value) :
    ∀ object ∈ value.objects, Storable format (.obj object) := by
  cases value with
  | arr items => exact storable_itemObjects storable
  | obj fields =>
      exact List.forall_mem_cons.mpr ⟨storable, storable_fieldObjects storable.2⟩
  | _ => exact nofun

theorem storable_itemObjects {items : List Json} (storable : ItemsStorable format items) :
    ∀ object ∈ Json.itemObjects items, Storable format (.obj object) := by
  cases items with
  | nil => exact nofun
  | cons item items =>
      exact List.forall_mem_append.mpr
        ⟨storable_objects storable.1, storable_itemObjects storable.2⟩

theorem storable_fieldObjects {fields : Dict} (storable : FieldsStorable format fields) :
    ∀ object ∈ Json.fieldObjects fields, Storable format (.obj object) := by
  cases fields with
  | nil => exact nofun
  | cons field fields =>
      exact List.forall_mem_append.mpr
        ⟨storable_objects storable.1, storable_fieldObjects storable.2⟩

end

theorem storable_applyOperator {node : Dict} {operand value : Json}
    (applied : applyOperator node operand = .ok value) : Storable format value := by
  unfold applyOperator at applied
  split at applied
  · cases applied
    trivial
  · simp only [Fallible.bind_eq_ok_iff] at applied
    obtain ⟨_, _, _, _, returned⟩ := applied
    cases returned
    trivial

mutual

theorem storable_extractDefaultExpr {node : Dict} (storable : Storable format (.obj node))
    {value : Json} (extracted : extractDefaultExpr node = .ok value) : Storable format value := by
  rw [extractDefaultExpr] at extracted
  split_ifs at extracted with wrapper literal null reference operator
  · split at extracted
    · cases extracted
    · rename_i children read
      exact storable_defaultOfFirst (storable_getList storable read) extracted
  · cases extracted
    exact storable_get storable "value"
  · cases extracted
    trivial
  · simp only [Fallible.bind_eq_ok_iff] at extracted
    obtain ⟨referenced, _, name, _, returned⟩ := extracted
    split at returned
    · cases returned
      exact storable_get storable "name"
    · cases returned
      exact storable_get storable "name"
    · cases returned
      trivial
  · split at extracted
    · cases extracted
    · obtain ⟨operand, _, applied⟩ := Fallible.bind_eq_ok_iff.mp extracted
      exact storable_applyOperator applied
  · cases extracted
    trivial
termination_by (sizeOf node, 1)
decreasing_by exact lex_of_getList ‹_›

theorem storable_defaultOfFirst {children : List Json}
    (storable : ∀ child ∈ children, Storable format child) {value : Json}
    (extracted : defaultOfFirst children = .ok value) : Storable format value := by
  cases children with
  | nil =>
      rw [defaultOfFirst] at extracted
      cases extracted
      trivial
  | cons child children =>
      obtain ⟨first, later⟩ := List.forall_mem_cons.mp storable
      cases child with
      | obj child =>
          rw [defaultOfFirst] at extracted
          exact storable_extractDefaultExpr first extracted
      | _ =>
          rw [defaultOfFirst] at extracted
          · exact storable_defaultOfFirst later extracted
          · rintro _ ⟨⟩
termination_by (sizeOf children, 0)

end

theorem fieldsStorable_append {first second : Dict} :
    FieldsStorable format (first ++ second) ↔
      FieldsStorable format first ∧ FieldsStorable format second := by
  simp only [fieldsStorable_iff, List.forall_mem_append]

theorem fieldsStorable_optional {key : Text} {value : Option Json}
    (storable : ∀ present ∈ value, Storable format present) :
    FieldsStorable format (optionalField key value) := by
  cases value with
  | none => trivial
  | some value => exact ⟨storable value rfl, trivial⟩

theorem storable_texts (items : List Text) : Storable format (texts items) := by
  apply itemsStorable_iff.mpr
  intro item membership
  obtain ⟨text, _, rfl⟩ := List.mem_map.mp membership
  trivial

theorem storable_nullable (text : Option Text) : Storable format (nullable text) := by
  cases text <;> trivial

theorem storable_entry (entry : ParamEntry) : Storable format (.obj entry.fields) := by
  obtain ⟨description, direction⟩ := entry
  cases direction with
  | none => exact ⟨List.nodup_singleton _, trivial, trivial⟩
  | some direction => exact ⟨by simp [ParamEntry.fields, optionalField, Assignment.keys],
      trivial, trivial, trivial⟩

theorem storable_callback (callback : FunctionPointer) : Storable format (.obj callback.fields) :=
  ⟨by simp [FunctionPointer.fields, Assignment.keys], trivial, storable_texts _, trivial⟩

theorem Parameter.fields_distinct (parameter : Parameter) :
    (Assignment.keys parameter.fields).Nodup := by
  obtain ⟨_, _, default, callback, doc⟩ := parameter
  cases default <;> cases callback <;> cases doc <;>
    simp [Parameter.fields, optionalField, Assignment.keys]

theorem Function.fields_distinct (function : Function) (doc : Dict) :
    (Assignment.keys (function.fields doc)).Nodup := by
  obtain ⟨_, _, _, _, _, inline, _⟩ := function
  cases inline <;> cases doc <;> simp [Function.fields, optionalField, Assignment.keys]

/-- A parameter can be written as soon as its default can be. -/
theorem storable_parameter {parameter : Parameter}
    (default : ∀ value ∈ parameter.default, Storable format value) :
    Storable format (.obj parameter.fields) := by
  refine ⟨parameter.fields_distinct, trivial, storable_nullable _, fieldsStorable_append.mpr
    ⟨fieldsStorable_optional default, fieldsStorable_append.mpr
      ⟨fieldsStorable_optional ?_, fieldsStorable_optional ?_⟩⟩⟩
  · intro value isCallback
    obtain ⟨callback, _, rfl⟩ := Option.map_eq_some_iff.mp isCallback
    exact storable_callback callback
  · intro value isEntry
    obtain ⟨entry, _, rfl⟩ := Option.map_eq_some_iff.mp isEntry
    exact storable_entry entry

theorem storable_doc {comment : Doc} {doc : Dict} (describes : Describes comment doc) :
    Storable format (.obj doc) := by
  refine ⟨describes.distinct, fieldsStorable_iff.mpr ?_⟩
  intro field membership
  rcases describes.value membership with ⟨text, same⟩ | same
  · rw [same]
    trivial
  · rw [same]
    exact storable_texts _

theorem storable_function {function : Function} {comment : Doc} {doc : Dict}
    (describes : Describes comment doc)
    (parameters : ∀ parameter ∈ function.parameters, Storable format (.obj parameter.fields)) :
    Storable format (.obj (function.fields doc)) := by
  refine ⟨function.fields_distinct doc, trivial, trivial, storable_nullable _, trivial,
    itemsStorable_iff.mpr ?_, fieldsStorable_append.mpr
      ⟨fieldsStorable_optional ?_, fieldsStorable_optional ?_⟩⟩
  · intro item membership
    obtain ⟨parameter, isParameter, rfl⟩ := List.mem_map.mp membership
    exact parameters parameter isParameter
  · cases function.inline with
    | false => exact nofun
    | true =>
        rintro _ ⟨⟩
        trivial
  · intro value documented
    by_cases empty : doc = []
    · rw [if_pos empty] at documented
      cases documented
    · rw [if_neg empty] at documented
      cases documented
      exact storable_doc describes

theorem storable_default {value present : Json} (storable : Storable format value)
    (isPresent : present ∈ presentDefault value) : Storable format present := by
  cases value with
  | null => cases isPresent
  | _ =>
      cases isPresent
      exact storable

/-- What is built from a storable node can be written. -/
theorem storable_functionFields {environment : Environment} {node fields : Dict}
    (storable : Storable format (.obj node))
    (filled : functionFields environment node = .ok fields) : Storable format (.obj fields) := by
  obtain ⟨function, built, filled⟩ := Fallible.bind_eq_ok_iff.mp filled
  obtain ⟨doc, recorded, returned⟩ := Fallible.bind_eq_ok_iff.mp filled
  cases returned
  obtain ⟨comment, source⟩ := buildFunction_eq_ok built
  obtain ⟨doc', recorded', describes⟩ := commentFields_of_extractComment source.extracted
  rw [recorded] at recorded'
  cases recorded'
  obtain ⟨children, readChildren, parameters⟩ := source.parameters
  apply storable_function describes
  intro parameter membership
  obtain ⟨child, isChild, builtParameter⟩ :=
    Fallible.exists_of_mem_right (Fallible.forall₂_of_mapM parameters) membership
  have storableChild :=
    storable_childObjects storable readChildren child (List.mem_filter.mp isChild).1
  obtain ⟨inner, value, readInner, extracted, default⟩ :=
    (buildParameter_eq_ok builtParameter).default
  have storableValue := storable_defaultOfFirst (storable_getList storableChild readInner) extracted
  apply storable_parameter
  rw [default]
  exact fun present isPresent => storable_default storableValue isPresent

theorem storable_exportedFields {environment : Environment} {nodes items : List Dict}
    (storable : ∀ node ∈ nodes, Storable format (.obj node))
    (collected : exportedFields environment nodes = .ok items) :
    ∀ item ∈ items, Storable format (.obj item) := by
  induction nodes generalizing items with
  | nil =>
      cases collected
      exact nofun
  | cons node nodes inductionHypothesis =>
      obtain ⟨here, later⟩ := List.forall_mem_cons.mp storable
      obtain ⟨exported, _, collected⟩ := Fallible.bind_eq_ok_iff.mp collected
      cases exported with
      | false => exact inductionHypothesis later collected
      | true =>
          obtain ⟨fields, filled, collected⟩ := Fallible.bind_eq_ok_iff.mp collected
          obtain ⟨rest, collectedLater, returned⟩ := Fallible.bind_eq_ok_iff.mp collected
          cases returned
          exact List.forall_mem_cons.mpr
            ⟨storable_functionFields here filled, inductionHypothesis later collectedLater⟩

theorem storable_metadataFields {environment : Environment} {publicHeader : Text} {ast : Json}
    {fields : Dict} (storable : Storable format ast)
    (filled : metadataFields environment publicHeader ast = .ok fields) :
    Storable format (.obj fields) := by
  obtain ⟨items, collected, returned⟩ := Fallible.bind_eq_ok_iff.mp filled
  cases returned
  rw [walk_eq_objects] at collected
  have storableItems := storable_exportedFields (storable_objects storable) collected
  refine ⟨by simp [metadataItems, Assignment.keys], trivial, trivial, trivial,
    itemsStorable_iff.mpr ?_, trivial⟩
  intro value membership
  obtain ⟨item, isItem, rfl⟩ := List.mem_map.mp membership
  exact storableItems item (List.mem_mergeSort.mp isItem)

end Stored

section File

theorem asItems_of_reads {items : List Dict} {functions : List Function}
    (related : List.Forall₂ Reads items functions) :
    asItems asFunction (.arr (items.map .obj)) = some functions := by
  have each : (items.map Json.obj).mapM asFunction = some functions := by
    induction related with
    | nil => rfl
    | cons reads _ inductionHypothesis => simp [reads.read, inductionHypothesis]
  exact each

theorem asMetadata_items {publicHeader : Text} {items : List Dict} {functions : List Function}
    (related : List.Forall₂ Reads items functions) :
    asMetadata (.obj (metadataItems publicHeader
        (items.mergeSort fun first second => itemName first ≤ itemName second))) =
      some ⟨"cpp_core_ffi_api", 1, publicHeader, sortByName functions⟩ := by
  have sorted := asItems_of_reads
    (StableSort.forall₂_mergeSort (fun _ _ (reads : Reads _ _) => reads.name) related)
  have functionsFound : required (asItems asFunction) (metadataItems publicHeader
      (items.mergeSort fun first second => itemName first ≤ itemName second)) "functions" =
        some (sortByName functions) := sorted
  rw [asMetadata, functionsFound]
  rfl

/-- The dictionary of the metadata is filled whenever the record is built. -/
theorem metadataFields_of_main {environment : Environment} {publicHeader : Text} {ast : Json}
    {metadata : Metadata} (returned : main environment publicHeader ast = .ok metadata) :
    ∃ fields, metadataFields environment publicHeader ast = .ok fields ∧
      asMetadata (.obj fields) = some metadata := by
  obtain ⟨functions, collected, returned⟩ := Fallible.bind_eq_ok_iff.mp returned
  cases returned
  obtain ⟨items, filled, related⟩ := exportedFields_of_exportedFunctions collected
  exact ⟨_, Fallible.bind_eq_ok_iff.mpr ⟨items, filled, rfl⟩, asMetadata_items related⟩

theorem main_of_metadataFields {environment : Environment} {publicHeader : Text} {ast : Json}
    {fields : Dict} (filled : metadataFields environment publicHeader ast = .ok fields) :
    ∃ metadata, main environment publicHeader ast = .ok metadata ∧
      asMetadata (.obj fields) = some metadata := by
  obtain ⟨items, collected, returned⟩ := Fallible.bind_eq_ok_iff.mp filled
  cases returned
  obtain ⟨functions, built, related⟩ := exportedFunctions_of_exportedFields collected
  exact ⟨_, Fallible.bind_eq_ok_iff.mpr ⟨functions, built, rfl⟩, asMetadata_items related⟩

/-- The text of the file of a dictionary that is filled from a file. -/
theorem load_written {format : FloatFormat} {environment : Environment}
    {publicHeader input : Text} {ast : Json} {fields : Dict} (loaded : load format input = some ast)
    (filled : metadataFields environment publicHeader ast = .ok fields) :
    load format (dump 2 (.obj fields) ++ ['\n']) = some (.obj fields) ∧
      ∀ char ∈ dump 2 (.obj fields) ++ ['\n'], isDocument char = true := by
  have storable := storable_metadataFields (storable_of_load loaded) filled
  refine ⟨load_dump storable 2 (List.forall_mem_singleton.mpr rfl), ?_⟩
  exact List.forall_mem_append.mpr
    ⟨print_document storable 2 0, List.forall_mem_singleton.mpr rfl⟩

section Runs

variable {format : FloatFormat} {environment : Environment} {publicHeader input : Text}

/-- A file that is written is ASCII, and reads as the metadata of the tree in the input. -/
theorem reduce_eq_some {output : Text}
    (written : reduce format environment publicHeader input = some output) :
    ∃ ast metadata, load format input = some ast ∧
      main environment publicHeader ast = .ok metadata ∧
      (load format output).bind asMetadata = some metadata ∧
      ∀ char ∈ output, isDocument char = true := by
  obtain ⟨ast, loaded, written⟩ := Option.bind_eq_some_iff.mp written
  obtain ⟨fields, filled, returned⟩ := Option.bind_eq_some_iff.mp written
  cases Option.some.inj returned
  have filled : metadataFields environment publicHeader ast = .ok fields := by
    cases result : metadataFields environment publicHeader ast with
    | error fault =>
        rw [result] at filled
        cases filled
    | ok other =>
        rw [result] at filled
        cases filled
        rfl
  obtain ⟨metadata, mainReturned, read⟩ := main_of_metadataFields filled
  refine ⟨ast, metadata, loaded, mainReturned, ?_, (load_written loaded filled).2⟩
  rw [(load_written loaded filled).1]
  exact read

theorem reduce_of_main {ast : Json} {metadata : Metadata} (loaded : load format input = some ast)
    (returned : main environment publicHeader ast = .ok metadata) :
    ∃ output, reduce format environment publicHeader input = some output ∧
      (load format output).bind asMetadata = some metadata := by
  obtain ⟨fields, filled, read⟩ := metadataFields_of_main returned
  refine ⟨dump 2 (.obj fields) ++ ['\n'], ?_, ?_⟩
  · simp only [reduce, loaded, filled, Except.toOption, Option.bind_eq_bind, Option.bind_some]
    rfl
  · rw [(load_written loaded filled).1]
    exact read

end Runs

/-- A well-typed tree in a file is reduced, and the file of its metadata is ASCII and reads as the
metadata. -/
theorem reduce_recovers {format : FloatFormat} {input : Text} {ast : Json}
    (loaded : load format input = some ast) (typed : WellTyped ast) (environment : Environment)
    (publicHeader : Text) :
    ∃ metadata output, main environment publicHeader ast = .ok metadata ∧
      reduce format environment publicHeader input = some output ∧
      (load format output).bind asMetadata = some metadata ∧
      ∀ char ∈ output, isDocument char = true := by
  obtain ⟨built, returned, _⟩ := main_eq_ok environment publicHeader typed
  obtain ⟨output, written, recovered⟩ := reduce_of_main loaded returned
  obtain ⟨_, _, _, _, _, ascii⟩ := reduce_eq_some written
  exact ⟨_, output, returned, written, recovered, ascii⟩

theorem storable_textNode (text : Text) : Storable format (.obj (textNode text)) :=
  ⟨by simp [textNode, Assignment.keys], trivial, trivial, trivial⟩

theorem storable_documentedClose : Storable .verbatim documentedClose := by
  have blocks : ∀ block ∈ blocksOfClose, Storable .verbatim (.obj block) := by
    have inner (text : Text) : ItemsStorable .verbatim [.obj (textNode text)] :=
      ⟨storable_textNode text, trivial⟩
    refine List.forall_mem_cons.mpr ⟨?_, List.forall_mem_cons.mpr ⟨?_,
      List.forall_mem_singleton.mpr ?_⟩⟩
    · exact ⟨by decide, trivial, trivial, inner _, trivial⟩
    · exact ⟨by decide, trivial, trivial, inner _, trivial⟩
    · exact ⟨by decide, trivial, trivial, trivial, inner _, trivial⟩
  refine ⟨by decide, trivial, ⟨by decide, trivial, trivial⟩, trivial, trivial,
    ⟨by decide, trivial, trivial⟩, ⟨?_, ?_, ⟨by decide, trivial, ?_, trivial⟩, trivial⟩, trivial⟩
  · exact ⟨by decide, trivial, trivial, ⟨by decide, trivial, trivial⟩, trivial⟩
  · exact ⟨by decide, trivial, trivial, trivial⟩
  · apply itemsStorable_iff.mpr
    intro item membership
    obtain ⟨block, isBlock, rfl⟩ := List.mem_map.mp membership
    exact blocks block isBlock

/-- The file that is read back tells what both ends of the run know of the function. -/
theorem reduce_recovers_documentedClose : ∃ function output,
    reduce .verbatim checkout "cpp_core.h" (dump 2 documentedClose ++ ['\n']) = some output ∧
    (load .verbatim output).bind asMetadata =
      some ⟨"cpp_core_ffi_api", 1, "cpp_core.h", [function]⟩ ∧
    function.name = "serialClose" ∧
    function.doc = some ⟨some "Close a previously opened port.", none, [], []⟩ ∧
    function.parameters.map (fun parameter => (parameter.name, parameter.doc)) =
      [("handle".toList, some ⟨"Port handle to close.", some "in".toList⟩)] ∧
    ∀ char ∈ output, isDocument char = true := by
  have line : ∀ char ∈ ['\n'], isSpace char = true := List.forall_mem_singleton.mpr rfl
  obtain ⟨function, returned, name, doc, parameters⟩ := main_documentedClose
  obtain ⟨metadata, output, returnedToo, written, recovered, ascii⟩ :=
    reduce_recovers (load_dump storable_documentedClose 2 line)
      (show WellTyped documentedClose by decide) checkout "cpp_core.h"
  cases Except.ok.inj (returned.symm.trans returnedToo)
  exact ⟨function, output, written, recovered, name, doc, parameters, ascii⟩

end File

end CppCore.Ffi
