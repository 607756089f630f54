import CppCore.Ffi.Reducer

/-!
# The fields clang writes

On a tree whose fields have the types clang gives them, no step of the reducer
ends in a fault.
-/

namespace CppCore.Ffi

open Dict Fallible

inductive FieldType where
  | text
  | object
  | array
  | texts
  | boolean
  | scalar
  deriving DecidableEq

def isTextValue : Json → Bool
  | .str _ => true
  | _ => false

def isBooleanValue : Json → Bool
  | .bool _ => true
  | _ => false

def FieldType.admits : FieldType → Json → Bool
  | .text, value => isTextValue value
  | .object, value => value.asDict.isSome
  | .array, .arr _ => true
  | .array, _ => false
  | .texts, .arr items => items.all isTextValue
  | .texts, _ => false
  | .boolean, value => isBooleanValue value
  | .scalar, value => !value.isContainer

def textKeys : List Text :=
  ["kind", "name", "mangledName", "file", "qualType", "desugaredQualType", "text", "renderKind",
    "param", "direction", "visibility", "opcode"]

def objectKeys : List Text :=
  ["loc", "range", "begin", "end", "type", "referencedDecl"]

/-- The type of a field, for the fields the reducer reads. -/
def fieldType (key : Text) : Option FieldType :=
  if key ∈ textKeys then some .text
  else if key ∈ objectKeys then some .object
  else if key = "inner".toList then some .array
  else if key = "args".toList then some .texts
  else if key = "inline".toList then some .boolean
  else if key = "value".toList then some .scalar
  else none

def hasQualType (node : Dict) : Bool :=
  match node.lookup "type".toList with
  | some (.obj typeInfo) => (List.lookup "qualType".toList typeInfo).any isTextValue
  | _ => false

/-- Every field has its type, and a parameter states its own. -/
def conforms (node : Dict) : Bool :=
  (node.all fun field => (fieldType field.1).all fun type => type.admits field.2) &&
    (!node.hasKind "ParmVarDecl" || hasQualType node)

def WellTyped (ast : Json) : Prop := ∀ node ∈ ast.objects, conforms node = true

instance (ast : Json) : Decidable (WellTyped ast) :=
  inferInstanceAs (Decidable (∀ node ∈ ast.objects, conforms node = true))

section Accessors

variable {node : Dict}

theorem admits_of_lookup (conforming : conforms node = true) {key : Text} {value : Json}
    (found : node.lookup key = some value) {type : FieldType} (typed : fieldType key = some type) :
    type.admits value = true := by
  have fields := (Bool.and_eq_true_iff.mp conforming).1
  have field := List.all_eq_true.mp fields (key, value) (mem_of_lookup found)
  rw [typed] at field
  exact field

theorem getText?_succeeds (conforming : conforms node = true) {key : Text}
    (typed : fieldType key = some .text) : Succeeds (node.getText? key) := by
  unfold getText? Dict.get
  cases found : node.lookup key with
  | none => exact .ok none
  | some value =>
      have admitted := admits_of_lookup conforming found typed
      cases value with
      | str text => exact .ok (some text)
      | _ => cases admitted

theorem getText_succeeds (conforming : conforms node = true) {key : Text}
    (typed : fieldType key = some .text) (fallback : Text) :
    Succeeds (node.getText key fallback) := by
  unfold getText
  cases found : node.lookup key with
  | none => exact .ok fallback
  | some value =>
      have admitted := admits_of_lookup conforming found typed
      cases value with
      | str text => exact .ok text
      | _ => cases admitted

theorem getDict_succeeds (conforming : conforms node = true) {key : Text}
    (typed : fieldType key = some .object) : Succeeds (node.getDict key) := by
  unfold getDict
  cases found : node.lookup key with
  | none => exact .ok []
  | some value =>
      have admitted := admits_of_lookup conforming found typed
      cases value with
      | obj fields => exact .ok fields
      | _ => cases admitted

theorem getList_succeeds (conforming : conforms node = true) {key : Text}
    (typed : fieldType key = some .array ∨ fieldType key = some .texts) :
    Succeeds (node.getList key) := by
  unfold getList
  cases found : node.lookup key with
  | none => exact .ok []
  | some value =>
      have admitted : FieldType.array.admits value = true := by
        rcases typed with typed | typed
        · exact admits_of_lookup conforming found typed
        · have admitted := admits_of_lookup conforming found typed
          cases value with
          | arr items => rfl
          | _ => cases admitted
      cases value with
      | arr items => exact .ok items
      | _ => cases admitted

end Accessors

section Nesting

variable {node : Dict}

theorem WellTyped.conforms (typed : WellTyped (.obj node)) : conforms node = true :=
  typed node List.mem_cons_self

theorem WellTyped.nested {ast : Json} (typed : WellTyped ast) (membership : node ∈ ast.objects) :
    WellTyped (.obj node) := by
  intro inner inside
  exact typed inner (Json.objects_trans ast membership inside)

theorem wellTyped_of_mem {key : Text} {value : Json} (typed : WellTyped (.obj node))
    (membership : (key, value) ∈ node) : WellTyped value := by
  intro inner inside
  exact typed inner (Json.mem_objects_of_field membership inside)

theorem WellTyped.items {key : Text} {items : List Json} (typed : WellTyped (.obj node))
    (read : node.getList key = .ok items) : ∀ item ∈ items, WellTyped item := by
  intro item membership
  rcases getList_eq_ok read with rfl | field
  · cases membership
  · intro inner inside
    exact wellTyped_of_mem typed field inner (Json.mem_objects_of_item membership inside)

theorem WellTyped.childObjects (typed : WellTyped (.obj node)) :
    ∃ children, node.childObjects = .ok children ∧
      ∀ child ∈ children, WellTyped (.obj child) := by
  have readable : Succeeds (node.getList "inner") := getList_succeeds typed.conforms (.inl rfl)
  obtain ⟨items, read⟩ := readable
  refine ⟨items.filterMap Json.asDict, by rw [Dict.childObjects, read]; rfl, ?_⟩
  intro child membership
  obtain ⟨item, itemIn, shape⟩ := List.mem_filterMap.mp membership
  have typedItem := typed.items read item itemIn
  cases item with
  | obj fields =>
      cases shape
      exact typedItem
  | _ => cases shape

theorem WellTyped.dict {key : Text} {fields : Dict} (typed : WellTyped (.obj node))
    (read : node.getDict key = .ok fields) : WellTyped (.obj fields) := by
  unfold Dict.getDict at read
  cases found : node.lookup key with
  | none =>
      rw [found] at read
      cases read
      intro inner inside
      rw [List.mem_singleton.mp inside]
      rfl
  | some value =>
      rw [found] at read
      cases value with
      | obj content =>
          cases read
          exact wellTyped_of_mem typed (mem_of_lookup found)
      | _ => cases read

theorem WellTyped.getDict {key : Text} (typed : WellTyped (.obj node))
    (object : fieldType key = some .object) :
    ∃ fields, node.getDict key = .ok fields ∧ WellTyped (.obj fields) := by
  obtain ⟨fields, read⟩ := getDict_succeeds typed.conforms object
  exact ⟨fields, read, typed.dict read⟩

theorem WellTyped.get (typed : WellTyped (.obj node)) (key : Text) :
    WellTyped (node.get key) := by
  unfold Dict.get
  cases found : node.lookup key with
  | none =>
      intro inner inside
      cases inside
  | some value => exact wellTyped_of_mem typed (mem_of_lookup found)

end Nesting

theorem commandArgs_succeeds {args : List Json} (texts : args.all isTextValue = true) :
    Succeeds (commandArgs args) := by
  induction args with
  | nil => exact .ok []
  | cons arg args inductionHypothesis =>
      rw [List.all_cons, Bool.and_eq_true_iff] at texts
      cases arg with
      | str text =>
          rw [commandArgs]
          apply Succeeds.bind (inductionHypothesis texts.2)
          intro rest _
          exact .ok (text :: rest)
      | _ => cases texts.1

theorem args_are_texts {node : Dict} (conforming : conforms node = true) {args : List Json}
    (read : node.getList "args" = .ok args) : args.all isTextValue = true := by
  unfold getList at read
  cases found : node.lookup "args".toList with
  | none =>
      rw [found] at read
      cases read
      rfl
  | some value =>
      rw [found] at read
      cases value with
      | arr items =>
          cases read
          exact admits_of_lookup conforming found rfl
      | _ => cases read

mutual

theorem textFromComment_succeeds {node : Dict} (typed : WellTyped (.obj node)) :
    Succeeds (textFromComment node) := by
  by_cases isText : node.hasKind "TextComment" = true
  · rw [textFromComment, if_pos isText]
    exact getText_succeeds typed.conforms rfl ""
  by_cases isCommand : node.hasKind "InlineCommandComment" = true
  · rw [textFromComment, if_neg isText, if_pos isCommand]
    apply Succeeds.bind (getList_succeeds typed.conforms (.inr rfl))
    intro args read
    apply Succeeds.bind (commandArgs_succeeds (args_are_texts typed.conforms read))
    intro texts _
    by_cases monospaced : (node.get "renderKind").isText "monospaced" = true
    · rw [if_pos monospaced]
      exact .ok _
    · rw [if_neg monospaced]
      exact .ok _
  rw [textFromComment_container isText isCommand]
  apply Succeeds.bind (getList_succeeds typed.conforms (.inl rfl))
  intro children read
  apply Succeeds.bind (commentChunks_succeeds (typed.items read))
  intro chunks _
  exact .ok _
termination_by (sizeOf node, 1)
decreasing_by exact lex_of_getList ‹_›

theorem commentChunks_succeeds {children : List Json}
    (typed : ∀ child ∈ children, WellTyped child) : Succeeds (commentChunks children) := by
  cases children with
  | nil =>
      rw [commentChunks]
      exact .ok []
  | cons child children =>
      have ⟨typedChild, typedRest⟩ := List.forall_mem_cons.mp typed
      cases child with
      | obj child =>
          rw [commentChunks]
          apply Succeeds.bind (textFromComment_succeeds typedChild)
          intro text _
          apply Succeeds.bind (commentChunks_succeeds typedRest)
          intro chunks _
          exact .ok _
      | _ =>
          rw [commentChunks]
          · exact commentChunks_succeeds typedRest
          · simp
termination_by (sizeOf children, 0)

end

/-- What an f-string can print. -/
def Printable (value : Json) : Prop := value.isContainer = false

theorem formatValue_succeeds {value : Json} (printable : Printable value) :
    Succeeds (formatValue value) := by
  cases value with
  | bool value => cases value <;> exact .ok _
  | arr items => cases printable
  | obj fields => cases printable
  | _ => exact .ok _

theorem get_printable {node : Dict} (conforming : conforms node = true) {key : Text}
    (typed : fieldType key = some .text ∨ fieldType key = some .boolean ∨
      fieldType key = some .scalar) :
    Printable (node.get key) := by
  unfold Dict.get
  cases found : node.lookup key with
  | none => rfl
  | some value =>
      rcases typed with typed | typed | typed
      · have admitted := admits_of_lookup conforming found typed
        cases value with
        | str text => rfl
        | _ => cases admitted
      · have admitted := admits_of_lookup conforming found typed
        cases value with
        | bool flag => rfl
        | _ => cases admitted
      · have admitted := admits_of_lookup conforming found typed
        cases value with
        | arr items => cases admitted
        | obj fields => cases admitted
        | _ => rfl

/-- The step succeeds with a value that an f-string can print. -/
def Prints (step : Except Fault Json) : Prop := ∃ value, step = .ok value ∧ Printable value

theorem Prints.succeeds {step : Except Fault Json} (prints : Prints step) : Succeeds step := by
  obtain ⟨value, returned, _⟩ := prints
  exact ⟨value, returned⟩

theorem Prints.bind {α : Type} {step : Except Fault α} {next : α → Except Fault Json}
    (first : Succeeds step) (rest : ∀ value, step = .ok value → Prints (next value)) :
    Prints (step >>= next) := by
  obtain ⟨value, returned⟩ := first
  rw [returned]
  exact rest value returned

theorem applyOperator_prints {node : Dict} (conforming : conforms node = true) {value : Json}
    (printable : Printable value) : Prints (applyOperator node value) := by
  have nonNull : Prints (do
      let opcode ← node.getText "opcode" ""
      let printed ← formatValue value
      return .str (opcode ++ printed)) := by
    apply Prints.bind (getText_succeeds conforming rfl "")
    intro opcode _
    apply Prints.bind (formatValue_succeeds printable)
    intro printed _
    exact ⟨_, rfl, rfl⟩
  cases value with
  | null => exact ⟨_, rfl, rfl⟩
  | _ => exact nonNull

mutual

theorem extractDefaultExpr_prints {node : Dict} (typed : WellTyped (.obj node)) :
    Prints (extractDefaultExpr node) := by
  by_cases wrapper : wrapperKinds.any node.hasKind = true
  · rw [extractDefaultExpr_wrapper wrapper]
    apply Prints.bind (getList_succeeds typed.conforms (.inl rfl))
    intro children read
    exact defaultOfFirst_prints (typed.items read)
  by_cases operator : node.hasKind "UnaryOperator" = true
  · rw [extractDefaultExpr_operator operator]
    apply Prints.bind (getList_succeeds typed.conforms (.inl rfl))
    intro children read
    have operand := defaultOfFirst_prints (typed.items read)
    obtain ⟨value, returned, printable⟩ := operand
    rw [returned]
    exact applyOperator_prints typed.conforms printable
  rw [extractDefaultExpr, if_neg wrapper, if_neg operator]
  split_ifs
  · exact ⟨_, rfl, get_printable typed.conforms (.inr (.inr rfl))⟩
  · exact ⟨_, rfl, rfl⟩
  · apply Prints.bind (getDict_succeeds typed.conforms rfl)
    intro referenced read
    apply Prints.bind (getText?_succeeds (typed.dict read).conforms rfl)
    intro name _
    split
    · exact ⟨_, rfl, get_printable typed.conforms (.inl rfl)⟩
    · exact ⟨_, rfl, get_printable typed.conforms (.inl rfl)⟩
    · exact ⟨_, rfl, rfl⟩
  · exact ⟨_, rfl, rfl⟩
termination_by (sizeOf node, 1)
decreasing_by all_goals exact lex_of_getList ‹_›

theorem defaultOfFirst_prints {children : List Json} (typed : ∀ child ∈ children, WellTyped child) :
    Prints (defaultOfFirst children) := by
  cases children with
  | nil =>
      rw [defaultOfFirst]
      exact ⟨_, rfl, rfl⟩
  | cons child children =>
      have ⟨typedChild, typedRest⟩ := List.forall_mem_cons.mp typed
      cases child with
      | obj child =>
          rw [defaultOfFirst]
          exact extractDefaultExpr_prints typedChild
      | _ =>
          rw [defaultOfFirst]
          · exact defaultOfFirst_prints typedRest
          · simp
termination_by (sizeOf children, 0)

end

theorem addComment_succeeds {child : Dict} (typed : WellTyped (.obj child)) (doc : Doc) :
    Succeeds (addComment doc child) := by
  have text := textFromComment_succeeds typed
  unfold addComment
  split_ifs
  · exact text.bind fun _ _ => .ok _
  · exact text.bind fun _ _ => .ok _
  · apply Succeeds.bind (getText?_succeeds typed.conforms rfl)
    intro name _
    apply Succeeds.bind text
    intro text _
    apply Succeeds.bind (getText?_succeeds typed.conforms rfl)
    intro direction _
    split
    · exact .ok doc
    · exact .ok doc
    · split_ifs
      · exact .ok doc
      · exact .ok _
  · exact text.bind fun _ _ => .ok _
  · exact .ok doc

theorem extractComment_succeeds {node : Dict} (typed : WellTyped (.obj node)) :
    Succeeds (extractComment node) := by
  unfold extractComment
  obtain ⟨children, read, typedChildren⟩ := typed.childObjects
  rw [read, ok_bind]
  cases found : children.find? fun child => child.hasKind "FullComment" with
  | none => exact .ok Doc.empty
  | some fullComment =>
      have typedComment := typedChildren fullComment (List.mem_of_find?_eq_some found)
      obtain ⟨comments, readComments, typedComments⟩ := typedComment.childObjects
      simp only [readComments, ok_bind]
      apply Succeeds.foldlM
      intro doc child membership
      exact addComment_succeeds (typedComments child membership) doc

theorem hasQualType_eq {node : Dict} (states : hasQualType node = true) :
    ∃ typeInfo type, node.getDict "type" = .ok typeInfo ∧
      typeInfo.getText? "qualType" = .ok (some type) := by
  unfold hasQualType at states
  unfold getDict getText? Dict.get
  cases found : node.lookup "type".toList with
  | none =>
      rw [found] at states
      cases states
  | some value =>
      rw [found] at states
      cases value with
      | obj typeInfo =>
          have states : (List.lookup "qualType".toList typeInfo).any isTextValue = true := states
          refine ⟨typeInfo, ?_⟩
          cases foundType : typeInfo.lookup "qualType".toList with
          | none =>
              rw [foundType] at states
              cases states
          | some type =>
              rw [foundType] at states
              cases type with
              | str type => exact ⟨type, rfl, rfl⟩
              | _ => cases states
      | _ => cases states

theorem buildParameter_succeeds {node : Dict} (typed : WellTyped (.obj node))
    (isParameter : node.hasKind "ParmVarDecl" = true) (docParams : List (Text × ParamEntry)) :
    Succeeds (buildParameter node docParams) := by
  have states : hasQualType node = true := by
    have parameter := (Bool.and_eq_true_iff.mp typed.conforms).2
    rw [isParameter] at parameter
    exact parameter
  obtain ⟨typeInfo, type, readType, readQualType⟩ := hasQualType_eq states
  unfold buildParameter
  rw [readType, ok_bind, readQualType, ok_bind]
  apply Succeeds.bind (getText?_succeeds (typed.dict readType).conforms rfl)
  intro desugared _
  apply Succeeds.bind (getText_succeeds typed.conforms rfl "")
  intro name _
  apply Succeeds.bind (getList_succeeds typed.conforms (.inl rfl))
  intro items read
  apply Succeeds.bind (defaultOfFirst_prints (typed.items read)).succeeds
  intro defaultValue _
  cases source : (desugared.filter (· ≠ [])).or (some type) with
  | none => simp at source
  | some callbackSourceType => exact .ok _

theorem firstFile_cons {candidate : Dict} {file : Option Text}
    (read : candidate.getText? "file" = .ok file) (candidates : List Json) :
    firstFile (.obj candidate :: candidates) =
      (file.filter (· ≠ [])).elim (firstFile candidates) fun path => .ok (some path) := by
  unfold getText? at read
  rw [firstFile]
  cases value : Dict.get candidate "file" with
  | null =>
      rw [value] at read
      cases read
      rfl
  | str text =>
      rw [value] at read
      cases read
      cases text <;> rfl
  | _ =>
      rw [value] at read
      cases read

theorem firstFile_succeeds {candidates : List Json}
    (typed : ∀ candidate ∈ candidates, WellTyped candidate) : Succeeds (firstFile candidates) := by
  induction candidates with
  | nil => exact .ok none
  | cons candidate candidates inductionHypothesis =>
      have ⟨typedFirst, typedRest⟩ := List.forall_mem_cons.mp typed
      have rest := inductionHypothesis typedRest
      cases candidate with
      | obj fields =>
          have file : Succeeds (getText? fields "file") := getText?_succeeds typedFirst.conforms rfl
          obtain ⟨file, read⟩ := file
          rw [firstFile_cons read]
          cases file.filter (· ≠ []) with
          | none => exact rest
          | some path => exact .ok _
      | _ => exact rest

theorem declarationFile_succeeds {node : Dict} (typed : WellTyped (.obj node)) :
    Succeeds (declarationFile node) := by
  unfold declarationFile
  obtain ⟨loc, readLoc, typedLoc⟩ := typed.getDict (show fieldType "loc" = _ from rfl)
  obtain ⟨range, readRange, typedRange⟩ := typed.getDict (show fieldType "range" = _ from rfl)
  rcases typedRange.getDict (show fieldType "begin" = _ from rfl) with
    ⟨rangeBegin, readBegin, typedBegin⟩
  obtain ⟨rangeEnd, readEnd, typedEnd⟩ := typedRange.getDict (show fieldType "end" = _ from rfl)
  rw [readLoc, ok_bind, readRange, ok_bind, readBegin, ok_bind, readEnd, ok_bind]
  apply firstFile_succeeds
  simp only [List.forall_mem_cons]
  exact ⟨typedBegin.get _, typedBegin.get _, typedLoc, typedBegin, typedEnd,
    typedLoc.get _, typedBegin.get _, typedEnd.get _,
    List.forall_mem_nil _⟩

theorem hasDefaultVisibility_succeeds {node : Dict} (typed : WellTyped (.obj node)) :
    Succeeds (hasDefaultVisibility node) := by
  unfold hasDefaultVisibility
  obtain ⟨children, read, _⟩ := typed.childObjects
  rw [read]
  exact .ok _

theorem isExportedFunction_succeeds (environment : Environment) {node : Dict}
    (typed : WellTyped (.obj node)) : Succeeds (isExportedFunction environment node) := by
  unfold isExportedFunction
  split_ifs
  · exact .ok false
  apply Succeeds.bind (getText?_succeeds typed.conforms rfl)
  intro name _
  split
  · exact .ok false
  · exact .ok false
  apply Succeeds.bind (hasDefaultVisibility_succeeds typed)
  intro visible _
  split_ifs
  · exact .ok false
  apply Succeeds.bind (getText?_succeeds typed.conforms rfl)
  intro mangledName _
  split_ifs
  · exact .ok false
  apply Succeeds.bind (declarationFile_succeeds typed)
  intro path _
  split
  · exact .ok false
  · exact .ok _

end CppCore.Ffi
