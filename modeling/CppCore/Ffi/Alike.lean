import CppCore.Ffi.Canonical
import CppCore.Ffi.Documentation
import CppCore.Ffi.MetadataFile
import CppCore.Library.JsonAlike

/-!
# What the reducer does not see

The reducer looks up the fields of a node by their names, and only some of them.
Trees that differ in the order of the fields, or in the identifiers and the
positions that clang writes, are reduced to the same file.
-/

namespace CppCore.Ffi

open Dict Fallible Json

/-- The names under which the reducer looks for something. -/
def readKeys : List Text :=
  ["args", "begin", "desugaredQualType", "direction", "end", "expansionLoc", "file", "includedFrom",
    "inline", "inner", "kind", "loc", "mangledName", "name", "opcode", "param", "qualType", "range",
    "referencedDecl", "renderKind", "spellingLoc", "text", "type", "value", "visibility"]

def isRead (key : Text) : Bool := readKeys.contains key

section Blocks

variable {node other : Dict}

/-- The comment is read block by block. -/
theorem extractComment_eq_foldlM (node : Dict) :
    extractComment node = commentBlocks node >>= fun blocks => blocks.foldlM addComment .empty := by
  unfold extractComment commentBlocks
  cases node.childObjects with
  | error fault => rfl
  | ok children =>
      simp only [ok_bind]
      cases children.find? fun child => child.hasKind "FullComment" with
      | none => rfl
      | some fullComment => rfl

theorem commentFields_eq_foldlM (node : Dict) : commentFields node = do
    let (doc, details) ← (← commentBlocks node).foldlM recordComment ([], [])
    return if details = [] then doc else Assignment.assign "details" (texts details) doc := by
  unfold commentFields commentBlocks
  cases node.childObjects with
  | error fault => rfl
  | ok children =>
      simp only [ok_bind]
      cases children.find? fun child => child.hasKind "FullComment" with
      | none => rfl
      | some fullComment => rfl

variable {relates relatesBlock : Dict → Dict → Prop}

theorem commentBlocks_related
    (children : Related (List.Forall₂ relates) node.childObjects other.childObjects)
    (kinds : ∀ child otherChild, relates child otherChild →
      child.hasKind "FullComment" = otherChild.hasKind "FullComment")
    (blocks : ∀ child otherChild, relates child otherChild →
      Related (List.Forall₂ relatesBlock) child.childObjects otherChild.childObjects) :
    Related (List.Forall₂ relatesBlock) (commentBlocks node) (commentBlocks other) := by
  apply children.bind
  intro children others same
  have fullComments := find?_related same kinds
  generalize children.find? (fun child => child.hasKind "FullComment") = found,
    others.find? (fun child => child.hasKind "FullComment") = foundOther at fullComments ⊢
  cases fullComments with
  | none => exact .ok .nil
  | some here => exact blocks _ _ here

theorem extractComment_related
    (same : Related (List.Forall₂ relatesBlock) (commentBlocks node) (commentBlocks other))
    (each : ∀ doc block otherBlock, relatesBlock block otherBlock →
      addComment doc block = addComment doc otherBlock) :
    extractComment node = extractComment other := by
  rw [extractComment_eq_foldlM, extractComment_eq_foldlM]
  apply same.bind_eq
  exact fun blocks otherBlocks here => foldlM_related here each _

theorem commentFields_related
    (same : Related (List.Forall₂ relatesBlock) (commentBlocks node) (commentBlocks other))
    (each : ∀ state block otherBlock, relatesBlock block otherBlock →
      recordComment state block = recordComment state otherBlock) :
    commentFields node = commentFields other := by
  rw [commentFields_eq_foldlM, commentFields_eq_foldlM]
  apply same.bind_eq
  intro blocks otherBlocks here
  rw [foldlM_related here each]

end Blocks

section Accessors

variable {node other : Dict}

theorem alike_nil : Dict.Alike isRead [] [] := .obj List.nodup_nil (.refl _) rfl .nil

theorem hasKind_alike (related : Dict.Alike isRead node other) (kind : Text) :
    node.hasKind kind = other.hasKind kind :=
  (related.get "kind" rfl).isText kind

theorem getText?_alike (related : Dict.Alike isRead node other) (key : Text)
    (keyRead : isRead key = true) :
    node.getText? key = other.getText? key := by
  have same := related.get key keyRead
  unfold getText?
  cases value : node.get key with
  | arr items =>
      rw [value] at same
      obtain ⟨others, sameOther, _⟩ := same.of_arr
      rw [sameOther]
  | obj fields =>
      rw [value] at same
      obtain ⟨others, sameOther, _⟩ := same.of_obj
      rw [sameOther]
  | _ =>
      rw [value] at same
      rw [← same.eq_of_scalar rfl]

theorem getText_alike (related : Dict.Alike isRead node other) (key fallback : Text)
    (keyRead : isRead key = true) :
    node.getText key fallback = other.getText key fallback := by
  have same := related.lookup key keyRead
  revert same
  unfold getText
  generalize List.lookup key node = found, List.lookup key other = foundOther
  rintro (@⟨value, valueOther, same⟩ | none)
  · cases value with
    | arr items =>
        obtain ⟨others, rfl, _⟩ := same.of_arr
        rfl
    | obj fields =>
        obtain ⟨others, rfl, _⟩ := same.of_obj
        rfl
    | _ => rw [← same.eq_of_scalar rfl]
  · rfl

theorem getDict_alike (related : Dict.Alike isRead node other) (key : Text)
    (keyRead : isRead key = true) :
    Related (Dict.Alike isRead) (node.getDict key) (other.getDict key) := by
  have same := related.lookup key keyRead
  revert same
  unfold getDict
  generalize List.lookup key node = found, List.lookup key other = foundOther
  rintro (@⟨value, valueOther, same⟩ | none)
  · cases value with
    | arr items =>
        obtain ⟨others, rfl, _⟩ := same.of_arr
        exact .error _
    | obj fields =>
        obtain ⟨others, rfl, sameFields⟩ := same.of_obj
        exact .ok sameFields
    | _ =>
        rw [← same.eq_of_scalar rfl]
        exact .error _
  · exact .ok alike_nil

theorem getList_alike (related : Dict.Alike isRead node other) (key : Text)
    (keyRead : isRead key = true) :
    Related (List.Forall₂ (Json.Alike isRead)) (node.getList key) (other.getList key) := by
  have same := related.lookup key keyRead
  revert same
  unfold getList
  generalize List.lookup key node = found, List.lookup key other = foundOther
  rintro (@⟨value, valueOther, same⟩ | none)
  · cases value with
    | arr items =>
        obtain ⟨others, rfl, sameItems⟩ := same.of_arr
        exact .ok sameItems
    | obj fields =>
        obtain ⟨others, rfl, _⟩ := same.of_obj
        exact .error _
    | _ =>
        rw [← same.eq_of_scalar rfl]
        exact .error _
  · exact .ok .nil

theorem childObjects_alike (related : Dict.Alike isRead node other) :
    Related (List.Forall₂ (Dict.Alike isRead)) node.childObjects other.childObjects :=
  (getList_alike related "inner" rfl).bind fun _ _ same => .ok (forall₂_filterMap_asDict same)

end Accessors

section Comments

theorem commandArgs_alike {args others : List Json}
    (related : List.Forall₂ (Json.Alike isRead) args others) :
    commandArgs args = commandArgs others := by
  induction related with
  | nil => rfl
  | @cons arg other _ _ here _ inductionHypothesis =>
      cases arg with
      | arr items =>
          obtain ⟨others, rfl, _⟩ := here.of_arr
          rfl
      | obj fields =>
          obtain ⟨others, rfl, _⟩ := here.of_obj
          rfl
      | str text =>
          rw [← here.eq_of_scalar rfl, commandArgs, commandArgs, inductionHypothesis]
      | _ =>
          rw [← here.eq_of_scalar rfl]
          rfl

mutual

theorem textFromComment_alike {node other : Dict} (related : Dict.Alike isRead node other) :
    textFromComment node = textFromComment other := by
  have sameText := hasKind_alike related "TextComment"
  have sameCommand := hasKind_alike related "InlineCommandComment"
  by_cases isText : node.hasKind "TextComment" = true
  · rw [textFromComment, textFromComment, ← sameText, if_pos isText, if_pos isText,
      getText_alike related "text" "" rfl]
  by_cases isCommand : node.hasKind "InlineCommandComment" = true
  · rw [textFromComment, textFromComment, ← sameText, ← sameCommand, if_neg isText,
      if_pos isCommand, if_neg isText, if_pos isCommand, (related.get "renderKind" rfl).isText]
    apply (getList_alike related "args" rfl).bind_eq
    intro args others same
    rw [commandArgs_alike same]
  rw [textFromComment_container isText isCommand,
    textFromComment_container (sameText ▸ isText) (sameCommand ▸ isCommand)]
  have children := getList_alike related "inner" rfl
  generalize read : node.getList "inner" = outcome, other.getList "inner" = outcomeOther at children
  cases children with
  | error fault => rfl
  | ok same => rw [ok_bind, ok_bind, commentChunks_alike same]
termination_by (sizeOf node, 1)
decreasing_by all_goals exact lex_of_getList ‹_›

theorem commentChunks_alike {children others : List Json}
    (related : List.Forall₂ (Json.Alike isRead) children others) :
    commentChunks children = commentChunks others := by
  cases children with
  | nil =>
      cases related
      rfl
  | cons child children =>
      obtain ⟨other, others, here, later, rfl⟩ := List.forall₂_cons_left_iff.mp related
      have rest := commentChunks_alike later
      cases child with
      | obj fields =>
          obtain ⟨otherFields, rfl, same⟩ := here.of_obj
          rw [commentChunks, commentChunks, textFromComment_alike same, rest]
      | arr items =>
          obtain ⟨otherItems, rfl, _⟩ := here.of_arr
          rw [commentChunks, commentChunks]
          · exact rest
          · exact nofun
          · exact nofun
      | _ =>
          rw [← here.eq_of_scalar rfl, commentChunks, commentChunks]
          · exact rest
          · exact nofun
          · exact nofun
termination_by (sizeOf children, 0)

end

variable {node other : Dict}

theorem addComment_alike (doc : Doc) (related : Dict.Alike isRead node other) :
    addComment doc node = addComment doc other := by
  unfold addComment
  simp only [hasKind_alike related, (related.get "name" rfl).isText,
    textFromComment_alike related, getText?_alike related "param" rfl,
    getText?_alike related "direction" rfl]

theorem recordComment_alike (state : Dict × List Text) (related : Dict.Alike isRead node other) :
    recordComment state node = recordComment state other := by
  unfold recordComment
  simp only [hasKind_alike related, (related.get "name" rfl).isText,
    textFromComment_alike related]

theorem commentBlocks_alike (related : Dict.Alike isRead node other) :
    Related (List.Forall₂ (Dict.Alike isRead)) (commentBlocks node) (commentBlocks other) := by
  apply commentBlocks_related (childObjects_alike related)
  · exact fun child otherChild here => hasKind_alike here "FullComment"
  · exact fun child otherChild => childObjects_alike

theorem extractComment_alike (related : Dict.Alike isRead node other) :
    extractComment node = extractComment other :=
  extractComment_related (commentBlocks_alike related) fun doc _ _ => addComment_alike doc

theorem commentFields_alike (related : Dict.Alike isRead node other) :
    commentFields node = commentFields other :=
  commentFields_related (commentBlocks_alike related) fun state _ _ => recordComment_alike state

end Comments

section Functions

variable {node other : Dict}

theorem firstFile_alike {candidates others : List Json}
    (typed : ∀ candidate ∈ candidates, WellTyped candidate)
    (related : List.Forall₂ (Json.Alike isRead) candidates others) :
    firstFile candidates = firstFile others := by
  induction related with
  | nil => rfl
  | @cons candidate other _ _ here _ inductionHypothesis =>
      obtain ⟨typedHere, typedLater⟩ := List.forall_mem_cons.mp typed
      have inductionHypothesis := inductionHypothesis typedLater
      cases candidate with
      | obj fields =>
          obtain ⟨otherFields, rfl, same⟩ := here.of_obj
          have file : Succeeds (Dict.getText? fields "file") :=
            getText?_succeeds typedHere.conforms rfl
          obtain ⟨file, read⟩ := file
          have readOther := (getText?_alike same "file" rfl).symm.trans read
          rw [firstFile_cons read, firstFile_cons readOther, inductionHypothesis]
      | arr items =>
          obtain ⟨otherItems, rfl, _⟩ := here.of_arr
          exact inductionHypothesis
      | _ =>
          rw [← here.eq_of_scalar rfl]
          exact inductionHypothesis

/-- Nested objects of a typed node, too, are typed. -/
theorem getDict_alike_of_typed (typed : WellTyped (.obj node))
    (related : Dict.Alike isRead node other) (key : Text) (keyRead : isRead key = true) :
    Related (fun fields others => WellTyped (.obj fields) ∧ Dict.Alike isRead fields others)
      (node.getDict key) (other.getDict key) := by
  have same := getDict_alike related key keyRead
  generalize read : node.getDict key = outcome, other.getDict key = outcomeOther at same ⊢
  cases same with
  | error fault => exact .error fault
  | ok sameFields => exact .ok ⟨typed.dict read, sameFields⟩

theorem declarationFile_alike (typed : WellTyped (.obj node))
    (related : Dict.Alike isRead node other) :
    declarationFile node = declarationFile other := by
  apply (getDict_alike_of_typed typed related "loc" rfl).bind_eq
  rintro loc locOther ⟨typedLoc, sameLoc⟩
  apply (getDict_alike_of_typed typed related "range" rfl).bind_eq
  rintro range rangeOther ⟨typedRange, sameRange⟩
  apply (getDict_alike_of_typed typedRange sameRange "begin" rfl).bind_eq
  rintro rangeBegin beginOther ⟨typedBegin, sameBegin⟩
  apply (getDict_alike_of_typed typedRange sameRange "end" rfl).bind_eq
  rintro rangeEnd endOther ⟨typedEnd, sameEnd⟩
  apply firstFile_alike
  · simp only [List.forall_mem_cons]
    exact ⟨typedBegin.get _, typedBegin.get _, typedLoc, typedBegin, typedEnd, typedLoc.get _,
      typedBegin.get _, typedEnd.get _, List.forall_mem_nil _⟩
  exact .cons (sameBegin.get _ rfl) (.cons (sameBegin.get _ rfl) (.cons sameLoc (.cons sameBegin
    (.cons sameEnd (.cons (sameLoc.get _ rfl) (.cons (sameBegin.get _ rfl)
      (.cons (sameEnd.get _ rfl) .nil)))))))

theorem hasDefaultVisibility_alike (related : Dict.Alike isRead node other) :
    hasDefaultVisibility node = hasDefaultVisibility other := by
  apply (childObjects_alike related).bind_eq
  intro children others same
  apply congrArg Except.ok
  apply any_related same
  intro child otherChild here
  rw [hasKind_alike here, (here.get "visibility" rfl).isText]

theorem isExportedFunction_alike (environment : Environment) (typed : WellTyped (.obj node))
    (related : Dict.Alike isRead node other) :
    isExportedFunction environment node = isExportedFunction environment other := by
  unfold isExportedFunction
  simp only [hasKind_alike related, getText?_alike related "name" rfl,
    getText?_alike related "mangledName" rfl, hasDefaultVisibility_alike related,
    declarationFile_alike typed related]

theorem formatValue_alike {value valueOther : Json} (related : Json.Alike isRead value valueOther) :
    formatValue value = formatValue valueOther := by
  cases value with
  | arr items =>
      obtain ⟨others, rfl, _⟩ := related.of_arr
      rfl
  | obj fields =>
      obtain ⟨others, rfl, _⟩ := related.of_obj
      rfl
  | _ => rw [← related.eq_of_scalar rfl]

theorem applyOperator_alike (related : Dict.Alike isRead node other) {value valueOther : Json}
    (same : Json.Alike isRead value valueOther) :
    applyOperator node value = applyOperator other valueOther := by
  have printed := formatValue_alike same
  cases value with
  | arr items =>
      obtain ⟨others, rfl, _⟩ := same.of_arr
      simp only [applyOperator, getText_alike related "opcode" "" rfl, printed]
  | obj fields =>
      obtain ⟨others, rfl, _⟩ := same.of_obj
      simp only [applyOperator, getText_alike related "opcode" "" rfl, printed]
  | _ =>
      rw [← same.eq_of_scalar rfl]
      simp only [applyOperator, getText_alike related "opcode" "" rfl]

theorem applyOperator_scalar {value result : Json}
    (applied : applyOperator node value = .ok result) :
    result.isContainer = false := by
  cases value with
  | null =>
      cases applied
      rfl
  | _ =>
      obtain ⟨opcode, _, applied⟩ := bind_eq_ok_iff.mp applied
      obtain ⟨printed, _, returned⟩ := bind_eq_ok_iff.mp applied
      cases returned
      rfl

theorem related_of_scalar {step : Except Fault Json}
    (scalar : ∀ value, step = .ok value → value.isContainer = false) :
    Related (Json.Alike isRead) step step := by
  cases step with
  | error fault => exact .error fault
  | ok value => exact .ok (.scalar (scalar value rfl))

mutual

theorem extractDefaultExpr_alike {node other : Dict} (related : Dict.Alike isRead node other) :
    Related (Json.Alike isRead) (extractDefaultExpr node) (extractDefaultExpr other) := by
  have kinds : node.hasKind = other.hasKind := funext (hasKind_alike related)
  have children := getList_alike related "inner" rfl
  by_cases wrapper : wrapperKinds.any node.hasKind = true
  · rw [extractDefaultExpr_wrapper wrapper, extractDefaultExpr_wrapper (kinds ▸ wrapper)]
    generalize read : node.getList "inner" = outcome, other.getList "inner" = outcomeOther
      at children
    cases children with
    | error fault => exact .error fault
    | ok same => exact defaultOfFirst_alike same
  by_cases operator : node.hasKind "UnaryOperator" = true
  · rw [extractDefaultExpr_operator operator, extractDefaultExpr_operator (kinds ▸ operator)]
    generalize read : node.getList "inner" = outcome, other.getList "inner" = outcomeOther
      at children
    cases children with
    | error fault => exact .error fault
    | ok same =>
        apply (defaultOfFirst_alike same).bind
        intro value valueOther sameValue
        rw [applyOperator_alike related sameValue]
        exact related_of_scalar fun result => applyOperator_scalar
  rw [extractDefaultExpr, extractDefaultExpr, ← kinds, if_neg wrapper, if_neg wrapper,
    if_neg operator, if_neg operator]
  split_ifs
  · exact .ok (related.get "value" rfl)
  · exact .ok (.scalar rfl)
  · apply (getDict_alike related "referencedDecl" rfl).bind
    intro referenced referencedOther sameReferenced
    rw [getText?_alike sameReferenced "name" rfl]
    cases referencedOther.getText? "name" with
    | error fault => exact .error fault
    | ok name =>
        match name with
        | none | some [] => exact .ok (related.get "name" rfl)
        | some (first :: rest) => exact .ok (.scalar rfl)
  · exact .ok (.scalar rfl)
termination_by (sizeOf node, 1)
decreasing_by all_goals exact lex_of_getList ‹_›

theorem defaultOfFirst_alike {children others : List Json}
    (related : List.Forall₂ (Json.Alike isRead) children others) :
    Related (Json.Alike isRead) (defaultOfFirst children) (defaultOfFirst others) := by
  cases children with
  | nil =>
      cases related
      rw [defaultOfFirst]
      exact .ok (.scalar rfl)
  | cons child children =>
      obtain ⟨other, others, here, later, rfl⟩ := List.forall₂_cons_left_iff.mp related
      have rest := defaultOfFirst_alike later
      cases child with
      | obj fields =>
          obtain ⟨otherFields, rfl, same⟩ := here.of_obj
          rw [defaultOfFirst, defaultOfFirst]
          exact extractDefaultExpr_alike same
      | arr items =>
          obtain ⟨otherItems, rfl, _⟩ := here.of_arr
          rw [defaultOfFirst, defaultOfFirst]
          · exact rest
          · exact nofun
          · exact nofun
      | _ =>
          rw [← here.eq_of_scalar rfl, defaultOfFirst, defaultOfFirst]
          · exact rest
          · exact nofun
          · exact nofun
termination_by (sizeOf children, 0)

end

/-- A default value of a tree with the types of clang is no object. -/
theorem defaultOfFirst_eq_of_typed {children others : List Json}
    (typed : ∀ child ∈ children, WellTyped child)
    (related : List.Forall₂ (Json.Alike isRead) children others) :
    defaultOfFirst children = defaultOfFirst others := by
  obtain ⟨value, returned, scalar⟩ := defaultOfFirst_prints typed
  have same := defaultOfFirst_alike related
  rw [returned] at same ⊢
  generalize defaultOfFirst others = outcome at same ⊢
  cases same with
  | ok sameValue => rw [sameValue.eq_of_scalar scalar]

theorem buildParameter_alike (typed : WellTyped (.obj node))
    (related : Dict.Alike isRead node other) (docParams : List (Text × ParamEntry)) :
    buildParameter node docParams = buildParameter other docParams := by
  apply (getDict_alike related "type" rfl).bind_eq
  intro typeInfo typeInfoOther sameType
  simp only [getText?_alike sameType "qualType" rfl,
    getText?_alike sameType "desugaredQualType" rfl, getText_alike related "name" "" rfl]
  have children := getList_alike related "inner" rfl
  generalize read : node.getList "inner" = outcome, other.getList "inner" = outcomeOther
    at children ⊢
  cases children with
  | error fault => rfl
  | ok same => simp only [ok_bind, defaultOfFirst_eq_of_typed (typed.items read) same]

theorem buildFunction_alike (environment : Environment) (typed : WellTyped (.obj node))
    (related : Dict.Alike isRead node other) :
    buildFunction environment node = buildFunction environment other := by
  apply (getDict_alike related "type" rfl).bind_eq
  intro typeInfo typeInfoOther sameType
  simp only [getText_alike sameType "qualType" "" rfl, extractComment_alike related,
    getText?_alike related "name" rfl, getText_alike related "mangledName" _ rfl,
    declarationFile_alike typed related,
    (related.get "inline" rfl).eq_of_scalar (get_printable typed.conforms (.inr (.inl rfl)))]
  obtain ⟨children, read, typedChildren⟩ := typed.childObjects
  have same := childObjects_alike related
  rw [read] at same ⊢
  generalize other.childObjects = outcome at same ⊢
  cases same with
  | ok sameChildren =>
      have sameParameters := filter_related sameChildren fun _ _ here =>
        hasKind_alike here "ParmVarDecl"
      have parameters (doc : Doc) := mapM_related sameParameters
        fun child childOther membership sameChild =>
          buildParameter_alike (typedChildren child (List.mem_filter.mp membership).1) sameChild
            doc.params
      simp only [ok_bind, parameters]

theorem functionFields_alike (environment : Environment) (typed : WellTyped (.obj node))
    (related : Dict.Alike isRead node other) :
    functionFields environment node = functionFields environment other := by
  simp only [functionFields, buildFunction_alike environment typed related,
    commentFields_alike related]

end Functions

section Trees

variable {environment : Environment} {ast other : Json}

/-- The comprehension, when every test for exported functions succeeds. -/
theorem exportedFields_eq_mapM {nodes : List Dict}
    (decided : ∀ node ∈ nodes, Succeeds (isExportedFunction environment node)) :
    exportedFields environment nodes =
      (nodes.filter fun node => isExportedFunction environment node = .ok true).mapM
        (functionFields environment) := by
  induction nodes with
  | nil => rfl
  | cons node nodes inductionHypothesis =>
      obtain ⟨⟨exported, here⟩, later⟩ := List.forall_mem_cons.mp decided
      rw [exportedFields, here, ok_bind, inductionHypothesis later]
      cases exported with
      | false => rw [List.filter_cons_of_neg (by simp [here]), if_neg Bool.false_ne_true]
      | true =>
          rw [List.filter_cons_of_pos (by simp [here]), if_pos rfl, List.mapM_cons]

theorem itemName_functionFields {node : Dict} {fields : Dict}
    (exported : isExportedFunction environment node = .ok true)
    (filled : functionFields environment node = .ok fields) : itemName fields = nameOf node := by
  obtain ⟨function, built, filled⟩ := bind_eq_ok_iff.mp filled
  obtain ⟨doc, _, returned⟩ := bind_eq_ok_iff.mp filled
  cases returned
  obtain ⟨comment, source⟩ := buildFunction_eq_ok built
  have named := source.name.symm.trans (isExportedFunction_name exported)
  exact Option.some.inj (Except.ok.inj named)

theorem itemNames_eq {nodes items : List Dict}
    (exported : ∀ node ∈ nodes, isExportedFunction environment node = .ok true)
    (filled : nodes.mapM (functionFields environment) = .ok items) :
    items.map itemName = nodes.map nameOf := by
  induction nodes generalizing items with
  | nil =>
      cases filled
      rfl
  | cons node nodes inductionHypothesis =>
      obtain ⟨here, later⟩ := List.forall_mem_cons.mp exported
      rw [List.mapM_cons] at filled
      obtain ⟨fields, filledHere, filled⟩ := bind_eq_ok_iff.mp filled
      obtain ⟨rest, filledLater, returned⟩ := bind_eq_ok_iff.mp filled
      cases returned
      rw [List.map_cons, List.map_cons, itemName_functionFields here filledHere,
        inductionHypothesis later filledLater]

/-- What is collected from the nodes of a tree is what is collected from those of the other one,
in another order. -/
theorem exportedFields_alike {items : List Dict} (typed : WellTyped ast)
    (related : Json.Alike isRead ast other)
    (collected : exportedFields environment ast.objects = .ok items) :
    items.map itemName = (exportedNodes environment ast).map nameOf ∧
      ∃ shuffled, exportedFields environment other.objects = .ok shuffled ∧
        items.Perm shuffled := by
  obtain ⟨nodes, permuted, same⟩ := exists_objects related
  have typedNodes : ∀ node ∈ nodes, WellTyped (.obj node) := fun node membership =>
    typed.nested (permuted.mem_iff.mpr membership)
  have decided : ∀ node ∈ ast.objects, Succeeds (isExportedFunction environment node) :=
    fun node membership => isExportedFunction_succeeds environment (typed.nested membership)
  have same := (List.forall₂_and_left nodes other.objects).mpr ⟨typedNodes, same⟩
  have decidedOther : ∀ node ∈ other.objects, Succeeds (isExportedFunction environment node) := by
    intro node membership
    obtain ⟨original, _, typedHere, here⟩ := exists_of_mem_right same membership
    rw [← isExportedFunction_alike environment typedHere here]
    exact isExportedFunction_succeeds environment typedHere
  rw [exportedFields_eq_mapM decided] at collected
  rw [exportedFields_eq_mapM decidedOther]
  refine ⟨itemNames_eq (fun node membership => ?_) collected, ?_⟩
  · exact of_decide_eq_true (List.mem_filter.mp membership).2
  have exportedPermuted := permuted.filter fun node =>
    isExportedFunction environment node = .ok true
  obtain ⟨shuffled, ran, permutedItems⟩ := mapM_of_perm exportedPermuted collected
  refine ⟨shuffled, ?_, permutedItems⟩
  have sameDecision (node otherNode : Dict)
      (here : WellTyped (.obj node) ∧ Dict.Alike isRead node otherNode) :
      decide (isExportedFunction environment node = .ok true) =
        decide (isExportedFunction environment otherNode = .ok true) := by
    rw [isExportedFunction_alike environment here.1 here.2]
  have sameExported := filter_related same sameDecision
  rw [← ran]
  symm
  apply mapM_related sameExported
  intro node otherNode _ here
  exact functionFields_alike environment here.1 here.2

/-- The names are distinct, so that the order of the nodes does not show either. -/
theorem metadataFields_alike (publicHeader : Text) (typed : WellTyped ast)
    (related : Json.Alike isRead ast other)
    (distinct : ((exportedNodes environment ast).map nameOf).Nodup) :
    ∃ fields, metadataFields environment publicHeader ast = .ok fields ∧
      metadataFields environment publicHeader other = .ok fields := by
  obtain ⟨built, returned, _, _⟩ := main_eq_ok environment publicHeader typed
  obtain ⟨fields, filled, _⟩ := metadataFields_of_main returned
  refine ⟨fields, filled, ?_⟩
  obtain ⟨items, collected, returned⟩ := bind_eq_ok_iff.mp filled
  cases returned
  rw [walk_eq_objects] at collected
  obtain ⟨names, shuffled, collectedOther, permuted⟩ :=
    exportedFields_alike typed related collected
  rw [← names] at distinct
  have sameOrder := StableSort.eq_of_perm (StableSort.mergeSort itemName items)
    (StableSort.mergeSort itemName shuffled) permuted distinct
  rw [sameOrder, metadataFields, walk_eq_objects, collectedOther]
  rfl

end Trees

open JsonText

/-- Files whose trees read alike are reduced to the same file: neither their layout, nor the order
of the fields of a node, nor a scalar that is not looked up shows in it. -/
theorem reduce_alike {format : FloatFormat} {environment : Environment}
    {publicHeader input inputOther : Text} {ast other : Json}
    (loaded : load format input = some ast) (loadedOther : load format inputOther = some other)
    (typed : WellTyped ast) (related : Json.Alike isRead ast other)
    (distinct : ((exportedNodes environment ast).map nameOf).Nodup) :
    ∃ output, reduce format environment publicHeader input = some output ∧
      reduce format environment publicHeader inputOther = some output := by
  obtain ⟨fields, filled, filledOther⟩ :=
    metadataFields_alike publicHeader typed related distinct
  refine ⟨dump 2 (.obj fields) ++ ['\n'], ?_, ?_⟩
  · simp only [reduce, loaded, filled, Except.toOption, Option.bind_eq_bind, Option.bind_some]
    rfl
  · simp only [reduce, loadedOther, filledOther, Except.toOption, Option.bind_eq_bind,
      Option.bind_some]
    rfl

/-- An object can be stripped of all of its fields. -/
example : Dict.Alike isRead [("loc", .obj [])] [("loc", .obj [("offset", .int 5)])] :=
  .obj (by decide) (.refl _) rfl (.cons (.obj (by decide) (.refl _) rfl .nil) .nil)

/-- The declaration of `exportedDeclaration` in another run: with identifiers, and backwards. -/
def otherDeclaration (name : Text) : Dict :=
  [("id", .str "0x7f1c"),
    ("inner", .arr [.obj [("visibility", .str "default"), ("id", .str "0x7f2a"),
      ("kind", .str "VisibilityAttr")]]),
    ("type", .obj [("qualType", .str "auto () -> int")]), ("mangledName", .str name),
    ("name", .str name),
    ("loc", .obj [("offset", .int 17),
      ("file", .str "include/cpp_core/interface/serial_close.h")]),
    ("kind", .str "FunctionDecl")]

theorem otherDeclaration_alike (name : Text) :
    Dict.Alike isRead (exportedDeclaration name) (otherDeclaration name) := by
  have visibility : Dict.Alike isRead
      [("kind", .str "VisibilityAttr"), ("visibility", .str "default")]
      [("visibility", .str "default"), ("id", .str "0x7f2a"), ("kind", .str "VisibilityAttr")] :=
    .obj (by decide) (.swap _ _ _) rfl
      (.cons (.scalar rfl) (.cons (.scalar rfl) .nil))
  have type : Dict.Alike isRead [("qualType", .str "auto () -> int")]
      [("qualType", .str "auto () -> int")] :=
    .obj (by decide) (.refl _) rfl (.cons (.scalar rfl) .nil)
  have loc : Dict.Alike isRead [("file", .str "include/cpp_core/interface/serial_close.h")]
      [("offset", .int 17), ("file", .str "include/cpp_core/interface/serial_close.h")] :=
    .obj (by decide) (.refl _) rfl (.cons (.scalar rfl) .nil)
  have backwards := List.reverse_perm (exportedDeclaration name)
  refine .obj ?_ backwards.symm rfl ?_
  · exact (by decide : (Assignment.keys (exportedDeclaration [])).Nodup)
  · exact .cons (.arr (.cons visibility .nil)) (.cons type (.cons (.scalar rfl)
      (.cons (.scalar rfl) (.cons loc (.cons (.scalar rfl) .nil)))))

theorem reduce_alike_declaration :
    ∃ output, reduce .verbatim checkout "cpp_core.h"
        (dump 2 (.obj (exportedDeclaration "serialClose")) ++ ['\n']) = some output ∧
      reduce .verbatim checkout "cpp_core.h"
        (dump 0 (.obj (otherDeclaration "serialClose")) ++ ['\n', ' ']) = some output := by
  have line : ∀ char ∈ ['\n'], isSpace char = true := List.forall_mem_singleton.mpr rfl
  have lineAndSpace : ∀ char ∈ ['\n', ' '], isSpace char = true :=
    List.forall_mem_cons.mpr ⟨rfl, List.forall_mem_singleton.mpr rfl⟩
  apply reduce_alike (load_dump ?_ 2 line) (load_dump ?_ 0 lineAndSpace)
  · decide
  · exact otherDeclaration_alike "serialClose"
  · decide
  · exact ⟨by decide, trivial, ⟨by decide, trivial, trivial⟩, trivial, trivial,
      ⟨by decide, trivial, trivial⟩, ⟨⟨by decide, trivial, trivial, trivial⟩, trivial⟩, trivial⟩
  · exact ⟨by decide, trivial, ⟨⟨by decide, trivial, trivial, trivial, trivial⟩, trivial⟩,
      ⟨by decide, trivial, trivial⟩, trivial, trivial, ⟨by decide, trivial, trivial, trivial⟩,
      trivial, trivial⟩

end CppCore.Ffi
