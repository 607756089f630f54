import CppCore.Ffi.Canonical
import CppCore.Ffi.Construction
import CppCore.Ffi.Conservation
import CppCore.Ffi.Nesting

/-!
# Documentation of a function

What the metadata says about a function, read off the blocks of its comment: the
last brief and the last return text, all paragraphs, and for each parameter the
last block that names it.
-/

namespace CppCore.Ffi

open Dict Fallible

inductive BlockKind where
  | brief
  | returns
  | param
  | paragraph
  | other
  deriving DecidableEq

def blockKind (child : Dict) : BlockKind :=
  if child.hasKind "BlockCommandComment" && (child.get "name").isText "brief" then .brief
  else if child.hasKind "BlockCommandComment" &&
      ((child.get "name").isText "return" || (child.get "name").isText "returns") then .returns
  else if child.hasKind "ParamCommandComment" then .param
  else if child.hasKind "ParagraphComment" then .paragraph
  else .other

/-- The blocks of the first full comment of a node. -/
def commentBlocks (node : Dict) : Except Fault (List Dict) := do
  match (← node.childObjects).find? fun child => child.hasKind "FullComment" with
  | none => return []
  | some fullComment => fullComment.childObjects

/-- The text of a block, if there is one. -/
def blockText? (block : Dict) : Option Text :=
  (textFromComment block).toOption.filter (· ≠ [])

/-- The texts of the blocks of a kind, in their order. -/
def textsOf (kind : BlockKind) (blocks : List Dict) : List Text :=
  (blocks.filter (blockKind · = kind)).filterMap blockText?

/-- The name that a block gives to a parameter, with what it says about it. -/
def readParam (block : Dict) : Option (Text × ParamEntry) := do
  let name ← ((block.getText? "param").toOption.join).filter (· ≠ [])
  let text ← blockText? block
  let direction ← (block.getText? "direction").toOption
  return (name, ⟨text, direction.filter (· ≠ [])⟩)

def entriesOf (blocks : List Dict) : List (Text × ParamEntry) :=
  (blocks.filter (blockKind · = .param)).filterMap readParam

/-- The comment that the blocks make up. -/
def docOf (blocks : List Dict) : Doc where
  brief := (textsOf .brief blocks).getLast?
  returns := (textsOf .returns blocks).getLast?
  details := textsOf .paragraph blocks
  params := Assignment.assignAll [] (entriesOf blocks)

section Blocks

variable {block : Dict} {blocks : List Dict} {doc next final : Doc}

theorem textsOf_concat (kind : BlockKind) (blocks : List Dict) (block : Dict) :
    textsOf kind (blocks ++ [block]) = textsOf kind blocks ++
      if blockKind block = kind then (blockText? block).toList else [] := by
  unfold textsOf
  rw [List.filter_append, List.filterMap_append]
  split_ifs with isKind
  · cases read : blockText? block with
    | none => simp [isKind, read]
    | some text => simp [isKind, read]
  · simp [isKind]

theorem entriesOf_concat (blocks : List Dict) (block : Dict) :
    entriesOf (blocks ++ [block]) = entriesOf blocks ++
      if blockKind block = .param then (readParam block).toList else [] := by
  unfold entriesOf
  rw [List.filter_append, List.filterMap_append]
  split_ifs with isKind
  · cases read : readParam block with
    | none => simp [isKind, read]
    | some entry => simp [isKind, read]
  · simp [isKind]

theorem blockText?_of_rendered {text : Text} (rendered : textFromComment block = .ok text) :
    blockText? block = if text = [] then none else some text := by
  rw [blockText?, rendered]
  split_ifs with empty
  · simp [Except.toOption, empty]
  · simp [Except.toOption, empty]

/-- What the loop does with a block, by its kind. -/
theorem addComment_eq (doc : Doc) (block : Dict) : addComment doc block =
    match blockKind block with
    | .brief => do
        let brief ← textFromComment block
        return if brief = [] then doc else { doc with brief := some brief }
    | .returns => do
        let returns ← textFromComment block
        return if returns = [] then doc else { doc with returns := some returns }
    | .param => do
        let name ← block.getText? "param"
        let text ← textFromComment block
        let direction ← block.getText? "direction"
        match name with
        | none | some [] => return doc
        | some name =>
            if text = [] then return doc
            else return { doc with
              params := Assignment.assign name ⟨text, direction.filter (· ≠ [])⟩ doc.params }
    | .paragraph => do
        let paragraph ← textFromComment block
        return if paragraph = [] then doc
          else { doc with details := doc.details ++ [paragraph] }
    | .other => return doc := by
  unfold addComment blockKind
  split_ifs <;> rfl

theorem readParam_of_read {name : Option Text} {text : Text} {direction : Option Text}
    (readName : block.getText? "param" = .ok name) (rendered : textFromComment block = .ok text)
    (readDirection : block.getText? "direction" = .ok direction) :
    readParam block = (name.filter (· ≠ [])).bind fun name =>
      if text = [] then none else some (name, ⟨text, direction.filter (· ≠ [])⟩) := by
  rw [readParam, readName, readDirection, blockText?_of_rendered rendered]
  change ((name.filter (· ≠ [])).bind fun name => _) = _
  congr 1
  funext name
  split_ifs <;> rfl

theorem addComment_docOf (added : addComment (docOf blocks) block = .ok next) :
    next = docOf (blocks ++ [block]) := by
  rw [addComment_eq] at added
  cases kind : blockKind block with
  | brief =>
      rw [kind] at added
      obtain ⟨text, rendered, returned⟩ := bind_eq_ok_iff.mp added
      cases returned
      have read := blockText?_of_rendered rendered
      by_cases empty : text = []
      · simp [docOf, textsOf_concat, entriesOf_concat, kind, read, empty]
      · simp [docOf, textsOf_concat, entriesOf_concat, kind, read, empty]
  | returns =>
      rw [kind] at added
      obtain ⟨text, rendered, returned⟩ := bind_eq_ok_iff.mp added
      cases returned
      have read := blockText?_of_rendered rendered
      by_cases empty : text = []
      · simp [docOf, textsOf_concat, entriesOf_concat, kind, read, empty]
      · simp [docOf, textsOf_concat, entriesOf_concat, kind, read, empty]
  | param =>
      rw [kind] at added
      obtain ⟨name, readName, added⟩ := bind_eq_ok_iff.mp added
      obtain ⟨text, rendered, added⟩ := bind_eq_ok_iff.mp added
      obtain ⟨direction, readDirection, returned⟩ := bind_eq_ok_iff.mp added
      have read := readParam_of_read readName rendered readDirection
      match name with
      | none | some [] =>
          cases returned
          have silent : readParam block = none := read
          simp [docOf, textsOf_concat, entriesOf_concat, kind, silent]
      | some (first :: rest) =>
          by_cases empty : text = []
          · simp only [empty, if_true] at returned
            cases returned
            simp [docOf, textsOf_concat, entriesOf_concat, kind, read, empty]
          · simp only [empty, if_false] at returned
            cases returned
            have spoken := read.trans (if_neg empty)
            simp [docOf, textsOf_concat, entriesOf_concat, kind, spoken, Assignment.assignAll]
  | paragraph =>
      rw [kind] at added
      obtain ⟨text, rendered, returned⟩ := bind_eq_ok_iff.mp added
      cases returned
      have read := blockText?_of_rendered rendered
      by_cases empty : text = []
      · simp [docOf, textsOf_concat, entriesOf_concat, kind, read, empty]
      · simp [docOf, textsOf_concat, entriesOf_concat, kind, read, empty]
  | other =>
      rw [kind] at added
      cases added
      simp [docOf, textsOf_concat, entriesOf_concat, kind]

/-- The loop over the blocks, from those that it has seen. -/
theorem foldlM_addComment {past : List Dict}
    (ran : blocks.foldlM addComment (docOf past) = .ok final) : final = docOf (past ++ blocks) := by
  induction blocks generalizing past with
  | nil =>
      cases ran
      rw [List.append_nil]
  | cons block blocks inductionHypothesis =>
      obtain ⟨next, added, ran⟩ := bind_eq_ok_iff.mp ran
      rw [addComment_docOf added] at ran
      rw [inductionHypothesis ran, List.append_assoc]
      rfl

theorem extractComment_eq_docOf {node : Dict} (extracted : extractComment node = .ok doc) :
    ∃ blocks, commentBlocks node = .ok blocks ∧ doc = docOf blocks := by
  obtain ⟨children, read, extracted⟩ := bind_eq_ok_iff.mp extracted
  rw [commentBlocks, read]
  simp only [ok_bind]
  cases found : children.find? fun child => child.hasKind "FullComment" with
  | none =>
      rw [found] at extracted
      cases extracted
      exact ⟨[], rfl, rfl⟩
  | some fullComment =>
      rw [found] at extracted
      obtain ⟨blocks, readBlocks, ran⟩ := bind_eq_ok_iff.mp extracted
      have ranOn : blocks.foldlM addComment (docOf []) = .ok doc := ran
      exact ⟨blocks, readBlocks, foldlM_addComment ranOn⟩

end Blocks

/-- The function says what the blocks of a comment do. -/
structure DocumentedBy (blocks : List Dict) (function : Function) : Prop where
  present : function.doc = none ↔
    ∀ kind ∈ [BlockKind.brief, .returns, .paragraph], textsOf kind blocks = []
  doc : ∀ doc ∈ function.doc, doc.brief = (textsOf .brief blocks).getLast? ∧
    doc.returns = (textsOf .returns blocks).getLast? ∧
    doc.details = textsOf .paragraph blocks ∧ doc.params = []
  parameters : ∀ parameter ∈ function.parameters,
    parameter.doc = (entriesOf blocks).reverse.lookup parameter.name

theorem isEmpty_docOf_iff {blocks : List Dict} : (docOf blocks).isEmpty = true ↔
    ∀ kind ∈ [BlockKind.brief, .returns, .paragraph], textsOf kind blocks = [] := by
  simp [Doc.isEmpty, docOf, and_assoc]

/-- Every function of the metadata is built from a node that is exported. -/
theorem exists_exportedNode {environment : Environment} {publicHeader : Text} {ast : Json}
    {metadata : Metadata} (returned : main environment publicHeader ast = .ok metadata)
    {function : Function} (membership : function ∈ metadata.functions) :
    ∃ node ∈ exportedNodes environment ast, buildFunction environment node = .ok function := by
  obtain ⟨functions, collected, returned⟩ := bind_eq_ok_iff.mp returned
  cases returned
  have inBuilt : function ∈ functions := List.mem_mergeSort.mp membership
  rw [exportedNodes, ← walk_eq_objects]
  exact exists_of_mem_right (exportedFunctions_forall₂ collected) inBuilt

theorem buildFunction_documentedBy {environment : Environment} {node : Dict} {function : Function}
    (built : buildFunction environment node = .ok function) :
    ∃ blocks, commentBlocks node = .ok blocks ∧ DocumentedBy blocks function := by
  obtain ⟨comment, source⟩ := buildFunction_eq_ok built
  obtain ⟨blocks, read, rfl⟩ := extractComment_eq_docOf source.extracted
  refine ⟨blocks, read, ?_, ?_, ?_⟩
  · rw [source.doc, ← isEmpty_docOf_iff]
    split_ifs with empty
    · exact iff_of_true rfl empty
    · exact iff_of_false nofun empty
  · intro doc isDoc
    rw [source.doc] at isDoc
    split_ifs at isDoc
    · cases isDoc
    · cases isDoc
      exact ⟨rfl, rfl, rfl, rfl⟩
  · intro parameter membership
    obtain ⟨children, _, builtParameters⟩ := source.parameters
    obtain ⟨child, _, builtParameter⟩ :=
      exists_of_mem_right (forall₂_of_mapM builtParameters) membership
    rw [(buildParameter_eq_ok builtParameter).doc]
    have last : (Assignment.assignAll [] (entriesOf blocks)).lookup parameter.name =
        ((entriesOf blocks).reverse.lookup parameter.name).or none :=
      Assignment.lookup_assignAll _ _
    rw [Option.or_none] at last
    exact last

/-- In the metadata of every tree, each function says what the comment of one of the nodes does
that are exported. -/
theorem main_documentedBy {environment : Environment} {publicHeader : Text} {ast : Json}
    {metadata : Metadata} (returned : main environment publicHeader ast = .ok metadata) :
    ∀ function ∈ metadata.functions, ∃ node ∈ exportedNodes environment ast, ∃ blocks,
      nameOf node = function.name ∧ commentBlocks node = .ok blocks ∧
        DocumentedBy blocks function := by
  intro function membership
  obtain ⟨node, exported, built⟩ := exists_exportedNode returned membership
  obtain ⟨blocks, read, documented⟩ := buildFunction_documentedBy built
  have named := isExportedFunction_name (of_decide_eq_true (List.mem_filter.mp exported).2)
  obtain ⟨comment, source⟩ := buildFunction_eq_ok built
  have same : some function.name = some (nameOf node) :=
    Except.ok.inj (source.name.symm.trans named)
  exact ⟨node, exported, blocks, (Option.some.inj same).symm, read, documented⟩

section Witness

theorem textFromComment_of_only_text {node : Dict} {text : Text} (container : IsContainer node)
    (onlyChild : node.getList "inner" = .ok [.obj (textNode text)]) :
    textFromComment node = .ok (normalize text) := by
  rw [textFromComment_of_only_child container onlyChild, textFromComment_textNode]
  rfl

def briefOfClose : Dict :=
  [("kind", .str "BlockCommandComment"), ("name", .str "brief"),
    ("inner", .arr [.obj (textNode "Close a previously opened port.")])]

def handleOfClose : Dict :=
  [("kind", .str "ParamCommandComment"), ("param", .str "handle"),
    ("inner", .arr [.obj (textNode "Port handle.")])]

def handleToClose : Dict :=
  [("kind", .str "ParamCommandComment"), ("param", .str "handle"), ("direction", .str "in"),
    ("inner", .arr [.obj (textNode "Port handle to close.")])]

/-- The parameter is described twice. -/
def blocksOfClose : List Dict := [briefOfClose, handleOfClose, handleToClose]

def parameterOfClose : Dict :=
  [("kind", .str "ParmVarDecl"), ("name", .str "handle"),
    ("type", .obj [("qualType", .str "int64_t")])]

def closeDeclaration : Dict :=
  [("kind", .str "FunctionDecl"),
    ("loc", .obj [("file", .str "include/cpp_core/interface/serial_close.h")]),
    ("name", .str "serialClose"), ("mangledName", .str "serialClose"),
    ("type", .obj [("qualType", .str "auto (int64_t) -> int")]),
    ("inner", .arr [.obj parameterOfClose,
      .obj [("kind", .str "VisibilityAttr"), ("visibility", .str "default")],
      .obj [("kind", .str "FullComment"), ("inner", .arr (blocksOfClose.map .obj))]])]

def documentedClose : Json := .obj closeDeclaration

theorem docOf_blocksOfClose : docOf blocksOfClose =
    ⟨some "Close a previously opened port.", none, [],
      [("handle", ⟨"Port handle to close.", some "in"⟩)]⟩ := by
  have brief : textFromComment briefOfClose = .ok "Close a previously opened port." := by
    rw [textFromComment_of_only_text ⟨by decide, by decide⟩ rfl, normalize_eq_moved]
    rfl
  have first : textFromComment handleOfClose = .ok "Port handle." := by
    rw [textFromComment_of_only_text ⟨by decide, by decide⟩ rfl, normalize_eq_moved]
    rfl
  have second : textFromComment handleToClose = .ok "Port handle to close." := by
    rw [textFromComment_of_only_text ⟨by decide, by decide⟩ rfl, normalize_eq_moved]
    rfl
  have briefs : textsOf .brief blocksOfClose = ["Close a previously opened port.".toList] := by
    have selected : blocksOfClose.filter (blockKind · = .brief) = [briefOfClose] := rfl
    rw [textsOf, selected, List.filterMap_cons, blockText?_of_rendered brief]
    rfl
  have entries : entriesOf blocksOfClose = [("handle".toList, ⟨"Port handle.", none⟩),
      ("handle".toList, ⟨"Port handle to close.", some "in".toList⟩)] := by
    have selected : blocksOfClose.filter (blockKind · = .param) = [handleOfClose, handleToClose] :=
      rfl
    rw [entriesOf, selected, List.filterMap_cons, readParam_of_read rfl first rfl,
      List.filterMap_cons, readParam_of_read rfl second rfl]
    rfl
  rw [docOf, briefs, entries]
  rfl

theorem main_documentedClose : ∃ function,
    main checkout "cpp_core.h" documentedClose =
      .ok ⟨"cpp_core_ffi_api", 1, "cpp_core.h", [function]⟩ ∧
    function.name = "serialClose" ∧
    function.doc = some ⟨some "Close a previously opened port.", none, [], []⟩ ∧
    function.parameters.map (fun parameter => (parameter.name, parameter.doc)) =
      [("handle".toList, some ⟨"Port handle to close.", some "in".toList⟩)] := by
  obtain ⟨built, returned, each, _⟩ := main_eq_ok checkout "cpp_core.h"
    (show WellTyped documentedClose by decide)
  have exported : exportedNodes checkout documentedClose = [closeDeclaration] := rfl
  rw [exported] at each
  obtain ⟨function, rfl, isBuilt⟩ := List.map_eq_singleton_iff.mp each.symm
  obtain ⟨comment, source⟩ := buildFunction_eq_ok isBuilt.symm
  obtain ⟨blocks, read, rfl⟩ := extractComment_eq_docOf source.extracted
  cases (Except.ok.inj read : blocksOfClose = blocks)
  refine ⟨function, returned.trans ?_, ?_, ?_, ?_⟩
  · rw [sortByName, List.mergeSort_singleton]
  · exact (Option.some.inj (Except.ok.inj source.name)).symm
  · rw [source.doc, docOf_blocksOfClose]
    rfl
  · obtain ⟨children, readChildren, parameters⟩ := source.parameters
    cases readChildren
    have related : List.Forall₂ (fun child parameter =>
        buildParameter child (docOf blocksOfClose).params = .ok parameter)
        [parameterOfClose] function.parameters := forall₂_of_mapM parameters
    obtain ⟨parameter, rest, isBuiltParameter, related, shape⟩ :=
      List.forall₂_cons_left_iff.mp related
    cases related
    have origin := buildParameter_eq_ok isBuiltParameter
    have named : parameter.name = "handle" := (Except.ok.inj origin.name).symm
    rw [shape, List.map_singleton, origin.doc, named, docOf_blocksOfClose]
    rfl

/-- The last description of the parameter is the one that counts. -/
theorem main_documentedBy_documentedClose : ∃ function,
    main checkout "cpp_core.h" documentedClose =
      .ok ⟨"cpp_core_ffi_api", 1, "cpp_core.h", [function]⟩ ∧
    function.name = "serialClose" ∧
    function.doc = some ⟨some "Close a previously opened port.", none, [], []⟩ ∧
    function.parameters.map (fun parameter => (parameter.name, parameter.doc)) =
      [("handle".toList, some ⟨"Port handle to close.", some "in".toList⟩)] ∧
    commentBlocks closeDeclaration = .ok blocksOfClose ∧ DocumentedBy blocksOfClose function := by
  obtain ⟨function, returned, name, doc, parameters⟩ := main_documentedClose
  obtain ⟨node, exported, blocks, _, read, documented⟩ :=
    main_documentedBy returned function List.mem_cons_self
  cases (List.mem_singleton.mp exported : node = closeDeclaration)
  cases (Except.ok.inj read : blocksOfClose = blocks)
  exact ⟨function, returned, name, doc, parameters, read, documented⟩

end Witness

end CppCore.Ffi
