import CppCore.Ffi.Documentation
import CppCore.Ffi.NormalForm

/-!
# Invariants of the metadata

What holds of the metadata of every tree whose fields have the types that clang
gives them.
-/

namespace CppCore.Ffi

open Dict Fallible

/-- A text of the documentation. -/
structure Proper (text : Text) : Prop where
  nonempty : text ≠ []
  tidy : Tidy text

structure ParamEntry.WellFormed (entry : ParamEntry) : Prop where
  description : Proper entry.description
  direction : entry.direction ≠ some []

structure FunctionPointer.WellFormed (callback : FunctionPointer) : Prop where
  returnType : Text.Trimmed callback.returnType
  parameters : ∀ parameter ∈ callback.parameters, Standalone parameter

structure Parameter.WellFormed (parameter : Parameter) : Prop where
  default : parameter.default ≠ some .null
  callback : ∀ callback ∈ parameter.callback, callback.WellFormed
  doc : ∀ entry ∈ parameter.doc, parameter.name ≠ [] ∧ entry.WellFormed

structure Doc.WellFormed (doc : Doc) : Prop where
  present : doc.isEmpty = false
  brief : ∀ text ∈ doc.brief, Proper text
  returns : ∀ text ∈ doc.returns, Proper text
  details : ∀ text ∈ doc.details, Proper text
  params : doc.params = []

structure Function.WellFormed (function : Function) : Prop where
  name : function.name ≠ []
  symbol : function.symbol = function.name ∨ function.symbol = []
  declaredIn : ∃ header, function.declaredIn = some ("cpp_core/".toList ++ header)
  parameters : ∀ parameter ∈ function.parameters, parameter.WellFormed
  doc : ∀ doc ∈ function.doc, doc.WellFormed

structure Metadata.WellFormed (metadata : Metadata) : Prop where
  functions : ∀ function ∈ metadata.functions, function.WellFormed
  sorted : metadata.functions.Pairwise fun first second => first.name ≤ second.name

section Comments

variable {block : Dict} {blocks : List Dict}

/-- The blocks that are read are containers. -/
theorem isContainer_of_kind {kind : Text} (isKind : block.hasKind kind = true)
    (notText : kind ≠ "TextComment") (notCommand : kind ≠ "InlineCommandComment") :
    IsContainer block := by
  constructor
  · rw [hasKind_eq isKind]
    exact mt of_decide_eq_true notText
  · rw [hasKind_eq isKind]
    exact mt of_decide_eq_true notCommand

theorem isContainer_of_blockKind (read : blockKind block ≠ .other) : IsContainer block := by
  unfold blockKind at read
  split_ifs at read with isBrief isReturns isParam isParagraph
  · exact isContainer_of_kind (Bool.and_eq_true_iff.mp isBrief).1 (by decide) (by decide)
  · exact isContainer_of_kind (Bool.and_eq_true_iff.mp isReturns).1 (by decide) (by decide)
  · exact isContainer_of_kind isParam (by decide) (by decide)
  · exact isContainer_of_kind isParagraph (by decide) (by decide)
  · exact absurd rfl read

theorem proper_blockText (read : blockKind block ≠ .other) {text : Text}
    (isText : blockText? block = some text) : Proper text := by
  obtain ⟨rendered, nonempty⟩ := Option.filter_eq_some_iff.mp isText
  have rendered : textFromComment block = .ok text := by
    cases outcome : textFromComment block with
    | error fault =>
        rw [outcome] at rendered
        cases rendered
    | ok result =>
        rw [outcome] at rendered
        cases rendered
        rfl
  rw [textFromComment_eq_normalize (isContainer_of_blockKind read)] at rendered
  refine ⟨of_decide_eq_true nonempty, ?_⟩
  cases joined : joinedText block with
  | error fault =>
      rw [joined] at rendered
      cases rendered
  | ok text =>
      rw [joined] at rendered
      cases rendered
      exact tidy_normalize text

theorem proper_textsOf {kind : BlockKind} (read : kind ≠ .other) :
    ∀ text ∈ textsOf kind blocks, Proper text := by
  intro text membership
  obtain ⟨block, selected, isText⟩ := List.mem_filterMap.mp membership
  have isKind : blockKind block = kind := of_decide_eq_true (List.mem_filter.mp selected).2
  exact proper_blockText (isKind ▸ read) isText

theorem wellFormed_entriesOf {name : Text} {entry : ParamEntry}
    (membership : (name, entry) ∈ entriesOf blocks) : name ≠ [] ∧ entry.WellFormed := by
  obtain ⟨block, selected, read⟩ := List.mem_filterMap.mp membership
  have isParam : blockKind block = .param := of_decide_eq_true (List.mem_filter.mp selected).2
  obtain ⟨found, named, read⟩ := Option.bind_eq_some_iff.mp read
  obtain ⟨text, isText, read⟩ := Option.bind_eq_some_iff.mp read
  obtain ⟨direction, _, returned⟩ := Option.bind_eq_some_iff.mp read
  cases returned
  refine ⟨of_decide_eq_true (Option.filter_eq_some_iff.mp named).2, ?_, ?_⟩
  · exact proper_blockText (by rw [isParam]; decide) isText
  · intro empty
    exact absurd rfl (of_decide_eq_true (Option.filter_eq_some_iff.mp empty).2)

end Comments

section Functions

theorem wellFormed_callback {typeName : Text} {callback : FunctionPointer}
    (parsed : parseFunctionPointer typeName = some callback) : callback.WellFormed := by
  obtain ⟨⟨returnType, params⟩, _, returned⟩ := Option.bind_eq_some_iff.mp parsed
  cases returned
  refine ⟨Text.strip_trimmed returnType, ?_⟩
  intro parameter membership
  split_ifs at membership
  · cases membership
  · exact standalone_of_mem_splitTopLevel membership

theorem presentDefault_ne_null (value : Json) : presentDefault value ≠ some .null := by
  cases value <;> simp [presentDefault]

theorem wellFormed_parameter {node : Dict} {docParams : List (Text × ParamEntry)}
    {parameter : Parameter} (source : ParameterFrom node docParams parameter) {blocks : List Dict}
    (documented : parameter.doc = (entriesOf blocks).reverse.lookup parameter.name) :
    parameter.WellFormed where
  default := by
    obtain ⟨_, value, _, _, same⟩ := source.default
    rw [same]
    exact presentDefault_ne_null value
  callback := by
    obtain ⟨_, _, _, _, _, _, _, same⟩ := source.types
    intro callback isCallback
    rw [same] at isCallback
    exact wellFormed_callback isCallback
  doc := by
    intro entry isEntry
    rw [documented] at isEntry
    obtain ⟨before, behind, shape, _⟩ := List.lookup_eq_some_iff.mp isEntry
    apply wellFormed_entriesOf
    rw [← List.mem_reverse, shape]
    exact List.mem_append_right _ List.mem_cons_self

theorem wellFormed_doc {blocks : List Dict} {function : Function}
    (documented : DocumentedBy blocks function) : ∀ doc ∈ function.doc, doc.WellFormed := by
  intro doc isDoc
  obtain ⟨brief, returns, details, params⟩ := documented.doc doc isDoc
  have absent : function.doc ≠ none := by
    rw [isDoc]
    exact nofun
  refine ⟨?_, ?_, ?_, ?_, params⟩
  · have something := mt (isEmpty_docOf_iff.trans documented.present.symm).mp absent
    rw [Doc.isEmpty, brief, returns, details]
    exact Bool.eq_false_iff.mpr something
  · rw [brief]
    exact fun text isLast => proper_textsOf (by decide) text (List.mem_of_getLast? isLast)
  · rw [returns]
    exact fun text isLast => proper_textsOf (by decide) text (List.mem_of_getLast? isLast)
  · rw [details]
    exact proper_textsOf (by decide)

/-- What the test for exported functions has seen. -/
theorem isExportedFunction_true {environment : Environment} {node : Dict}
    (exported : isExportedFunction environment node = .ok true) : ∃ name mangled path file,
      node.getText? "name" = .ok (some name) ∧ name ≠ [] ∧
      node.getText? "mangledName" = .ok mangled ∧
      (∀ symbol ∈ mangled, symbol = [] ∨ symbol = name) ∧
      declarationFile node = .ok file ∧
      normalizePath environment file = some ("include/cpp_core/".toList ++ path) := by
  unfold isExportedFunction at exported
  split_ifs at exported
  · cases exported
  obtain ⟨name, readName, exported⟩ := bind_eq_ok_iff.mp exported
  match name with
  | none | some [] => cases exported
  | some (first :: rest) =>
      obtain ⟨visible, _, exported⟩ := bind_eq_ok_iff.mp exported
      split_ifs at exported
      · cases exported
      obtain ⟨mangled, readMangled, exported⟩ := bind_eq_ok_iff.mp exported
      split_ifs at exported with isMangled
      · cases exported
      obtain ⟨file, readFile, exported⟩ := bind_eq_ok_iff.mp exported
      cases located : normalizePath environment file with
      | none =>
          rw [located] at exported
          cases exported
      | some path =>
          rw [located] at exported
          obtain ⟨inside, shape⟩ := List.isPrefixOf_iff_prefix.mp (Except.ok.inj exported)
          refine ⟨first :: rest, mangled, inside, file, readName, List.cons_ne_nil _ _,
            readMangled, ?_, readFile, located.trans (congrArg some shape.symm)⟩
          rintro symbol ⟨⟩
          by_contra neither
          exact isMangled (decide_eq_true (not_or.mp neither))

theorem getText_eq_ok {node : Dict} {key fallback text : Text}
    (read : node.getText key fallback = .ok text) :
    text = fallback ∨ node.getText? key = .ok (some text) := by
  unfold getText at read
  cases found : node.lookup key with
  | none =>
      rw [found] at read
      cases read
      exact .inl rfl
  | some value =>
      rw [found] at read
      cases value with
      | str content =>
          cases read
          right
          rw [getText?, Dict.get, found]
          rfl
      | _ => cases read

theorem wellFormed_function {environment : Environment} {node : Dict} {function : Function}
    (exported : isExportedFunction environment node = .ok true)
    (built : buildFunction environment node = .ok function) : function.WellFormed := by
  obtain ⟨name, mangled, inside, file, readName, nonempty, readMangled, unmangled, readFile,
    located⟩ := isExportedFunction_true exported
  obtain ⟨comment, source⟩ := buildFunction_eq_ok built
  obtain ⟨blocks, _, documented⟩ := buildFunction_documentedBy built
  have named : function.name = name :=
    Option.some.inj (Except.ok.inj (source.name.symm.trans readName))
  refine ⟨named ▸ nonempty, ?_, ?_, ?_, wellFormed_doc documented⟩
  · rcases getText_eq_ok source.symbol with same | read
    · exact .inl same
    · have isMangled : mangled = some function.symbol :=
        Except.ok.inj (readMangled.symm.trans read)
      rw [named]
      exact (unmangled _ isMangled).symm
  · obtain ⟨path, readPath, declaredIn⟩ := source.declaredIn
    have same : path = file := Except.ok.inj (readPath.symm.trans readFile)
    refine ⟨inside, ?_⟩
    rw [declaredIn, normalizeHeaderPath, same, located]
    rfl
  · intro parameter membership
    obtain ⟨children, _, builtParameters⟩ := source.parameters
    obtain ⟨child, _, builtParameter⟩ :=
      exists_of_mem_right (forall₂_of_mapM builtParameters) membership
    exact wellFormed_parameter (buildParameter_eq_ok builtParameter)
      (documented.parameters parameter membership)

/-- Every well-typed tree is reduced, and the invariants hold of its metadata. -/
theorem main_wellFormed (environment : Environment) (publicHeader : Text) {ast : Json}
    (typed : WellTyped ast) :
    ∃ metadata, main environment publicHeader ast = .ok metadata ∧ metadata.WellFormed := by
  obtain ⟨built, returned, _⟩ := main_eq_ok environment publicHeader typed
  refine ⟨_, returned, ?_, (sortByName_stable built).ordered⟩
  intro function membership
  obtain ⟨node, isExported, isBuilt⟩ := exists_exportedNode returned membership
  exact wellFormed_function (of_decide_eq_true (List.mem_filter.mp isExported).2) isBuilt

/-- The only function is documented, and so is its parameter. -/
theorem main_wellFormed_documentedClose : ∃ function,
    main checkout "cpp_core.h" documentedClose =
      .ok ⟨"cpp_core_ffi_api", 1, "cpp_core.h", [function]⟩ ∧
    function.name = "serialClose" ∧
    function.doc = some ⟨some "Close a previously opened port.", none, [], []⟩ ∧
    function.parameters.map (fun parameter => (parameter.name, parameter.doc)) =
      [("handle".toList, some ⟨"Port handle to close.", some "in".toList⟩)] ∧
    function.WellFormed := by
  obtain ⟨function, returned, name, doc, parameters⟩ := main_documentedClose
  obtain ⟨metadata, returnedToo, wellFormed⟩ := main_wellFormed checkout "cpp_core.h"
    (show WellTyped documentedClose by decide)
  cases Except.ok.inj (returned.symm.trans returnedToo)
  exact ⟨function, returned, name, doc, parameters,
    wellFormed.functions function List.mem_cons_self⟩

end Functions

end CppCore.Ffi
