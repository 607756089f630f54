import CppCore.Ffi.Callbacks
import CppCore.Ffi.Defaults
import CppCore.Ffi.Invariants
import CppCore.Ffi.MetadataFile
import CppCore.Ffi.ReturnTypes

/-!
# The interface is preserved

The functions that headers declare, and what a reader of the metadata file learns
about them.  Names, types and callbacks come through the tree and the file as
they were declared; so do the default arguments, as long as none is garbled.
-/

namespace CppCore.Ffi

open Cpp Dict Fallible JsonText

/-- A parameter in a declaration.  Its type may be given by an alias. -/
structure Argument where
  name : Text
  typedefName : Option TypeName
  type : ParameterType
  default : Option Expression

/-- How a header declares the type of a function, which is how clang prints it. -/
inductive FunctionSpelling where
  | classic
  | tight
  | trailing
  | noexcept
  deriving DecidableEq

def FunctionSpelling.text : FunctionSpelling → Text → List Text → Text
  | .classic => classicFunction
  | .tight => tightFunction
  | .trailing => trailingFunction
  | .noexcept => noexceptFunction

/-- The declaration of a function with C linkage. -/
structure Prototype where
  name : Text
  spelling : FunctionSpelling
  returnType : Text
  arguments : List Argument

/-- The type as the header has it. -/
def Argument.written (argument : Argument) : Text :=
  (argument.typedefName.map TypeName.text).getD argument.type.text

def Prototype.typeText (prototype : Prototype) : Text :=
  prototype.spelling.text prototype.returnType (prototype.arguments.map Argument.written)

/-- What calls a callback has to know. -/
def ParameterType.signature : ParameterType → Option FunctionPointer
  | .named _ => none
  | .functionPointer returnType parameters => some ⟨returnType.text, parameterTexts parameters⟩

/-- The return type of a callback has no parentheses, and `void` is no parameter. -/
def ParameterType.Declarable : ParameterType → Prop
  | .named _ => True
  | .functionPointer returnType parameters =>
      FlatType returnType.text ∧ parameterTexts parameters ≠ ["void".toList]

/-- The prototypes whose types can be taken apart: no return type has an arrow, one that stands in
front of the parameters has no parentheses, and then the parameters have no arrow either; and so
can the types of the callbacks. -/
structure Prototype.Separable (prototype : Prototype) : Prop where
  returnType : ArrowFreeType prototype.returnType
  leading : prototype.spelling = .classic ∨ prototype.spelling = .tight →
    PlainType prototype.returnType ∧
      ∀ argument ∈ prototype.arguments, ¬ "->".toList <:+: argument.written
  callbacks : ∀ argument ∈ prototype.arguments, argument.type.Declarable

section Trees

/-- The node of a parameter.  The type behind an alias is spelled out beside it. -/
structure SpellsArgument (node : Dict) (argument : Argument) : Prop where
  name : node.getText "name" "" = .ok argument.name
  type : ∃ typeInfo, node.getDict "type" = .ok typeInfo ∧
    typeInfo.getText? "qualType" = .ok (some argument.written) ∧
    typeInfo.getText? "desugaredQualType" =
      .ok (argument.typedefName.map fun _ => argument.type.text)
  default : ∃ children, node.getList "inner" = .ok children ∧
    Option.Rel Declares (children.findSome? Json.asDict) argument.default

/-- The node of a function with C linkage. -/
structure Spells (node : Dict) (prototype : Prototype) : Prop where
  name : node.getText? "name" = .ok (some prototype.name)
  linkage : node.getText "mangledName" prototype.name = .ok prototype.name
  type : ∃ typeInfo, node.getDict "type" = .ok typeInfo ∧
    typeInfo.getText "qualType" "" = .ok prototype.typeText
  arguments : ∃ children, node.childObjects = .ok children ∧
    List.Forall₂ SpellsArgument (children.filter fun child => child.hasKind "ParmVarDecl")
      prototype.arguments

end Trees

section Readers

/-- What a reader learns about a parameter, but for the value of its default. -/
structure DescribesArgument (parameter : Parameter) (argument : Argument) : Prop where
  name : parameter.name = argument.name
  type : parameter.type = some argument.written
  callback : parameter.callback = argument.type.signature
  default : parameter.default.isSome = argument.default.isSome

structure DescribesFunction (function : Function) (prototype : Prototype) : Prop where
  name : function.name = prototype.name
  symbol : function.symbol = prototype.name
  returnType : function.returnType = prototype.returnType
  parameters : List.Forall₂ DescribesArgument function.parameters prototype.arguments

/-- The default is read as the expression that was declared. -/
def KeepsDefault (parameter : Parameter) (argument : Argument) : Prop :=
  ∀ expression ∈ argument.default, ∃ text,
    parameter.default.bind resultText = some text ∧ read text = some expression

def KeepsDefaults (function : Function) (prototype : Prototype) : Prop :=
  List.Forall₂ KeepsDefault function.parameters prototype.arguments

/-- No default of the function has a doubled sign, or an operator in front of a boolean. -/
def Prototype.Legible (prototype : Prototype) : Prop :=
  ∀ argument ∈ prototype.arguments, ∀ expression ∈ argument.default,
    (∃ value, expression = .boolean value) ∨ Unbroken expression

def byName (prototypes : List Prototype) : List Prototype :=
  prototypes.mergeSort fun first second => first.name ≤ second.name

end Readers

section Types

theorem extractReturnType_typeText {prototype : Prototype} (separable : prototype.Separable) :
    extractReturnType prototype.typeText = prototype.returnType := by
  have leading := separable.leading
  rw [Prototype.typeText]
  cases spelling : prototype.spelling with
  | classic =>
      obtain ⟨plain, noArrow⟩ := leading (.inl spelling)
      apply extractReturnType_of_no_arrow plain
      rw [arrow_in_classicFunction_iff plain]
      rintro ⟨_, membership, occurs⟩
      obtain ⟨argument, isArgument, rfl⟩ := List.mem_map.mp membership
      exact noArrow argument isArgument occurs
  | tight =>
      obtain ⟨plain, noArrow⟩ := leading (.inr spelling)
      exact extractReturnType_tightFunction plain (List.forall_mem_map.mpr noArrow)
  | trailing => exact extractReturnType_trailingFunction separable.returnType _
  | noexcept => exact extractReturnType_noexceptFunction separable.returnType _

theorem NamedType.last_ne_close (type : NamedType) : type.text.getLast? ≠ some ')' := by
  cases type with
  | name name =>
      intro closes
      exact name.plain _ (List.mem_of_getLast? closes) (by decide)
  | template name arguments =>
      have closing : (NamedType.template name arguments).text.getLast? = some '>' := by
        rw [NamedType.text, ← List.append_assoc, ← List.append_assoc]
        exact List.getLast?_concat
      rw [closing]
      decide

/-- The type of a parameter is taken apart exactly if it is a function pointer. -/
theorem parseFunctionPointer_text {type : ParameterType} (declarable : type.Declarable) :
    parseFunctionPointer type.text = type.signature := by
  cases type with
  | named type =>
      have unmatched : signaturePattern type.text = [] := by
        apply List.eq_nil_iff_forall_not_mem.mpr
        rintro ⟨⟨returnType, params⟩, left⟩ matched
        rcases signaturePattern_last matched with closes | breaks
        · exact type.last_ne_close closes
        · exact type.passed.oneLine (List.mem_of_getLast? breaks)
      rw [ParameterType.text, parseFunctionPointer, Pattern.first, unmatched]
      rfl
  | functionPointer returnType parameters =>
      have space : ∀ char ∈ [' '], Text.isSpace char = true := List.forall_mem_singleton.mpr rfl
      rw [ParameterType.text, classicPointer_eq]
      exact parseFunctionPointer_of_passed declarable.1 space (parameterTexts_passed parameters)
        declarable.2

end Types

section Parameters

variable {node : Dict} {argument : Argument} {docParams : List (Text × ParamEntry)}
  {parameter : Parameter}

theorem defaultOfFirst_of_none {children : List Json}
    (none : children.findSome? Json.asDict = none) : defaultOfFirst children = .ok .null := by
  induction children with
  | nil => rw [defaultOfFirst]; rfl
  | cons child children inductionHypothesis =>
      cases child with
      | obj fields => cases none
      | _ =>
          rw [defaultOfFirst]
          · exact inductionHypothesis none
          · rintro _ ⟨⟩

theorem presentDefault_defaultValue (expression : Expression) :
    presentDefault (defaultValue expression) = some (defaultValue expression) := by
  cases expression <;> rfl

theorem buildParameter_default_eq (spelled : SpellsArgument node argument)
    (source : ParameterFrom node docParams parameter) :
    parameter.default = argument.default.map defaultValue := by
  obtain ⟨children, read, declared⟩ := spelled.default
  obtain ⟨_, value, readAgain, extracted, present⟩ := source.default
  rw [read] at readAgain
  cases readAgain
  rw [present]
  generalize first : children.findSome? Json.asDict = child, argument.default = default at declared
  cases declared with
  | none =>
      rw [defaultOfFirst_of_none first] at extracted
      cases extracted
      rfl
  | some declares =>
      rw [defaultOfFirst_eq first, extractDefaultExpr_of_declares declares] at extracted
      cases extracted
      exact presentDefault_defaultValue _

/-- Behind an alias it is the desugared type that is taken apart. -/
theorem chosen_type (argument : Argument) {text : Text}
    (chosen : ((argument.typedefName.map fun _ => argument.type.text).filter (· ≠ [])).or
      (some argument.written) = some text) : argument.type.text = text := by
  have nonempty := argument.type.passed.nonempty
  cases isAlias : argument.typedefName with
  | none =>
      rw [isAlias] at chosen
      rw [← Option.some.inj chosen, Argument.written, isAlias]
      rfl
  | some typedefName =>
      have kept : (some argument.type.text).filter (· ≠ []) = some argument.type.text :=
        Option.filter_some_pos (decide_eq_true nonempty)
      rw [isAlias, Option.map_some, kept] at chosen
      exact Option.some.inj chosen

theorem describesArgument (spelled : SpellsArgument node argument)
    (declarable : argument.type.Declarable)
    (source : ParameterFrom node docParams parameter) : DescribesArgument parameter argument where
  name := Except.ok.inj (source.name.symm.trans spelled.name)
  type := by
    obtain ⟨typeInfo, readType, written, _⟩ := spelled.type
    obtain ⟨_, _, _, readTypeAgain, readPublic, _⟩ := source.types
    rw [readType] at readTypeAgain
    cases readTypeAgain
    exact Except.ok.inj (readPublic.symm.trans written)
  callback := by
    obtain ⟨typeInfo, readType, written, meant⟩ := spelled.type
    obtain ⟨_, desugared, text, readTypeAgain, readPublic, readDesugared, chosen, parsed⟩ :=
      source.types
    rw [readType] at readTypeAgain
    cases readTypeAgain
    rw [written] at readPublic
    rw [meant] at readDesugared
    cases readDesugared
    have isPublic : parameter.type = some argument.written := (Except.ok.inj readPublic).symm
    rw [isPublic] at chosen
    rw [parsed, ← chosen_type argument chosen, parseFunctionPointer_text declarable]
  default := by
    rw [buildParameter_default_eq spelled source, Option.isSome_map]

/-- The default of a parameter is read as what it was exactly if it is not garbled. -/
theorem keepsDefault_iff (same : parameter.default = argument.default.map defaultValue) :
    KeepsDefault parameter argument ↔ ∀ expression ∈ argument.default,
      (∃ value, expression = .boolean value) ∨ Unbroken expression := by
  apply forall₂_congr
  intro expression isDefault
  rw [same, Option.mem_def.mp isDefault, Option.map_some, Option.bind_some]
  cases expression with
  | boolean value =>
      refine iff_of_true ?_ (.inl ⟨value, rfl⟩)
      cases value
      · exact ⟨_, rfl, by decide⟩
      · exact ⟨_, rfl, by decide⟩
  | _ =>
      rw [or_iff_right (by rintro ⟨_, ⟨⟩⟩), ← read_printed_iff]
      exact ⟨fun ⟨_, same, parsed⟩ => Option.some.inj same ▸ parsed, fun parsed => ⟨_, rfl, parsed⟩⟩

end Parameters

section Functions

variable {environment : Environment} {node : Dict} {prototype : Prototype} {function : Function}

theorem parameters_forall₂ {comment : Doc} (spelled : Spells node prototype)
    (separable : prototype.Separable) (source : FunctionFrom environment node comment function) :
    List.Forall₂ (fun parameter argument => DescribesArgument parameter argument ∧
      parameter.default = argument.default.map defaultValue)
      function.parameters prototype.arguments := by
  obtain ⟨children, read, arguments⟩ := spelled.arguments
  obtain ⟨_, readAgain, built⟩ := source.parameters
  rw [read] at readAgain
  cases readAgain
  apply forall₂_of_common (forall₂_of_mapM built)
    (forall₂_and_of_forall_mem arguments separable.callbacks)
  rintro child parameter argument builtParameter ⟨spelledArgument, declarable⟩
  have sourceParameter := buildParameter_eq_ok builtParameter
  exact ⟨describesArgument spelledArgument declarable sourceParameter,
    buildParameter_default_eq spelledArgument sourceParameter⟩

theorem describesFunction (spelled : Spells node prototype) (separable : prototype.Separable)
    (built : buildFunction environment node = .ok function) :
    DescribesFunction function prototype ∧
      (KeepsDefaults function prototype ↔ prototype.Legible) := by
  obtain ⟨comment, source⟩ := buildFunction_eq_ok built
  have parameters := parameters_forall₂ spelled separable source
  have name : function.name = prototype.name :=
    Option.some.inj (Except.ok.inj (source.name.symm.trans spelled.name))
  constructor
  · refine ⟨name, ?_, ?_, parameters.imp fun _ _ both => both.1⟩
    · have symbol := source.symbol
      rw [name, spelled.linkage] at symbol
      exact (Except.ok.inj symbol).symm
    · obtain ⟨typeInfo, readType, readName⟩ := spelled.type
      obtain ⟨_, _, readTypeAgain, readNameAgain, returnType⟩ := source.returnType
      rw [readType] at readTypeAgain
      cases readTypeAgain
      rw [readName] at readNameAgain
      cases readNameAgain
      rw [returnType, extractReturnType_typeText separable]
  · exact forall₂_iff_forall_mem (parameters.imp fun _ _ both => keepsDefault_iff both.2)

end Functions

/-- Whoever reads the metadata file of a tree gets the interface that the headers declare, in the
order of the names; and the values of all defaults exactly if none of them is garbled. -/
theorem reduce_preserves_interface {format : FloatFormat} {environment : Environment}
    {publicHeader input : Text} {ast : Json} {prototypes : List Prototype}
    (loaded : load format input = some ast) (typed : WellTyped ast)
    (spelled : List.Forall₂ Spells (exportedNodes environment ast) prototypes)
    (separable : ∀ prototype ∈ prototypes, prototype.Separable) :
    ∃ output metadata, reduce format environment publicHeader input = some output ∧
      (load format output).bind asMetadata = some metadata ∧
      List.Forall₂ DescribesFunction metadata.functions (byName prototypes) ∧
      (List.Forall₂ KeepsDefaults metadata.functions (byName prototypes) ↔
        ∀ prototype ∈ prototypes, prototype.Legible) := by
  obtain ⟨metadata, returned⟩ : Succeeds (main environment publicHeader ast) := by
    obtain ⟨built, returned, _⟩ := main_eq_ok environment publicHeader typed
    exact ⟨_, returned⟩
  obtain ⟨output, written, recovered⟩ := reduce_of_main loaded returned
  refine ⟨output, metadata, written, recovered, ?_⟩
  obtain ⟨functions, collected, returned⟩ := bind_eq_ok_iff.mp returned
  cases returned
  have built := exportedFunctions_forall₂ collected
  rw [walk_eq_objects] at built
  have described := forall₂_of_common built (forall₂_and_of_forall_mem spelled separable)
    fun node function prototype builtHere here => describesFunction here.1 here.2 builtHere
  have sorted : List.Forall₂ _ (sortByName functions) (byName prototypes) :=
    StableSort.forall₂_mergeSort (fun _ _ both => both.1.name) described
  refine ⟨sorted.imp fun _ _ both => both.1, ?_⟩
  rw [forall₂_iff_forall_mem (sorted.imp fun _ _ both => both.2)]
  simp only [byName, List.mem_mergeSort]

section MonitorPorts

def TypeName.constCharPointer : TypeName where
  text := "const char *"
  nonempty := by decide
  trimmed := by decide
  plain := by simp

def TypeName.void : TypeName where
  text := "void"
  nonempty := by decide
  trimmed := by decide
  plain := by simp

def TypeName.errorCallback : TypeName where
  text := "ErrorCallbackT"
  nonempty := by decide
  trimmed := by decide
  plain := by simp

/-- `void (*)(int, const char *)`, the type of both callbacks of `serialMonitorPorts` -/
def portCallback : ParameterType :=
  .functionPointer (.name .void) [.named (.name .int), .named (.name .constCharPointer)]

def monitorPortsPrototype : Prototype where
  name := "serialMonitorPorts"
  spelling := .trailing
  returnType := "int"
  arguments := [⟨"callback_fn", none, portCallback, none⟩,
    ⟨"error_callback", some .errorCallback, portCallback, some .nullptr⟩]

def monitorPortsParameters : List Dict :=
  [[("kind", .str "ParmVarDecl"), ("name", .str "callback_fn"),
      ("type", .obj [("qualType", .str "void (*)(int, const char *)")])],
    [("kind", .str "ParmVarDecl"), ("name", .str "error_callback"),
      ("type", .obj [("desugaredQualType", .str "void (*)(int, const char *)"),
        ("qualType", .str "ErrorCallbackT")]),
      ("inner", .arr [.obj [("kind", .str "ImplicitCastExpr"),
        ("inner", .arr [.obj [("kind", .str "CXXNullPtrLiteralExpr")]])]])]]

def monitorPorts : Dict :=
  [("kind", .str "FunctionDecl"),
    ("loc", .obj [("file", .str "include/cpp_core/interface/serial_monitor_ports.h")]),
    ("name", .str "serialMonitorPorts"), ("mangledName", .str "serialMonitorPorts"),
    ("type", .obj [("qualType", .str "auto (void (*)(int, const char *), ErrorCallbackT) -> int")]),
    ("inner", .arr (monitorPortsParameters.map .obj ++
      [.obj [("kind", .str "VisibilityAttr"), ("visibility", .str "default")]]))]

theorem spells_monitorPorts : Spells monitorPorts monitorPortsPrototype where
  name := rfl
  linkage := rfl
  type := ⟨_, rfl, rfl⟩
  arguments := by
    refine ⟨_, rfl, .cons ?_ (.cons ?_ .nil)⟩
    · exact ⟨rfl, ⟨_, rfl, rfl, rfl⟩, _, rfl, .none⟩
    · refine ⟨rfl, ⟨_, rfl, rfl, rfl⟩, _, rfl, .some ?_⟩
      exact .wrapper rfl rfl rfl (.nullptr rfl)

theorem separable_monitorPortsPrototype : monitorPortsPrototype.Separable where
  returnType := ⟨by decide, by decide, by decide, by decide⟩
  leading := by rintro (⟨⟨⟩⟩ | ⟨⟨⟩⟩)
  callbacks := by
    have declarable : portCallback.Declarable :=
      ⟨⟨by decide, by decide, by decide, by decide, by decide⟩, by decide⟩
    exact List.forall_mem_cons.mpr ⟨declarable, List.forall_mem_singleton.mpr declarable⟩

theorem storable_monitorPorts : Storable .verbatim (.obj monitorPorts) := by
  refine ⟨by decide, trivial, ⟨by decide, trivial, trivial⟩, trivial, trivial,
    ⟨by decide, trivial, trivial⟩, ⟨?_, ?_, ?_, trivial⟩, trivial⟩
  · exact ⟨by decide, trivial, trivial, ⟨by decide, trivial, trivial⟩, trivial⟩
  · exact ⟨by decide, trivial, trivial, ⟨by decide, trivial, trivial, trivial⟩,
      ⟨⟨by decide, trivial, ⟨⟨by decide, trivial, trivial⟩, trivial⟩, trivial⟩, trivial⟩, trivial⟩
  · exact ⟨by decide, trivial, trivial, trivial⟩

theorem reduce_preserves_interface_monitorPorts :
    ∃ output metadata, reduce .verbatim checkout "cpp_core/serial.h"
        (dump 1 (.obj monitorPorts) ++ ['\n']) = some output ∧
      (load .verbatim output).bind asMetadata = some metadata ∧
      List.Forall₂ DescribesFunction metadata.functions (byName [monitorPortsPrototype]) ∧
      (List.Forall₂ KeepsDefaults metadata.functions (byName [monitorPortsPrototype]) ↔
        ∀ prototype ∈ [monitorPortsPrototype], prototype.Legible) := by
  have line : ∀ char ∈ ['\n'], isSpace char = true := List.forall_mem_singleton.mpr rfl
  apply reduce_preserves_interface (load_dump storable_monitorPorts 1 line)
  · decide
  · have exported : exportedNodes checkout (.obj monitorPorts) = [monitorPorts] := rfl
    rw [exported]
    exact .cons spells_monitorPorts .nil
  · exact List.forall_mem_singleton.mpr separable_monitorPortsPrototype

end MonitorPorts

end CppCore.Ffi
