import CppCore.Ffi.Reducer

/-!
# What the records are built from

A parameter or a function that the reducer returns, in terms of what it has read
from its node.
-/

namespace CppCore.Ffi

open Dict Fallible

/-- `default_value is not None` -/
def presentDefault : Json → Option Json
  | .null => none
  | value => some value

structure ParameterFrom (node : Dict) (docParams : List (Text × ParamEntry))
    (parameter : Parameter) : Prop where
  name : node.getText "name" "" = .ok parameter.name
  types : ∃ typeInfo desugared source, node.getDict "type" = .ok typeInfo ∧
    typeInfo.getText? "qualType" = .ok parameter.type ∧
    typeInfo.getText? "desugaredQualType" = .ok desugared ∧
    (desugared.filter (· ≠ [])).or parameter.type = some source ∧
    parameter.callback = parseFunctionPointer source
  default : ∃ children value, node.getList "inner" = .ok children ∧
    defaultOfFirst children = .ok value ∧ parameter.default = presentDefault value
  doc : parameter.doc = docParams.lookup parameter.name

theorem buildParameter_eq_ok {node : Dict} {docParams : List (Text × ParamEntry)}
    {parameter : Parameter} (built : buildParameter node docParams = .ok parameter) :
    ParameterFrom node docParams parameter := by
  unfold buildParameter at built
  simp only [bind_eq_ok_iff] at built
  obtain ⟨typeInfo, readType, publicType, readPublic, desugared, readDesugared, name, readName,
    children, readChildren, value, readDefault, returned⟩ := built
  cases source : (desugared.filter (· ≠ [])).or publicType with
  | none =>
      rw [source] at returned
      cases returned
  | some text =>
      rw [source] at returned
      cases returned
      exact {
        name := readName
        types := ⟨typeInfo, desugared, text, readType, readPublic, readDesugared, source, rfl⟩
        default := ⟨children, value, readChildren, readDefault, by cases value <;> rfl⟩
        doc := rfl }

structure FunctionFrom (environment : Environment) (node : Dict) (comment : Doc)
    (function : Function) : Prop where
  name : node.getText? "name" = .ok (some function.name)
  symbol : node.getText "mangledName" function.name = .ok function.symbol
  declaredIn : ∃ path, declarationFile node = .ok path ∧
    function.declaredIn = normalizeHeaderPath environment path
  returnType : ∃ typeInfo typeName, node.getDict "type" = .ok typeInfo ∧
    typeInfo.getText "qualType" "" = .ok typeName ∧
    function.returnType = extractReturnType typeName
  parameters : ∃ children, node.childObjects = .ok children ∧
    (children.filter fun child => child.hasKind "ParmVarDecl").mapM
      (fun child => buildParameter child comment.params) = .ok function.parameters
  inline : function.inline = (node.get "inline").truthy
  extracted : extractComment node = .ok comment
  doc : function.doc = if comment.isEmpty then none else some { comment with params := [] }

theorem buildFunction_eq_ok {environment : Environment} {node : Dict} {function : Function}
    (built : buildFunction environment node = .ok function) :
    ∃ comment, FunctionFrom environment node comment function := by
  unfold buildFunction at built
  simp only [bind_eq_ok_iff] at built
  obtain ⟨typeInfo, readType, typeName, readTypeName, comment, extracted, name, readName, built⟩ :=
    built
  cases name with
  | none =>
      cases built
  | some name =>
      simp only [pure_eq_ok, ok_bind, bind_eq_ok_iff] at built
      obtain ⟨symbol, readSymbol, path, readPath, children, readChildren, parameters,
        readParameters, returned⟩ := built
      cases returned
      exact ⟨comment, {
        name := readName
        symbol := readSymbol
        declaredIn := ⟨path, readPath, rfl⟩
        returnType := ⟨typeInfo, typeName, readType, readTypeName, rfl⟩
        parameters := ⟨children, readChildren, readParameters⟩
        inline := rfl
        extracted := extracted
        doc := rfl }⟩

/-- The functions are built from the nodes that are exported, one by one. -/
theorem exportedFunctions_forall₂ {environment : Environment} {nodes : List Dict}
    {functions : List Function} (collected : exportedFunctions environment nodes = .ok functions) :
    List.Forall₂ (fun node function => buildFunction environment node = .ok function)
      (nodes.filter fun node => isExportedFunction environment node = .ok true) functions := by
  induction nodes generalizing functions with
  | nil =>
      cases collected
      exact .nil
  | cons node nodes inductionHypothesis =>
      obtain ⟨exported, decided, collected⟩ := bind_eq_ok_iff.mp collected
      cases exported with
      | false =>
          rw [List.filter_cons_of_neg (by simp [decided])]
          exact inductionHypothesis collected
      | true =>
          obtain ⟨function, built, collected⟩ := bind_eq_ok_iff.mp collected
          obtain ⟨rest, later, returned⟩ := bind_eq_ok_iff.mp collected
          cases returned
          rw [List.filter_cons_of_pos (by simp [decided])]
          exact .cons built (inductionHypothesis later)

end CppCore.Ffi
