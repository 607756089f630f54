import CppCore.Ffi.Comments
import CppCore.Ffi.Types
import CppCore.Ffi.Walk

/-!
# The reducer

From a syntax tree to the metadata of its exported functions.
-/

namespace CppCore.Ffi

open Dict

/-- What the run takes from the file system: how a path resolves, as the names
below the root, and where the source root lies. -/
structure Environment where
  resolve : Text → List Text
  sourceRoot : List Text

def firstFile : List Json → Except Fault (Option Text)
  | [] => return none
  | .obj candidate :: candidates =>
      match Dict.get candidate "file" with
      | .str (first :: rest) => return some (first :: rest)
      | value => if value.truthy then throw (.illTyped "file") else firstFile candidates
  | _ :: candidates => firstFile candidates

def declarationFile (node : Dict) : Except Fault (Option Text) := do
  let loc ← node.getDict "loc"
  let range ← node.getDict "range"
  let rangeBegin ← range.getDict "begin"
  let rangeEnd ← range.getDict "end"
  firstFile [rangeBegin.get "expansionLoc", rangeBegin.get "spellingLoc", .obj loc, .obj rangeBegin,
    .obj rangeEnd, loc.get "includedFrom", rangeBegin.get "includedFrom",
    rangeEnd.get "includedFrom"]

/-- `as_posix` of a relative path. -/
def relativePosix (parts : List Text) : Text :=
  if parts = [] then "." else List.intercalate "/" parts

/-- `as_posix` of an absolute path. -/
def absolutePosix (parts : List Text) : Text :=
  '/' :: List.intercalate "/" parts

def normalizePath (environment : Environment) : Option Text → Option Text
  | none | some [] => none
  | some path =>
      let parts := environment.resolve path
      if environment.sourceRoot.isPrefixOf parts then
        some (relativePosix (parts.drop environment.sourceRoot.length))
      else
        some (absolutePosix parts)

def normalizeHeaderPath (environment : Environment) (path : Option Text) : Option Text :=
  (normalizePath environment path).map fun normalized => Text.removePrefix normalized "include/"

def hasDefaultVisibility (node : Dict) : Except Fault Bool := do
  let children ← node.childObjects
  return children.any fun child =>
    child.hasKind "VisibilityAttr" && (child.get "visibility").isText "default"

def isExportedFunction (environment : Environment) (node : Dict) : Except Fault Bool := do
  if !node.hasKind "FunctionDecl" then
    return false
  match ← node.getText? "name" with
  | none | some [] => return false
  | some name =>
      if !(← hasDefaultVisibility node) then
        return false
      let mangledName ← node.getText? "mangledName"
      -- An empty mangled name does not count as one.
      if mangledName.any fun mangled => mangled ≠ [] ∧ mangled ≠ name then
        return false
      match normalizePath environment (← declarationFile node) with
      | none => return false
      | some path => return "include/cpp_core/".toList.isPrefixOf path

/-- A float as `str` prints it, which has its own words for what is not finite. -/
def formatFloat (digits : Text) : Text :=
  if digits = "NaN".toList then "nan"
  else if digits = "Infinity".toList then "inf"
  else if digits = "-Infinity".toList then "-inf"
  else digits

/-- A value as an f-string prints it. -/
def formatValue : Json → Except Fault Text
  | .null => return "None"
  | .bool true => return "True"
  | .bool false => return "False"
  | .int value => return (toString value).toList
  | .float digits => return formatFloat digits
  | .str value => return value
  | .arr _ | .obj _ => throw (.illTyped "value")

def wrapperKinds : List Text := ["ImplicitCastExpr", "ConstantExpr", "ExprWithCleanups"]

def literalKinds : List Text :=
  ["IntegerLiteral", "FloatingLiteral", "StringLiteral", "CXXBoolLiteralExpr"]

/-- The result for a `UnaryOperator` node, from the value of its operand. -/
def applyOperator (node : Dict) : Json → Except Fault Json
  | .null => return .null
  | value => return .str ((← node.getText "opcode" "") ++ (← formatValue value))

mutual

/-- `None` is the value `null`. -/
def extractDefaultExpr (node : Dict) : Except Fault Json :=
  if wrapperKinds.any node.hasKind then
    match _read : node.getList "inner" with
    | .error fault => .error fault
    | .ok children => defaultOfFirst children
  else if literalKinds.any node.hasKind then
    return node.get "value"
  else if node.hasKind "CXXNullPtrLiteralExpr" then
    return .str "nullptr"
  else if node.hasKind "DeclRefExpr" then do
    let referenced ← node.getDict "referencedDecl"
    match ← referenced.getText? "name" with
    | none | some [] => return node.get "name"
    | some name => return .str name
  else if node.hasKind "UnaryOperator" then
    match _read : node.getList "inner" with
    | .error fault => .error fault
    | .ok children => do applyOperator node (← defaultOfFirst children)
  else
    return .null
termination_by (sizeOf node, 1)
decreasing_by all_goals exact lex_of_getList _read

/-- The default value of the first child that is an object. -/
def defaultOfFirst : List Json → Except Fault Json
  | [] => return .null
  | .obj child :: _ => extractDefaultExpr child
  | _ :: children => defaultOfFirst children
termination_by children => (sizeOf children, 0)

end

theorem extractDefaultExpr_wrapper {node : Dict} (wrapper : wrapperKinds.any node.hasKind = true) :
    extractDefaultExpr node = node.getList "inner" >>= defaultOfFirst := by
  rw [extractDefaultExpr, if_pos wrapper]
  split
  · rename_i read
    rw [read]
    rfl
  · rename_i read
    rw [read]
    rfl

theorem extractDefaultExpr_operator {node : Dict} (operator : node.hasKind "UnaryOperator" = true) :
    extractDefaultExpr node =
      node.getList "inner" >>= fun children => defaultOfFirst children >>= applyOperator node := by
  have kinds := hasKind_eq operator
  rw [extractDefaultExpr, if_neg (by rw [funext kinds]; decide), if_neg (by rw [funext kinds]; decide),
    if_neg (by rw [kinds]; decide), if_neg (by rw [kinds]; decide), if_pos operator]
  split
  · rename_i read
    rw [read]
    rfl
  · rename_i read
    rw [read]
    rfl

theorem defaultOfFirst_eq {children : List Json} {child : Dict}
    (first : children.findSome? Json.asDict = some child) :
    defaultOfFirst children = extractDefaultExpr child := by
  induction children with
  | nil => cases first
  | cons item children inductionHypothesis =>
      cases item with
      | obj fields =>
          cases first
          rw [defaultOfFirst]
      | _ =>
          rw [defaultOfFirst]
          · exact inductionHypothesis first
          · rintro _ ⟨⟩

theorem extractDefaultExpr_literal {node : Dict} {kind : Text} (isKind : node.hasKind kind = true)
    (literal : kind ∈ literalKinds) : extractDefaultExpr node = .ok (node.get "value") := by
  have apart : ∀ kind ∈ literalKinds, (wrapperKinds.any fun other => kind = other) = false := by
    decide
  have notWrapper : wrapperKinds.any node.hasKind = false := by
    rw [funext (hasKind_eq isKind)]
    exact apart kind literal
  have isLiteral : literalKinds.any node.hasKind = true :=
    List.any_eq_true.mpr ⟨kind, literal, isKind⟩
  rw [extractDefaultExpr, notWrapper, if_neg Bool.false_ne_true, if_pos isLiteral]
  rfl

theorem extractDefaultExpr_nullptr {node : Dict}
    (isNull : node.hasKind "CXXNullPtrLiteralExpr" = true) :
    extractDefaultExpr node = .ok (.str "nullptr") := by
  have kinds := hasKind_eq isNull
  rw [extractDefaultExpr, if_neg (by rw [funext kinds]; decide),
    if_neg (by rw [funext kinds]; decide), if_pos isNull]
  rfl

theorem extractDefaultExpr_reference {node : Dict} (refers : node.hasKind "DeclRefExpr" = true) :
    extractDefaultExpr node = (do
      let referenced ← node.getDict "referencedDecl"
      match ← referenced.getText? "name" with
      | none | some [] => return node.get "name"
      | some name => return .str name) := by
  have kinds := hasKind_eq refers
  rw [extractDefaultExpr, if_neg (by rw [funext kinds]; decide),
    if_neg (by rw [funext kinds]; decide), if_neg (by rw [kinds]; decide), if_pos refers]

structure Parameter where
  name : Text
  type : Option Text
  default : Option Json
  callback : Option FunctionPointer
  doc : Option ParamEntry

def buildParameter (node : Dict) (docParams : List (Text × ParamEntry)) :
    Except Fault Parameter := do
  let typeInfo ← node.getDict "type"
  let publicType ← typeInfo.getText? "qualType"
  let desugared ← typeInfo.getText? "desugaredQualType"
  let callbackSourceType := (desugared.filter (· ≠ [])).or publicType
  let name ← node.getText "name" ""
  let defaultValue ← defaultOfFirst (← node.getList "inner")
  match callbackSourceType with
  -- `re.match` does not accept `None`.
  | none => throw (.missing "qualType")
  | some callbackSourceType =>
      return {
        name
        type := publicType
        default := match defaultValue with | .null => none | value => some value
        callback := parseFunctionPointer callbackSourceType
        doc := docParams.lookup name }

structure Function where
  name : Text
  symbol : Text
  declaredIn : Option Text
  returnType : Text
  parameters : List Parameter
  inline : Bool
  doc : Option Doc

def buildFunction (environment : Environment) (node : Dict) : Except Fault Function := do
  let typeName ← (← node.getDict "type").getText "qualType" ""
  let doc ← extractComment node
  let name ← match ← node.getText? "name" with
    | some name => pure name
    | none => throw (.missing "name")
  let symbol ← node.getText "mangledName" name
  let path ← declarationFile node
  let children ← node.childObjects
  let parameters ← (children.filter fun child => child.hasKind "ParmVarDecl").mapM fun child =>
    buildParameter child doc.params
  return {
    name, symbol, parameters
    declaredIn := normalizeHeaderPath environment path
    returnType := extractReturnType typeName
    inline := (node.get "inline").truthy
    doc := if doc.isEmpty then none else some { doc with params := [] } }

/-- The comprehension over the nodes of the tree. -/
def exportedFunctions (environment : Environment) : List Dict → Except Fault (List Function)
  | [] => return []
  | node :: nodes => do
      if ← isExportedFunction environment node then
        let function ← buildFunction environment node
        return function :: (← exportedFunctions environment nodes)
      else
        exportedFunctions environment nodes

structure Metadata where
  schema : Text
  schemaVersion : Nat
  publicHeader : Text
  functions : List Function

/-- `list.sort` with a key. -/
def sortByName (functions : List Function) : List Function :=
  functions.mergeSort fun first second => first.name ≤ second.name

def main (environment : Environment) (publicHeader : Text) (ast : Json) :
    Except Fault Metadata := do
  let functions ← exportedFunctions environment (walk ast)
  return {
    schema := "cpp_core_ffi_api"
    schemaVersion := 1
    publicHeader
    functions := sortByName functions }

end CppCore.Ffi
