import CppCore.Ffi.Reducer
import CppCore.Library.JsonDocument

/-!
# The metadata file

The dictionaries of the metadata as the reducer fills them, and the run from the
text of the syntax tree to the text of the metadata.
-/

namespace CppCore.Ffi

open Dict JsonText

/-- The fields of a dictionary that are only there when there is something to say. -/
def optionalField (key : Text) : Option Json → Dict
  | none => []
  | some value => [(key, value)]

def texts (items : List Text) : Json := .arr (items.map .str)

/-- A text, or `None`. -/
def nullable : Option Text → Json
  | none => .null
  | some text => .str text

def ParamEntry.fields (entry : ParamEntry) : Dict :=
  ("description".toList, .str entry.description) ::
    optionalField "direction" (entry.direction.map .str)

def FunctionPointer.fields (callback : FunctionPointer) : Dict :=
  [("returnType", .str callback.returnType), ("parameters", texts callback.parameters)]

def Parameter.fields (parameter : Parameter) : Dict :=
  ("name".toList, .str parameter.name) :: ("type".toList, nullable parameter.type) ::
    (optionalField "default" parameter.default ++
      (optionalField "callback" (parameter.callback.map fun callback => .obj callback.fields) ++
        optionalField "doc" (parameter.doc.map fun entry => .obj entry.fields)))

/-- The dictionary of a function, whose comment is in `doc`. -/
def Function.fields (function : Function) (doc : Dict) : Dict :=
  ("name".toList, .str function.name) :: ("symbol".toList, .str function.symbol) ::
    ("declaredIn".toList, nullable function.declaredIn) ::
    ("returnType".toList, .str function.returnType) ::
    ("parameters".toList, .arr (function.parameters.map fun parameter => .obj parameter.fields)) ::
    (optionalField "inline" (if function.inline then some (.bool true) else none) ++
      optionalField "doc" (if doc = [] then none else some (.obj doc)))

/-- `doc[key] = text`, unless the text is empty. -/
def recordText (key text : Text) (doc : Dict) : Dict :=
  if text = [] then doc else Assignment.assign key (.str text) doc

/-- The body of the loop over the children of the full comment, for what it does to the dictionary
besides the parameters and to the details. -/
def recordComment (state : Dict × List Text) (child : Dict) : Except Fault (Dict × List Text) :=
  if child.hasKind "BlockCommandComment" && (child.get "name").isText "brief" then do
    return (recordText "brief" (← textFromComment child) state.1, state.2)
  else if child.hasKind "BlockCommandComment" &&
      ((child.get "name").isText "return" || (child.get "name").isText "returns") then do
    return (recordText "returns" (← textFromComment child) state.1, state.2)
  else if child.hasKind "ParamCommandComment" then
    return state
  else if child.hasKind "ParagraphComment" then do
    let paragraph ← textFromComment child
    return if paragraph = [] then state else (state.1, state.2 ++ [paragraph])
  else
    return state

/-- `extract_comment`, without the parameters, which the function takes out of it. -/
def commentFields (node : Dict) : Except Fault Dict := do
  let children ← node.childObjects
  match children.find? fun child => child.hasKind "FullComment" with
  | none => return []
  | some fullComment =>
      let (doc, details) ← (← fullComment.childObjects).foldlM recordComment ([], [])
      return if details = [] then doc else Assignment.assign "details" (texts details) doc

def functionFields (environment : Environment) (node : Dict) : Except Fault Dict := do
  let function ← buildFunction environment node
  let doc ← commentFields node
  return function.fields doc

/-- The comprehension over the nodes of the tree. -/
def exportedFields (environment : Environment) : List Dict → Except Fault (List Dict)
  | [] => return []
  | node :: nodes => do
      if ← isExportedFunction environment node then
        let fields ← functionFields environment node
        return fields :: (← exportedFields environment nodes)
      else
        exportedFields environment nodes

/-- `item["name"]` -/
def itemName (item : Dict) : Text :=
  match item.lookup "name".toList with
  | some (.str name) => name
  | _ => []

def metadataItems (publicHeader : Text) (functions : List Dict) : Dict :=
  [("schema", .str "cpp_core_ffi_api"), ("schemaVersion", .int 1),
    ("publicHeader", .str publicHeader), ("functions", .arr (functions.map .obj))]

def metadataFields (environment : Environment) (publicHeader : Text) (ast : Json) :
    Except Fault Dict := do
  let functions ← exportedFields environment (walk ast)
  return metadataItems publicHeader
    (functions.mergeSort fun first second => itemName first ≤ itemName second)

/-- The text of the metadata file for the text of the file with the syntax tree, unless the run
ends with an exception.  Nothing interrupts the writing. -/
def reduce (format : FloatFormat) (environment : Environment) (publicHeader input : Text) :
    Option Text := do
  let ast ← load format input
  let metadata ← (metadataFields environment publicHeader ast).toOption
  return dump 2 (.obj metadata) ++ ['\n']

end CppCore.Ffi
