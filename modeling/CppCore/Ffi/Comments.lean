import CppCore.Library.Assignment
import CppCore.Library.Pattern
import CppCore.Ffi.Node

/-!
# Documentation comments

The text of a comment is put together from its leaves and normalised at every
node on the way up.
-/

namespace CppCore.Ffi

open Dict

def notBacktick (char : Char) : Bool := char ≠ '\x60'

/-- `\s+` -/
def spacesPattern : Pattern Text := Pattern.greedySome Text.isSpace

/-- A code span that ends in a punctuation mark. -/
def codeSpanPattern : Pattern (Text × Char) := do
  Pattern.literal "\x60"
  let code ← Pattern.lazySome notBacktick
  let mark ← Pattern.oneOf fun char => char ∈ ".,;:".toList
  Pattern.literal "\x60"
  return (code, mark)

/-- `\s+([.,;])` -/
def spacedMarkPattern : Pattern Char := do
  let _ ← Pattern.greedySome Text.isSpace
  Pattern.oneOf fun char => char ∈ ".,;".toList

/-- The three substitutions that a joined text goes through. -/
def normalize (joined : Text) : Text :=
  let joined := Text.strip (spacesPattern.substitute (fun _ => " ") joined)
  let joined := codeSpanPattern.substitute
    (fun found => "\x60".toList ++ found.1 ++ "\x60".toList ++ [found.2]) joined
  spacedMarkPattern.substitute (fun mark => [mark]) joined

/-- The arguments of an inline command, which clang writes as texts. -/
def commandArgs : List Json → Except Fault (List Text)
  | [] => return []
  | .str arg :: args => return arg :: (← commandArgs args)
  | _ :: _ => throw (.illTyped "args")

mutual

def textFromComment (node : Dict) : Except Fault Text :=
  if node.hasKind "TextComment" then
    node.getText "text" ""
  else if node.hasKind "InlineCommandComment" then do
    let args ← commandArgs (← node.getList "args")
    if (node.get "renderKind").isText "monospaced" then
      return List.intercalate " " (args.map fun arg => "\x60".toList ++ arg ++ "\x60".toList)
    else
      return List.intercalate " " args
  else
    match _read : node.getList "inner" with
    | .error fault => .error fault
    | .ok children => do
        let chunks ← commentChunks children
        return normalize (List.intercalate " " chunks)
termination_by (sizeOf node, 1)
decreasing_by exact lex_of_getList _read

/-- The nonempty texts of the children that are objects. -/
def commentChunks : List Json → Except Fault (List Text)
  | [] => return []
  | .obj child :: children => do
      let text ← textFromComment child
      let chunks ← commentChunks children
      return if text = [] then chunks else text :: chunks
  | _ :: children => commentChunks children
termination_by children => (sizeOf children, 0)

end

theorem textFromComment_container {node : Dict} (notText : ¬ node.hasKind "TextComment" = true)
    (notCommand : ¬ node.hasKind "InlineCommandComment" = true) :
    textFromComment node = do
      let chunks ← commentChunks (← node.getList "inner")
      return normalize (List.intercalate " " chunks) := by
  rw [textFromComment, if_neg notText, if_neg notCommand]
  split
  · rename_i read
    rw [read]
    rfl
  · rename_i read
    rw [read]
    rfl

structure ParamEntry where
  description : Text
  direction : Option Text
  deriving DecidableEq

/-- A field that stays empty is left out of the metadata. -/
structure Doc where
  brief : Option Text
  returns : Option Text
  details : List Text
  params : List (Text × ParamEntry)
  deriving DecidableEq

namespace Doc

def empty : Doc := ⟨none, none, [], []⟩

/-- The test `if doc:`, which `build_function` makes when the parameters are taken out. -/
def isEmpty (doc : Doc) : Bool :=
  doc.brief.isNone && doc.returns.isNone && doc.details.isEmpty

end Doc

/-- The body of the loop over the children of the full comment. -/
def addComment (doc : Doc) (child : Dict) : Except Fault Doc :=
  if child.hasKind "BlockCommandComment" && (child.get "name").isText "brief" then do
    let brief ← textFromComment child
    return if brief = [] then doc else { doc with brief := some brief }
  else if child.hasKind "BlockCommandComment" &&
      ((child.get "name").isText "return" || (child.get "name").isText "returns") then do
    let returns ← textFromComment child
    return if returns = [] then doc else { doc with returns := some returns }
  else if child.hasKind "ParamCommandComment" then do
    let name ← child.getText? "param"
    let text ← textFromComment child
    let direction ← child.getText? "direction"
    match name with
    | none | some [] => return doc
    | some name =>
        if text = [] then return doc
        else
          return { doc with
            params := Assignment.assign name ⟨text, direction.filter (· ≠ [])⟩ doc.params }
  else if child.hasKind "ParagraphComment" then do
    let paragraph ← textFromComment child
    return if paragraph = [] then doc else { doc with details := doc.details ++ [paragraph] }
  else
    return doc

def extractComment (node : Dict) : Except Fault Doc := do
  let children ← node.childObjects
  match children.find? fun child => child.hasKind "FullComment" with
  | none => return .empty
  | some fullComment => (← fullComment.childObjects).foldlM addComment .empty

end CppCore.Ffi
