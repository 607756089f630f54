import CppCore.Ffi.Alike
import CppCore.Ffi.Nesting
import CppCore.Library.Words

/-!
# Comments can be wrapped anew

The lines of a comment reach the reducer as the texts of separate nodes.  It does
not see how the words are spread over them.
-/

namespace CppCore.Ffi

open Dict Fallible

/-- A run of lines, with the words on them. -/
inductive Lines : List Json → List Text → Prop where
  | nil : Lines [] []
  | line {node : Dict} {text : Text} {nodes : List Json} {words : List Text} :
      node.hasKind "TextComment" = true → node.getText "text" "" = .ok text → Lines nodes words →
        Lines (.obj node :: nodes) (Text.words text ++ words)

/-- The same children, with the same words in every run of lines. -/
inductive Rewrapped : List Json → List Json → Prop where
  | nil : Rewrapped [] []
  | same (child : Json) {children others : List Json} :
      Rewrapped children others → Rewrapped (child :: children) (child :: others)
  | container {node other : Dict} {inner innerOther children others : List Json} :
      IsContainer node → IsContainer other → node.getList "inner" = .ok inner →
        other.getList "inner" = .ok innerOther → Rewrapped inner innerOther →
          Rewrapped children others → Rewrapped (.obj node :: children) (.obj other :: others)
  | lines {nodes otherNodes children others : List Json} {words : List Text} :
      Lines nodes words → Lines otherNodes words → Rewrapped children others →
        Rewrapped (nodes ++ children) (otherNodes ++ others)

/-- Two nodes with the same fields besides their children. -/
def SameFields (node other : Dict) : Prop :=
  ∀ key : Text, key ≠ "inner".toList → node.lookup key = other.lookup key

structure RewrappedBlock (block other : Dict) : Prop where
  fields : SameFields block other
  container : IsContainer block
  children : ∃ inner innerOther, block.getList "inner" = .ok inner ∧
    other.getList "inner" = .ok innerOther ∧ Rewrapped inner innerOther

/-- Two nodes with the same fields, and children that are equal or related. -/
structure Rebuilt (relates : Dict → Dict → Prop) (node other : Dict) : Prop where
  fields : SameFields node other
  children : Related (List.Forall₂ (Relation.ReflGen relates)) node.childObjects other.childObjects

structure RewrappedComment (comment other : Dict) : Prop
    extends Rebuilt RewrappedBlock comment other where
  full : comment.hasKind "FullComment" = true

/-- A node with the comment wrapped anew. -/
def RewrappedNode : Dict → Dict → Prop := Rebuilt RewrappedComment

section Words

variable {node other : Dict} {children others : List Json} {words : List Text}

theorem normalize_eq_of_words {joined other : Text} (same : Text.words joined = Text.words other) :
    normalize joined = normalize other := by
  unfold normalize
  rw [substitute_spaces, substitute_spaces, Text.strip_collapse, Text.strip_collapse, same]

/-- The words of the children, once they are normalised themselves. -/
def childWords (children : List Json) : Except Fault (List Text) := do
  let chunks ← commentChunks children
  return chunks.flatMap Text.words

theorem childWords_obj (child : Dict) (children : List Json) :
    childWords (.obj child :: children) = do
      let text ← textFromComment child
      let later ← childWords children
      return Text.words text ++ later := by
  rw [childWords, commentChunks]
  cases textFromComment child with
  | error fault => rfl
  | ok text =>
      rw [childWords]
      cases commentChunks children with
      | error fault => rfl
      | ok chunks =>
          by_cases empty : text = []
          · simp [empty, Text.words]
          · simp [empty]

theorem childWords_lines (lines : Lines others words) (children : List Json) :
    childWords (others ++ children) = do
      let later ← childWords children
      return words ++ later := by
  induction lines with
  | nil =>
      cases outcome : childWords children with
      | error fault => exact outcome
      | ok later => exact outcome
  | line isText read _ inductionHypothesis =>
      rw [List.cons_append, childWords_obj, textFromComment, if_pos isText, read,
        inductionHypothesis]
      cases childWords children with
      | error fault => rfl
      | ok later => simp

/-- A container shows the words of its children only. -/
theorem textFromComment_eq_of_words (container : IsContainer node)
    (containerOther : IsContainer other) (read : node.getList "inner" = .ok children)
    (readOther : other.getList "inner" = .ok others)
    (same : childWords children = childWords others) :
    textFromComment node = textFromComment other := by
  rw [textFromComment_container container.1 container.2, read,
    textFromComment_container containerOther.1 containerOther.2, readOther, ok_bind, ok_bind]
  unfold childWords at same
  generalize commentChunks children = outcome, commentChunks others = outcomeOther at same ⊢
  cases outcome with
  | error fault =>
      cases outcomeOther with
      | error otherFault =>
          cases same
          rfl
      | ok chunks => cases same
  | ok chunks =>
      cases outcomeOther with
      | error fault => cases same
      | ok otherChunks =>
          have sameWords := Except.ok.inj same
          have sameText : normalize (List.intercalate " " chunks) =
              normalize (List.intercalate " " otherChunks) := by
            apply normalize_eq_of_words
            rw [Text.words_intercalate, Text.words_intercalate, sameWords]
          simp only [ok_bind, sameText]

theorem childWords_rewrapped (rewrapped : Rewrapped children others) :
    childWords children = childWords others := by
  induction rewrapped with
  | nil => rfl
  | same child _ inductionHypothesis =>
      cases child with
      | obj fields => rw [childWords_obj, childWords_obj, inductionHypothesis]
      | _ =>
          unfold childWords at inductionHypothesis ⊢
          rw [commentChunks, commentChunks]
          · exact inductionHypothesis
          · rintro _ ⟨⟩
          · rintro _ ⟨⟩
  | container container containerOther read readOther _ _ innerHypothesis inductionHypothesis =>
      rw [childWords_obj, childWords_obj, inductionHypothesis,
        textFromComment_eq_of_words container containerOther read readOther innerHypothesis]
  | lines lines linesOther _ inductionHypothesis =>
      rw [childWords_lines lines, childWords_lines linesOther, inductionHypothesis]

end Words

section Fields

variable {node other : Dict} {key : Text}

theorem SameFields.get (same : SameFields node other) (notInner : key ≠ "inner".toList) :
    node.get key = other.get key := by
  unfold Dict.get
  rw [same key notInner]

theorem SameFields.hasKind (same : SameFields node other) : node.hasKind = other.hasKind := by
  funext kind
  unfold Dict.hasKind
  rw [same.get (show "kind".toList ≠ "inner".toList by decide)]

theorem SameFields.getText? (same : SameFields node other) (notInner : key ≠ "inner".toList) :
    node.getText? key = other.getText? key := by
  unfold Dict.getText?
  rw [same.get notInner]

theorem SameFields.getText (same : SameFields node other) (notInner : key ≠ "inner".toList)
    (fallback : Text) : node.getText key fallback = other.getText key fallback := by
  unfold Dict.getText
  rw [same key notInner]

theorem SameFields.getDict (same : SameFields node other) (notInner : key ≠ "inner".toList) :
    node.getDict key = other.getDict key := by
  unfold Dict.getDict
  rw [same key notInner]

theorem SameFields.declarationFile (same : SameFields node other) :
    declarationFile node = declarationFile other := by
  unfold CppCore.Ffi.declarationFile
  rw [same.getDict (show "loc".toList ≠ "inner".toList by decide),
    same.getDict (show "range".toList ≠ "inner".toList by decide)]

end Fields

section Comments

variable {block node other : Dict}

theorem RewrappedBlock.textFromComment (rewrapped : RewrappedBlock block other) :
    textFromComment block = textFromComment other := by
  obtain ⟨inner, innerOther, read, readOther, same⟩ := rewrapped.children
  have containerOther : IsContainer other := by
    unfold IsContainer
    rw [← rewrapped.fields.hasKind]
    exact rewrapped.container
  exact textFromComment_eq_of_words rewrapped.container containerOther read readOther
    (childWords_rewrapped same)

theorem addComment_rewrapped (doc : Doc) (rewrapped : RewrappedBlock block other) :
    addComment doc block = addComment doc other := by
  have name : "name".toList ≠ "inner".toList := by decide
  have param : "param".toList ≠ "inner".toList := by decide
  have direction : "direction".toList ≠ "inner".toList := by decide
  unfold addComment
  simp only [rewrapped.fields.hasKind, rewrapped.fields.get name, rewrapped.textFromComment,
    rewrapped.fields.getText? param, rewrapped.fields.getText? direction]

theorem recordComment_rewrapped (state : Dict × List Text)
    (rewrapped : RewrappedBlock block other) :
    recordComment state block = recordComment state other := by
  have name : "name".toList ≠ "inner".toList := by decide
  unfold recordComment
  simp only [rewrapped.fields.hasKind, rewrapped.fields.get name, rewrapped.textFromComment]

theorem commentBlocks_rewrapped (rewrapped : RewrappedNode node other) :
    Related (List.Forall₂ (Relation.ReflGen RewrappedBlock)) (commentBlocks node)
      (commentBlocks other) := by
  apply commentBlocks_related rewrapped.children
  · intro child otherChild here
    cases here with
    | refl => rfl
    | single rewrapped => rw [rewrapped.fields.hasKind]
  · intro child otherChild here
    cases here with
    | refl => exact Related.refl (fun blocks => List.forall₂_same.mpr fun block _ => .refl) _
    | single rewrapped => exact rewrapped.children

theorem extractComment_rewrapped (rewrapped : RewrappedNode node other) :
    extractComment node = extractComment other := by
  apply extractComment_related (commentBlocks_rewrapped rewrapped)
  intro doc block otherBlock here
  cases here with
  | refl => rfl
  | single rewrapped => exact addComment_rewrapped doc rewrapped

theorem commentFields_rewrapped (rewrapped : RewrappedNode node other) :
    commentFields node = commentFields other := by
  apply commentFields_related (commentBlocks_rewrapped rewrapped)
  intro state block otherBlock here
  cases here with
  | refl => rfl
  | single rewrapped => exact recordComment_rewrapped state rewrapped

end Comments

section Functions

variable {environment : Environment} {node other : Dict}

theorem hasDefaultVisibility_rewrapped (rewrapped : RewrappedNode node other) :
    hasDefaultVisibility node = hasDefaultVisibility other := by
  have visibility : "visibility".toList ≠ "inner".toList := by decide
  apply rewrapped.children.bind_eq
  intro children others same
  apply congrArg Except.ok
  apply any_related same
  intro child otherChild here
  cases here with
  | refl => rfl
  | single rewrapped =>
      rw [rewrapped.fields.hasKind, rewrapped.fields.get visibility]

theorem isExportedFunction_rewrapped (rewrapped : RewrappedNode node other) :
    isExportedFunction environment node = isExportedFunction environment other := by
  have name : "name".toList ≠ "inner".toList := by decide
  have mangledName : "mangledName".toList ≠ "inner".toList := by decide
  unfold isExportedFunction
  rw [rewrapped.fields.hasKind, rewrapped.fields.getText? name,
    hasDefaultVisibility_rewrapped rewrapped, rewrapped.fields.getText? mangledName,
    rewrapped.fields.declarationFile]

/-- No parameter is wrapped anew. -/
theorem parameters_rewrapped {children others : List Dict}
    (rewrapped : List.Forall₂ (Relation.ReflGen RewrappedComment) children others) :
    List.Forall₂ (· = ·) (children.filter fun child => child.hasKind "ParmVarDecl")
      (others.filter fun child => child.hasKind "ParmVarDecl") := by
  induction rewrapped with
  | nil => exact .nil
  | @cons child otherChild _ _ here _ inductionHypothesis =>
      cases here with
      | refl =>
          rw [List.filter_cons, List.filter_cons]
          split_ifs
          · exact .cons rfl inductionHypothesis
          · exact inductionHypothesis
      | single rewrapped =>
          have notParameter : ¬ child.hasKind "ParmVarDecl" = true := by
            rw [hasKind_eq rewrapped.full]
            decide
          have notParameterOther : ¬ otherChild.hasKind "ParmVarDecl" = true := by
            rw [← rewrapped.fields.hasKind]
            exact notParameter
          rw [List.filter_cons, List.filter_cons, if_neg notParameter, if_neg notParameterOther]
          exact inductionHypothesis

theorem buildFunction_rewrapped (rewrapped : RewrappedNode node other) :
    buildFunction environment node = buildFunction environment other := by
  have type : "type".toList ≠ "inner".toList := by decide
  have name : "name".toList ≠ "inner".toList := by decide
  have mangledName : "mangledName".toList ≠ "inner".toList := by decide
  have inline : "inline".toList ≠ "inner".toList := by decide
  unfold buildFunction
  simp only [rewrapped.fields.getDict type, extractComment_rewrapped rewrapped,
    rewrapped.fields.getText? name, rewrapped.fields.getText mangledName,
    rewrapped.fields.declarationFile, rewrapped.fields.get inline]
  have same := rewrapped.children
  generalize node.childObjects = outcome, other.childObjects = outcomeOther at same ⊢
  cases same with
  | error fault => rfl
  | ok sameChildren =>
      have parameters (doc : Doc) := mapM_related (parameters_rewrapped sameChildren)
        fun child otherChild _ here => congrArg (buildParameter · doc.params) here
      simp only [ok_bind, parameters]

theorem functionFields_rewrapped (rewrapped : RewrappedNode node other) :
    functionFields environment node = functionFields environment other := by
  simp only [functionFields, buildFunction_rewrapped rewrapped, commentFields_rewrapped rewrapped]

end Functions

section Trees

variable {environment : Environment}

def functionNodes (ast : Json) : List Dict :=
  ast.objects.filter fun node => node.hasKind "FunctionDecl"

/-- The other nodes are passed over. -/
theorem exportedFields_filter (nodes : List Dict) : exportedFields environment nodes =
    exportedFields environment (nodes.filter fun node => node.hasKind "FunctionDecl") := by
  induction nodes with
  | nil => rfl
  | cons node nodes inductionHypothesis =>
      by_cases isFunction : node.hasKind "FunctionDecl" = true
      · rw [List.filter_cons, if_pos isFunction, exportedFields, exportedFields,
          inductionHypothesis]
      · have notExported : isExportedFunction environment node = .ok false := by
          rw [isExportedFunction, Bool.eq_false_iff.mpr isFunction]
          rfl
        rw [List.filter_cons, if_neg isFunction, exportedFields, notExported]
        exact inductionHypothesis

theorem exportedFields_rewrapped {nodes others : List Dict}
    (rewrapped : List.Forall₂ (Relation.ReflGen RewrappedNode) nodes others) :
    exportedFields environment nodes = exportedFields environment others := by
  induction rewrapped with
  | nil => rfl
  | cons here _ inductionHypothesis =>
      cases here with
      | refl => rw [exportedFields, exportedFields, inductionHypothesis]
      | single same =>
          rw [exportedFields, exportedFields, inductionHypothesis,
            isExportedFunction_rewrapped same, functionFields_rewrapped same]

end Trees

open JsonText

/-- Files that declare the same functions, with comments that hold the same words, are reduced to
the same file. -/
theorem reduce_rewrapped {format : FloatFormat} {input inputOther : Text} {ast other : Json}
    (loaded : load format input = some ast) (loadedOther : load format inputOther = some other)
    (rewrapped : List.Forall₂ (Relation.ReflGen RewrappedNode) (functionNodes ast)
      (functionNodes other)) (environment : Environment) (publicHeader : Text) :
    reduce format environment publicHeader input =
      reduce format environment publicHeader inputOther := by
  have same : metadataFields environment publicHeader ast =
      metadataFields environment publicHeader other := by
    rw [metadataFields, metadataFields, walk_eq_objects, walk_eq_objects,
      exportedFields_filter ast.objects, exportedFields_filter other.objects,
      ← functionNodes, ← functionNodes, exportedFields_rewrapped rewrapped]
  rw [reduce, reduce, loaded, loadedOther]
  simp only [Option.bind_eq_bind, Option.bind_some, same]

theorem lines_textNodes (texts : List Text) :
    Lines (texts.map fun text => .obj (textNode text)) (texts.flatMap Text.words) := by
  induction texts with
  | nil => exact .nil
  | cons text texts inductionHypothesis => exact .line rfl rfl inductionHypothesis

def paragraphOf (lines : List Text) : Dict :=
  [("kind", .str "ParagraphComment"),
    ("inner", .arr (lines.map fun line => .obj (textNode line)))]

def commentOf (lines : List Text) : Dict :=
  [("kind", .str "FullComment"), ("inner", .arr [.obj (paragraphOf lines)])]

def drainDeclaration (lines : List Text) : Dict :=
  [("kind", .str "FunctionDecl"),
    ("loc", .obj [("file", .str "include/cpp_core/interface/serial_drain.h")]),
    ("name", .str "serialDrain"), ("mangledName", .str "serialDrain"),
    ("type", .obj [("qualType", .str "auto () -> int")]),
    ("inner", .arr [.obj [("kind", .str "VisibilityAttr"), ("visibility", .str "default")],
      .obj (commentOf lines)])]

theorem sameFields_inner (before : Dict) (inner innerOther : List Json) :
    SameFields (before ++ ([("inner", .arr inner)] : Dict))
      (before ++ ([("inner", .arr innerOther)] : Dict)) := by
  intro key notInner
  rw [List.lookup_append, List.lookup_append, List.lookup_cons, List.lookup_cons,
    beq_false_of_ne notInner]

theorem rewrappedNode_drainDeclaration {lines others : List Text}
    (same : lines.flatMap Text.words = others.flatMap Text.words) :
    RewrappedNode (drainDeclaration lines) (drainDeclaration others) := by
  have rewrapped : Rewrapped (lines.map fun line => .obj (textNode line))
      (others.map fun line => .obj (textNode line)) := by
    have linesOther := lines_textNodes others
    rw [← same] at linesOther
    have whole := Rewrapped.lines (lines_textNodes lines) linesOther .nil
    rwa [List.append_nil, List.append_nil] at whole
  have block : RewrappedBlock (paragraphOf lines) (paragraphOf others) := {
    fields := sameFields_inner [_] _ _
    container := ⟨Bool.false_ne_true, Bool.false_ne_true⟩
    children := ⟨_, _, rfl, rfl, rewrapped⟩ }
  have comment : RewrappedComment (commentOf lines) (commentOf others) := {
    fields := sameFields_inner [_] _ _
    children := .ok (.cons (.single block) .nil)
    full := rfl }
  exact {
    fields := sameFields_inner [_, _, _, _, _] _ _
    children := .ok (.cons .refl (.cons (.single comment) .nil)) }

theorem storable_drainDeclaration (lines : List Text) :
    Storable .verbatim (.obj (drainDeclaration lines)) := by
  have written : ItemsStorable .verbatim (lines.map fun line => .obj (textNode line)) := by
    induction lines with
    | nil => exact trivial
    | cons line lines inductionHypothesis =>
        exact ⟨storable_textNode line, inductionHypothesis⟩
  have paragraphKeys : (Assignment.keys (paragraphOf [])).Nodup := by decide
  have commentKeys : (Assignment.keys (commentOf [])).Nodup := by decide
  have keys : (Assignment.keys (drainDeclaration [])).Nodup := by decide
  have comment : Storable .verbatim (.obj (commentOf lines)) :=
    ⟨commentKeys, trivial, ⟨⟨paragraphKeys, trivial, written, trivial⟩, trivial⟩, trivial⟩
  exact ⟨keys, trivial, ⟨by decide, trivial, trivial⟩, trivial, trivial,
    ⟨by decide, trivial, trivial⟩,
    ⟨⟨by decide, trivial, trivial, trivial⟩, comment, trivial⟩, trivial⟩

/-- The same sentence on lines of two widths. -/
def wideLines : List Text :=
  [" Typical use-case: ensure a complete command frame has left the UART",
    " before toggling RTS/DTR or powering down the device."]

def narrowLines : List Text :=
  [" Typical use-case: ensure a complete", " command frame has left the UART before",
    " toggling RTS/DTR or powering down", " the device."]

theorem reduce_rewrapped_drain :
    ∃ output, reduce .verbatim checkout "cpp_core.h"
        (dump 2 (.obj (drainDeclaration wideLines)) ++ ['\n']) = some output ∧
      reduce .verbatim checkout "cpp_core.h"
        (dump 2 (.obj (drainDeclaration narrowLines)) ++ ['\n']) = some output := by
  have line : ∀ char ∈ ['\n'], isSpace char = true := List.forall_mem_singleton.mpr rfl
  have loaded := load_dump (storable_drainDeclaration wideLines) 2 line
  have loadedOther := load_dump (storable_drainDeclaration narrowLines) 2 line
  have sameWords : wideLines.flatMap Text.words = narrowLines.flatMap Text.words := by
    decide +kernel
  have rewrapped : List.Forall₂ (Relation.ReflGen RewrappedNode)
      (functionNodes (.obj (drainDeclaration wideLines)))
      (functionNodes (.obj (drainDeclaration narrowLines))) :=
    .cons (.single (rewrappedNode_drainDeclaration sameWords)) .nil
  obtain ⟨built, returned, _⟩ := main_eq_ok checkout "cpp_core.h"
    (show WellTyped (.obj (drainDeclaration wideLines)) by decide)
  obtain ⟨output, written, _⟩ := reduce_of_main loaded returned
  refine ⟨output, written, ?_⟩
  rw [← reduce_rewrapped loaded loadedOther rewrapped]
  exact written

end CppCore.Ffi
