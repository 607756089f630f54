import CppCore.Library.Pattern

/-!
# Type texts

The reducer takes the types apart as texts, in the spelling in which clang
prints them.
-/

namespace CppCore.Ffi

structure Depths where
  angle : Nat
  paren : Nat
  square : Nat
  deriving DecidableEq

namespace Depths

def zero : Depths := ⟨0, 0, 0⟩

/-- Closing brackets that match nothing are ignored. -/
def after (depths : Depths) (char : Char) : Depths :=
  if char = '<' then { depths with angle := depths.angle + 1 }
  else if char = '>' then { depths with angle := depths.angle - 1 }
  else if char = '(' then { depths with paren := depths.paren + 1 }
  else if char = ')' then { depths with paren := depths.paren - 1 }
  else if char = '[' then { depths with square := depths.square + 1 }
  else if char = ']' then { depths with square := depths.square - 1 }
  else depths

end Depths

/-- The stripped part, unless it is empty. -/
def nonemptyPart (current : Text) : List Text :=
  let part := Text.strip current
  if part = [] then [] else [part]

/-- The loop over the characters, with the current part read so far. -/
def splitLoop (depths : Depths) (current : Text) : Text → List Text
  | [] => nonemptyPart current
  | char :: text =>
      let depths := depths.after char
      if char = ',' ∧ depths = .zero then
        nonemptyPart current ++ splitLoop depths [] text
      else
        splitLoop depths (current ++ [char]) text

def splitTopLevel (text : Text) : List Text :=
  splitLoop .zero [] text

def notNewline (char : Char) : Bool := char ≠ '\n'

structure FunctionPointer where
  returnType : Text
  parameters : List Text
  deriving DecidableEq

/-- `^(?P<return_type>.+?)\s*\(\*\)\((?P<params>.*)\)$` -/
def signaturePattern : Pattern (Text × Text) := do
  let returnType ← Pattern.lazySome notNewline
  let _ ← Pattern.greedyMany Text.isSpace
  Pattern.literal "(*)("
  let params ← Pattern.greedyMany notNewline
  Pattern.literal ")"
  Pattern.endOfText
  return (returnType, params)

/-- How a match of the pattern takes the text apart. -/
theorem signaturePattern_shape {text returnType params left : Text}
    (matched : ((returnType, params), left) ∈ signaturePattern text) :
    returnType ≠ [] ∧ ∃ spaces rest, (rest = [] ∨ rest = ['\n']) ∧
      text = returnType ++ (spaces ++ ("(*)(".toList ++ (params ++ ')' :: rest))) := by
  simp only [signaturePattern, Pattern.bind_apply, List.mem_flatMap, Pattern.pure_apply,
    List.mem_singleton, Prod.mk.injEq] at matched
  rcases matched with ⟨⟨type, afterType⟩, inType, ⟨spaces, afterSpaces⟩, inSpaces,
    ⟨opened, afterOpen⟩, inOpen, ⟨inner, afterParams⟩, inParams, ⟨closed, rest⟩, inClose,
    ⟨ended, last⟩, inEnd, ⟨rfl, rfl⟩, _⟩
  have ⟨shapeType, nonempty, _⟩ := Pattern.mem_lazySome.mp inType
  have shapeSpaces : afterType = spaces ++ afterSpaces := (Pattern.mem_greedyMany.mp inSpaces).1
  have shapeOpen : afterSpaces = "(*)(".toList ++ afterOpen := Pattern.mem_literal.mp inOpen
  have shapeParams : afterOpen = params ++ afterParams := (Pattern.mem_greedyMany.mp inParams).1
  have shapeClose : afterParams = ")".toList ++ rest := Pattern.mem_literal.mp inClose
  refine ⟨nonempty, spaces, rest, (Pattern.mem_endOfText.mp inEnd).2, ?_⟩
  rw [shapeType, shapeSpaces, shapeOpen, shapeParams, shapeClose]
  rfl

theorem signaturePattern_last {text returnType params left : Text}
    (matched : ((returnType, params), left) ∈ signaturePattern text) :
    text.getLast? = some ')' ∨ text.getLast? = some '\n' := by
  have ⟨_, spaces, rest, ended, shape⟩ := signaturePattern_shape matched
  have closed : text = (returnType ++ (spaces ++ ("(*)(".toList ++ params))) ++ ')' :: rest := by
    rw [shape]
    simp only [List.append_assoc]
  rw [closed, List.getLast?_append_of_ne_nil _ (List.cons_ne_nil _ _)]
  rcases ended with rfl | rfl
  · exact .inl rfl
  · exact .inr rfl

theorem notNewline_of_notMem {text : Text} (oneLine : '\n' ∉ text) :
    ∀ char ∈ text, notNewline char = true := by
  intro char membership
  have different : char ≠ '\n' := by
    intro same
    rw [same] at membership
    exact oneLine membership
  simpa [notNewline] using different

/-- Spaces do not reach past a character that is none. -/
theorem spaces_before_solid {text spaces after rest : Text} (shape : text ++ after = spaces ++ rest)
    (allSpaces : ∀ char ∈ spaces, Text.isSpace char = true)
    (solid : ∃ char ∈ text, Text.isSpace char = false) :
    ∃ inner, inner ≠ [] ∧ text = spaces ++ inner ∧ rest = inner ++ after := by
  obtain ⟨char, charIn, notSpace⟩ := solid
  have charNotInSpaces : char ∉ spaces := by
    intro membership
    rw [allSpaces char membership] at notSpace
    cases notSpace
  rcases List.append_eq_append_iff.mp shape with ⟨inner, rfl, _⟩ | ⟨inner, rfl, rfl⟩
  · exact absurd (List.mem_append_left _ charIn) charNotInSpaces
  · refine ⟨inner, ?_, rfl, rfl⟩
    rintro rfl
    rw [List.append_nil] at charIn
    exact charNotInSpaces charIn

theorem parenthesis_notMem {head : Char} {tail spaces : Text} (notOpen : '(' ∉ head :: tail)
    (allSpaces : ∀ char ∈ spaces, Text.isSpace char = true) : '(' ∉ tail ++ spaces := by
  intro opens
  rcases List.mem_append.mp opens with inTail | inSpaces
  · exact notOpen (List.mem_cons_of_mem _ inTail)
  · exact absurd (allSpaces _ inSpaces) (by decide)

/-- A return type reaches up to the spaces before the first separator. -/
theorem lazyType_bind_head {α : Type} {separator : Text} {next : Text → Pattern α} {head : Char}
    {tail spaces rest : Text} {found : α × Text} (typeLine : '\n' ∉ head :: tail)
    (solid : ∀ char ∈ (head :: tail).getLast?, Text.isSpace char = false)
    (allSpaces : ∀ char ∈ spaces, Text.isSpace char = true)
    (separates : ∀ char ∈ (separator ++ rest).head?, Text.isSpace char = false)
    (earliest : ∀ earlier later,
      tail ++ (spaces ++ (separator ++ rest)) = earlier ++ (separator ++ later) →
        (tail ++ spaces).length ≤ earlier.length)
    (continues : (next (head :: tail) rest).head? = some found) :
    ((do
      let returnType ← Pattern.lazySome notNewline
      let _ ← Pattern.greedyMany Text.isSpace
      Pattern.literal separator
      next returnType : Pattern α)
        (head :: (tail ++ (spaces ++ (separator ++ rest))))).head? = some found := by
  apply Pattern.lazySome_bind_head (notNewline_of_notMem typeLine)
  · intro taken left shape leftNonempty
    apply List.eq_nil_iff_forall_not_mem.mpr
    intro other matched
    simp only [Pattern.bind_apply, List.mem_flatMap] at matched
    obtain ⟨⟨skipped, afterSpaces⟩, inSpaces, ⟨opened, afterOpen⟩, inOpen, _⟩ := matched
    have ⟨shapeSpaces, allSkipped⟩ := Pattern.mem_greedyMany.mp inSpaces
    have shapeOpen : afterSpaces = separator ++ afterOpen := Pattern.mem_literal.mp inOpen
    have sameLast : (head :: tail).getLast? = left.getLast? := by
      rw [shape, ← List.cons_append, List.getLast?_append_of_ne_nil _ leftNonempty]
    have last := List.getLast?_eq_some_getLast leftNonempty
    obtain ⟨inner, innerNonempty, rfl, behind⟩ := spaces_before_solid shapeSpaces allSkipped
      ⟨left.getLast leftNonempty, List.getLast_mem leftNonempty, solid _ (sameLast.trans last)⟩
    have occurs : tail ++ (spaces ++ (separator ++ rest)) =
        (taken ++ skipped) ++ (separator ++ afterOpen) := by
      rw [← shapeOpen, behind, shape]
      simp only [List.append_assoc]
    have tooEarly := earliest _ _ occurs
    have innerLength := List.length_pos_iff.mpr innerNonempty
    rw [shape] at tooEarly
    simp only [List.length_append] at tooEarly
    omega
  · apply Pattern.greedyMany_bind_head allSpaces separates
    rw [Pattern.literal_bind_append]
    exact continues

/-- The return type reaches up to the spaces before the first place where the signature matches. -/
theorem signaturePattern_first {head : Char} {tail spaces params : Text}
    (typeLine : '\n' ∉ head :: tail) (paramsLine : '\n' ∉ params)
    (solid : ∀ char ∈ (head :: tail).getLast?, Text.isSpace char = false)
    (allSpaces : ∀ char ∈ spaces, Text.isSpace char = true)
    (earliest : ∀ earlier later,
      tail ++ (spaces ++ ("(*)(".toList ++ (params ++ [')']))) = earlier ++ ("(*)(".toList ++ later) →
      (tail ++ spaces).length ≤ earlier.length) :
    signaturePattern.first (head :: (tail ++ (spaces ++ ("(*)(".toList ++ (params ++ [')']))))) =
      some (head :: tail, params) := by
  have matched : (signaturePattern
      (head :: (tail ++ (spaces ++ ("(*)(".toList ++ (params ++ [')'])))))).head? =
        some ((head :: tail, params), []) := by
    apply lazyType_bind_head typeLine solid allSpaces _ earliest
    · apply Pattern.greedyMany_bind_concat
      · apply notNewline_of_notMem
        simpa using paramsLine
      · rfl
      · rfl
    · intro char isHead
      cases isHead
      rfl
  unfold Pattern.first
  rw [matched]
  rfl

def parseFunctionPointer (typeName : Text) : Option FunctionPointer := do
  let (returnType, params) ← signaturePattern.first typeName
  let paramsText := Text.strip params
  let params :=
    if paramsText = [] ∨ paramsText = ("void" : Text) then [] else splitTopLevel paramsText
  return ⟨Text.strip returnType, params⟩

theorem parseFunctionPointer_of_signature {typeName returnType params : Text}
    (matched : signaturePattern.first typeName = some (returnType, params)) :
    parseFunctionPointer typeName =
      some ⟨Text.strip returnType,
        if Text.strip params = [] ∨ Text.strip params = "void".toList then []
        else splitTopLevel (Text.strip params)⟩ := by
  unfold parseFunctionPointer
  rw [matched]
  rfl

/-- `^(?P<return_type>.+?)\s*\(` -/
def returnTypePattern : Pattern Text := do
  let returnType ← Pattern.lazySome notNewline
  let _ ← Pattern.greedyMany Text.isSpace
  Pattern.literal "("
  return returnType

/-- The return type reaches up to the spaces before the first parenthesis. -/
theorem returnTypePattern_first {returnType spaces rest : Text} (nonempty : returnType ≠ [])
    (oneLine : '\n' ∉ returnType) (notOpen : '(' ∉ returnType)
    (solid : ∀ char ∈ returnType.getLast?, Text.isSpace char = false)
    (allSpaces : ∀ char ∈ spaces, Text.isSpace char = true) :
    returnTypePattern.first (returnType ++ (spaces ++ '(' :: rest)) = some returnType := by
  cases returnType with
  | nil => exact absurd rfl nonempty
  | cons head tail =>
      have matched : (returnTypePattern (head :: (tail ++ (spaces ++ ("(".toList ++ rest))))).head? =
          some (head :: tail, rest) := by
        apply lazyType_bind_head oneLine solid allSpaces
        · intro char isHead
          cases isHead
          rfl
        · intro earlier later occurs
          rw [← List.append_assoc] at occurs
          exact Text.length_le_of_notMem (parenthesis_notMem notOpen allSpaces) occurs
        · rfl
      unfold Pattern.first
      rw [List.cons_append]
      exact congrArg (Option.map Prod.fst) matched

def extractReturnType (functionType : Text) : Text :=
  if Text.contains functionType "->" then
    Text.strip ((Text.afterLast "->" functionType).getD functionType)
  else
    match returnTypePattern.first functionType with
    | some returnType => Text.strip returnType
    | none => functionType

end CppCore.Ffi
