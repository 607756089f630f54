import CppCore.Ffi.Types

/-!
# The two spellings of function types

clang prints a function type as its header spells it, with the return type in
front or behind an arrow.
-/

namespace CppCore.Ffi

/-- A return type as clang prints it, without parentheses and without an arrow. -/
structure PlainType (type : Text) : Prop where
  nonempty : type ≠ []
  trimmed : Text.Trimmed type
  oneLine : '\n' ∉ type
  notOpen : '(' ∉ type
  notClose : ')' ∉ type
  noArrow : ¬ "->".toList <:+: type

/-- A return type behind an arrow, where parentheses are allowed. -/
structure ArrowFreeType (type : Text) : Prop where
  nonempty : type ≠ []
  trimmed : Text.Trimmed type
  oneLine : '\n' ∉ type
  noArrow : ¬ "->".toList <:+: type

theorem PlainType.arrowFree {type : Text} (plain : PlainType type) : ArrowFreeType type :=
  ⟨plain.nonempty, plain.trimmed, plain.oneLine, plain.noArrow⟩

def parameterList (parameters : List Text) : Text :=
  List.intercalate ", ".toList parameters

theorem parameterList_singleton (parameter : Text) : parameterList [parameter] = parameter :=
  List.intercalate_singleton

theorem parameterList_cons_cons (first next : Text) (parameters : List Text) :
    parameterList (first :: next :: parameters) =
      first ++ ", ".toList ++ parameterList (next :: parameters) :=
  List.intercalate_cons_cons

def classicFunction (returnType : Text) (parameters : List Text) : Text :=
  returnType ++ " (".toList ++ parameterList parameters ++ ")".toList

def trailingFunction (returnType : Text) (parameters : List Text) : Text :=
  "auto (".toList ++ parameterList parameters ++ ") -> ".toList ++ returnType

def classicPointer (returnType : Text) (parameters : List Text) : Text :=
  returnType ++ " (*)(".toList ++ parameterList parameters ++ ")".toList

def trailingPointer (returnType : Text) (parameters : List Text) : Text :=
  "auto (*)(".toList ++ parameterList parameters ++ ") -> ".toList ++ returnType

/-- The metadata of a function does not show how its type is spelled. -/
def FunctionSpellingsAgree (returnType : Text) (parameters : List Text) : Prop :=
  extractReturnType (classicFunction returnType parameters) = returnType ∧
    extractReturnType (trailingFunction returnType parameters) = returnType

/-- The metadata of a callback does not show how its type is spelled. -/
def CallbackSpellingsAgree (returnType : Text) (parameters : List Text) : Prop :=
  parseFunctionPointer (classicPointer returnType parameters) = some ⟨returnType, parameters⟩ ∧
    parseFunctionPointer (trailingPointer returnType parameters) = some ⟨returnType, parameters⟩

/-- In the classic spelling only the parameters can have an arrow. -/
theorem arrow_in_signature_iff {returnType separator : Text} (plain : PlainType returnType)
    (separates : separator ≠ []) (absent : ∀ char ∈ separator, char ∉ "->".toList)
    {parameters : List Text} :
    "->".toList <:+: returnType ++ separator ++ parameterList parameters ++ ")".toList ↔
      ∃ parameter ∈ parameters, "->".toList <:+: parameter := by
  have nonempty : "->".toList ≠ [] := by decide
  unfold parameterList
  rw [List.append_assoc, List.append_assoc,
    Text.infix_append_append_iff nonempty separates absent, or_iff_right plain.noArrow,
    ← List.append_nil ")".toList, Text.infix_append_append_iff nonempty (by decide) (by simp),
    Text.infix_intercalate_iff nonempty (by decide) (by simp)]
  have notInNil : ¬ "->".toList <:+: [] := by decide
  exact or_iff_left notInNil

theorem arrow_in_classicFunction_iff {returnType : Text} (plain : PlainType returnType)
    {parameters : List Text} :
    "->".toList <:+: classicFunction returnType parameters ↔
      ∃ parameter ∈ parameters, "->".toList <:+: parameter :=
  arrow_in_signature_iff plain (by decide) (by simp)

theorem PlainType.last_not_space {type : Text} (plain : PlainType type) :
    Text.isSpace (type.getLast plain.nonempty) = false :=
  plain.trimmed.last_not_space plain.nonempty

/-- The pattern of the classic spelling asks for a closing parenthesis at the end. -/
theorem parseFunctionPointer_trailingPointer {returnType : Text} (plain : PlainType returnType)
    (parameters : List Text) :
    parseFunctionPointer (trailingPointer returnType parameters) = none := by
  have unmatched : signaturePattern (trailingPointer returnType parameters) = [] := by
    apply List.eq_nil_iff_forall_not_mem.mpr
    intro found matched
    obtain ⟨⟨type, params⟩, left⟩ := found
    -- The text ends as the return type does, in neither a parenthesis nor a newline.
    have last : (trailingPointer returnType parameters).getLast? = returnType.getLast? := by
      unfold trailingPointer
      exact List.getLast?_append_of_ne_nil _ plain.nonempty
    have ends := signaturePattern_last matched
    rw [last] at ends
    rcases ends with closes | breaks
    · exact plain.notClose (List.mem_of_getLast? closes)
    · exact plain.oneLine (List.mem_of_getLast? breaks)
  unfold parseFunctionPointer Pattern.first
  rw [unmatched]
  rfl

/-- What stands in front of the last arrow does not matter. -/
theorem extractReturnType_behind_arrow {returnType : Text} (arrowFree : ArrowFreeType returnType)
    (before : Text) :
    extractReturnType (before ++ "-> ".toList ++ returnType) = returnType := by
  have nonempty : "->".toList ≠ [] := by decide
  have found : Text.afterLast "->" (before ++ "-> ".toList ++ returnType) =
      some (' ' :: returnType) := by
    have noArrow : ¬ "->".toList <:+: ' ' :: returnType := by
      have space := Text.infix_append_right_iff nonempty
        (show ∀ char ∈ [' '], char ∉ "->".toList by simp) returnType
      exact space.not.mpr arrowFree.noArrow
    have last : ¬ '-' :: ['>'] <:+: ['>'] ++ ' ' :: returnType := by
      intro occurs
      rcases List.infix_cons_iff.mp occurs with starts | later
      · exact absurd (List.cons_prefix_cons.mp starts).1 (by decide)
      · exact noArrow later
    have shape : before ++ "-> ".toList ++ returnType =
        before ++ '-' :: (['>'] ++ ' ' :: returnType) := by
      have spaced : "-> ".toList = ['-', '>', ' '] := by decide
      rw [spaced, List.append_assoc]
      rfl
    have arrow : "->".toList = '-' :: ['>'] := by decide
    rw [shape, arrow]
    exact Text.afterLast_of_last last before
  have occurs : Text.contains (before ++ "-> ".toList ++ returnType) "->" = true := by
    obtain ⟨start, shape⟩ := Text.afterLast_spec found
    exact Text.contains_iff.mpr ⟨start, ' ' :: returnType, shape.symm⟩
  have stripped : Text.strip (' ' :: returnType) = returnType :=
    (Text.strip_cons_space rfl returnType).trans arrowFree.trimmed
  unfold extractReturnType
  rw [if_pos occurs, found, Option.getD_some, stripped]

theorem extractReturnType_trailingFunction {returnType : Text}
    (arrowFree : ArrowFreeType returnType) (parameters : List Text) :
    extractReturnType (trailingFunction returnType parameters) = returnType := by
  have close : ") -> ".toList = ") ".toList ++ "-> ".toList := by decide
  have behind := extractReturnType_behind_arrow arrowFree
    ("auto (".toList ++ parameterList parameters ++ ") ".toList)
  unfold trailingFunction
  rw [close, ← List.append_assoc]
  exact behind

theorem extractReturnType_of_arrow {returnType : Text} (plain : PlainType returnType)
    {parameters : List Text} (occurs : "->".toList <:+: classicFunction returnType parameters) :
    extractReturnType (classicFunction returnType parameters) ≠ returnType := by
  obtain ⟨rest, found⟩ := Text.exists_afterLast (by decide) occurs
  obtain ⟨before, shape⟩ := Text.afterLast_spec found
  have closes : rest.getLast? = some ')' := by
    have whole : (classicFunction returnType parameters).getLast? = some ')' := List.getLast?_concat
    cases rest with
    | nil =>
        rw [shape] at whole
        simp at whole
    | cons char rest =>
        rw [← whole, shape, List.getLast?_append_of_ne_nil _ (List.cons_ne_nil _ _)]
  obtain ⟨start, rfl⟩ := List.getLast?_eq_some_iff.mp closes
  unfold extractReturnType
  rw [if_pos (Text.contains_iff.mpr occurs), found]
  intro same
  have last : (Text.strip (start ++ [')'])).getLast? = some ')' := Text.getLast?_strip_concat rfl start
  rw [Option.getD_some] at same
  rw [same] at last
  exact plain.notClose (List.mem_of_getLast? last)

/-- Without an arrow the return type ends before the first parenthesis. -/
theorem extractReturnType_before_parenthesis {returnType spaces rest : Text}
    (plain : PlainType returnType) (allSpaces : ∀ char ∈ spaces, Text.isSpace char = true)
    (absent : ¬ "->".toList <:+: returnType ++ (spaces ++ '(' :: rest)) :
    extractReturnType (returnType ++ (spaces ++ '(' :: rest)) = returnType := by
  have solid : ∀ char ∈ returnType.getLast?, Text.isSpace char = false := by
    intro char isLast
    rw [List.getLast?_eq_some_getLast plain.nonempty] at isLast
    rw [← Option.some.inj isLast]
    exact plain.last_not_space
  unfold extractReturnType
  rw [if_neg (Text.contains_iff.not.mpr absent),
    returnTypePattern_first plain.nonempty plain.oneLine plain.notOpen solid allSpaces]
  exact plain.trimmed

theorem extractReturnType_of_no_arrow {returnType : Text} (plain : PlainType returnType)
    {parameters : List Text}
    (absent : ¬ "->".toList <:+: classicFunction returnType parameters) :
    extractReturnType (classicFunction returnType parameters) = returnType := by
  have shape : classicFunction returnType parameters =
      returnType ++ ([' '] ++ '(' :: (parameterList parameters ++ ")".toList)) := by
    simp [classicFunction]
  have space : ∀ char ∈ [' '], Text.isSpace char = true := List.forall_mem_singleton.mpr rfl
  rw [shape] at absent ⊢
  exact extractReturnType_before_parenthesis plain space absent

theorem functionSpellingsAgree_iff {returnType : Text} (plain : PlainType returnType)
    (parameters : List Text) :
    FunctionSpellingsAgree returnType parameters ↔
      ∀ parameter ∈ parameters, ¬ "->".toList <:+: parameter := by
  have classic : "->".toList <:+: classicFunction returnType parameters ↔
      ∃ parameter ∈ parameters, "->".toList <:+: parameter := arrow_in_classicFunction_iff plain
  constructor
  · intro agree parameter membership occurs
    exact extractReturnType_of_arrow plain (classic.mpr ⟨parameter, membership, occurs⟩) agree.1
  · intro absent
    refine ⟨extractReturnType_of_no_arrow plain ?_, extractReturnType_trailingFunction plain.arrowFree _⟩
    intro occurs
    obtain ⟨parameter, membership, inside⟩ := classic.mp occurs
    exact absent parameter membership inside

theorem not_callbackSpellingsAgree {returnType : Text} (plain : PlainType returnType)
    (parameters : List Text) : ¬ CallbackSpellingsAgree returnType parameters := by
  intro agree
  rw [CallbackSpellingsAgree, parseFunctionPointer_trailingPointer plain] at agree
  cases agree.2

/-- Where the return type stands shows in the metadata of a function exactly when a parameter
has an arrow, and in the metadata of a callback always. -/
theorem spelling_shows {returnType : Text} (plain : PlainType returnType)
    (parameters : List Text) :
    (FunctionSpellingsAgree returnType parameters ↔
      ∀ parameter ∈ parameters, ¬ "->".toList <:+: parameter) ∧
    ¬ CallbackSpellingsAgree returnType parameters :=
  ⟨functionSpellingsAgree_iff plain parameters, not_callbackSpellingsAgree plain parameters⟩

theorem plainType_void : PlainType "void" where
  nonempty := by decide
  trimmed := by decide
  oneLine := by decide
  notOpen := by decide
  notClose := by decide
  noArrow := by decide

theorem spelling_shows_void :
    FunctionSpellingsAgree "void" ["int"] ∧ ¬ CallbackSpellingsAgree "void" ["int"] := by
  have shows := spelling_shows plainType_void ["int"]
  exact ⟨shows.1.mpr (by decide), shows.2⟩

/-- A function that takes a callback in the trailing spelling, and that callback. -/
theorem spelling_changes_metadata :
    ¬ (FunctionSpellingsAgree "void" ["auto (*)(int) -> int"] ∧
        CallbackSpellingsAgree "void" ["auto (*)(int) -> int"]) ∧
      extractReturnType (classicFunction "void" ["auto (*)(int) -> int"]) = "int)".toList ∧
      parseFunctionPointer (trailingPointer "int" ["int"]) = none := by
  refine ⟨?_, by decide, by decide⟩
  intro agree
  have returned : extractReturnType (classicFunction "void" ["auto (*)(int) -> int"]) =
      "void".toList := agree.1.1
  revert returned
  decide

end CppCore.Ffi
