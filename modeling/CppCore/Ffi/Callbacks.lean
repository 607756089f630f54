import CppCore.Ffi.ParameterTypes

/-!
# Callbacks are taken apart

`parse_function_pointer` inverts the classic spelling of function pointer types,
with callbacks among the parameters nested to any depth.
-/

namespace CppCore.Ffi

/-- A return type without parentheses. -/
structure FlatType (type : Text) : Prop where
  nonempty : type ≠ []
  trimmed : Text.Trimmed type
  oneLine : '\n' ∉ type
  notOpen : '(' ∉ type
  notClose : ')' ∉ type

/-- The classic spelling without the space in front of the star. -/
def tightPointer (returnType : Text) (parameters : List Text) : Text :=
  returnType ++ "(*)(".toList ++ parameterList parameters ++ ")".toList

/-- The first parenthesis is the one in front of the star. -/
theorem signaturePattern_first_of_flat {returnType spaces params : Text}
    (flat : FlatType returnType) (allSpaces : ∀ char ∈ spaces, Text.isSpace char = true)
    (paramsLine : '\n' ∉ params) :
    signaturePattern.first (returnType ++ (spaces ++ ("(*)(".toList ++ (params ++ [')'])))) =
      some (returnType, params) := by
  cases returnType with
  | nil => exact absurd rfl flat.nonempty
  | cons head tail =>
      apply signaturePattern_first flat.oneLine paramsLine _ allSpaces
      · intro earlier later occurs
        rw [← List.append_assoc] at occurs
        exact Text.length_le_of_notMem (parenthesis_notMem flat.notOpen allSpaces) occurs
      · exact (Text.trimmed_iff.mp flat.trimmed).2

theorem parseFunctionPointer_of_flat {returnType spaces params : Text}
    (flat : FlatType returnType) (allSpaces : ∀ char ∈ spaces, Text.isSpace char = true)
    (paramsLine : '\n' ∉ params) (paramsTrimmed : Text.Trimmed params) :
    parseFunctionPointer (returnType ++ (spaces ++ ("(*)(".toList ++ (params ++ [')'])))) =
      some ⟨returnType,
        if params = [] ∨ params = "void".toList then [] else splitTopLevel params⟩ := by
  have matched := signaturePattern_first_of_flat flat allSpaces paramsLine
  have typeStripped : Text.strip returnType = returnType := flat.trimmed
  have paramsStripped : Text.strip params = params := paramsTrimmed
  rw [parseFunctionPointer_of_signature matched, typeStripped, paramsStripped]

/-- Any list of passed types is read back, unless it is the list of `void`. -/
theorem parseFunctionPointer_of_passed {returnType spaces : Text} (flat : FlatType returnType)
    (allSpaces : ∀ char ∈ spaces, Text.isSpace char = true) {texts : List Text}
    (passed : ∀ text ∈ texts, Passed text) (notVoid : texts ≠ ["void".toList]) :
    parseFunctionPointer
        (returnType ++ (spaces ++ ("(*)(".toList ++ (parameterList texts ++ [')'])))) =
      some ⟨returnType, texts⟩ := by
  rw [parseFunctionPointer_of_flat flat allSpaces (newline_notMem_parameterList passed)
    (parameterList_trimmed passed)]
  by_cases none : texts = []
  · rw [none]
    rfl
  · have written : ¬ (parameterList texts = [] ∨ parameterList texts = "void".toList) := by
      rintro (empty | isVoid)
      · exact parameterList_ne_nil passed none empty
      · exact notVoid (eq_void_of_parameterList isVoid)
    rw [if_neg written, splitTopLevel_parameterList passed]

theorem classicPointer_eq (returnType : Text) (parameters : List Text) :
    classicPointer returnType parameters =
      returnType ++ ([' '] ++ ("(*)(".toList ++ (parameterList parameters ++ [')']))) := by
  simp [classicPointer]

theorem tightPointer_eq (returnType : Text) (parameters : List Text) :
    tightPointer returnType parameters =
      returnType ++ ([] ++ ("(*)(".toList ++ (parameterList parameters ++ [')']))) := by
  simp [tightPointer]

/-- Both spellings of a callback are read back to its return type and its parameters. -/
theorem parseFunctionPointer_inverts {returnType : Text} (flat : FlatType returnType)
    (types : List ParameterType) :
    (parameterTexts types ≠ ["void".toList] →
      parseFunctionPointer (classicPointer returnType (parameterTexts types)) =
        some ⟨returnType, parameterTexts types⟩ ∧
      parseFunctionPointer (tightPointer returnType (parameterTexts types)) =
        some ⟨returnType, parameterTexts types⟩) ∧
    parseFunctionPointer (classicPointer returnType ["void".toList]) = some ⟨returnType, []⟩ ∧
    parseFunctionPointer (tightPointer returnType ["void".toList]) = some ⟨returnType, []⟩ := by
  have space : ∀ char ∈ [' '], Text.isSpace char = true := List.forall_mem_singleton.mpr rfl
  have noSpaces : ∀ char ∈ [], Text.isSpace char = true := List.forall_mem_nil _
  have passed := parameterTexts_passed types
  simp only [classicPointer_eq, tightPointer_eq]
  refine ⟨fun notVoid => ⟨?_, ?_⟩, ?_, ?_⟩
  · exact parseFunctionPointer_of_passed flat space passed notVoid
  · exact parseFunctionPointer_of_passed flat noSpaces passed notVoid
  · exact parseFunctionPointer_of_flat flat space (by decide) (by decide)
  · exact parseFunctionPointer_of_flat flat noSpaces (by decide) (by decide)

def TypeName.int : TypeName where
  text := "int"
  nonempty := by decide
  trimmed := by decide
  plain := by simp

/-- A callback that takes a callback. -/
theorem parseFunctionPointer_inverts_nested :
    parseFunctionPointer "void (*)(int, int (*)(int, int))" =
      some ⟨"void".toList, ["int".toList, "int (*)(int, int)".toList]⟩ := by
  have flat : FlatType "void".toList := ⟨by decide, by decide, by decide, by decide, by decide⟩
  have read := (parseFunctionPointer_inverts flat [.named (.name .int),
    .functionPointer (.name .int) [.named (.name .int), .named (.name .int)]]).1 (by decide)
  exact read.1

end CppCore.Ffi
