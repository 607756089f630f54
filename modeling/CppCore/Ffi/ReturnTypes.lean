import CppCore.Ffi.Spelling

/-!
# Return types are recovered

The reducer reads the return type back from every spelling in which clang prints
a function type, as long as no parameter has an arrow.
-/

namespace CppCore.Ffi

/-- The classic spelling without the space, for return types that end in `*` or `&`. -/
def tightFunction (returnType : Text) (parameters : List Text) : Text :=
  returnType ++ "(".toList ++ parameterList parameters ++ ")".toList

def noexceptFunction (returnType : Text) (parameters : List Text) : Text :=
  "auto (".toList ++ parameterList parameters ++ ") noexcept -> ".toList ++ returnType

theorem extractReturnType_tightFunction {returnType : Text} (plain : PlainType returnType)
    {parameters : List Text}
    (noArrow : ∀ parameter ∈ parameters, ¬ "->".toList <:+: parameter) :
    extractReturnType (tightFunction returnType parameters) = returnType := by
  have absent : ¬ "->".toList <:+: tightFunction returnType parameters := by
    intro occurs
    obtain ⟨parameter, membership, inside⟩ :=
      (arrow_in_signature_iff plain (by decide) (by simp)).mp occurs
    exact noArrow parameter membership inside
  have shape : tightFunction returnType parameters =
      returnType ++ ([] ++ '(' :: (parameterList parameters ++ ")".toList)) := by
    simp [tightFunction]
  have noSpaces : ∀ char ∈ [], Text.isSpace char = true := List.forall_mem_nil _
  rw [shape] at absent ⊢
  exact extractReturnType_before_parenthesis plain noSpaces absent

theorem extractReturnType_noexceptFunction {returnType : Text}
    (arrowFree : ArrowFreeType returnType) (parameters : List Text) :
    extractReturnType (noexceptFunction returnType parameters) = returnType := by
  have close : ") noexcept -> ".toList = ") noexcept ".toList ++ "-> ".toList := by decide
  have behind := extractReturnType_behind_arrow arrowFree
    ("auto (".toList ++ parameterList parameters ++ ") noexcept ".toList)
  unfold noexceptFunction
  rw [close, ← List.append_assoc]
  exact behind

/-- Whatever the parameters are, nested callbacks included, the declared return type is recovered
from both spellings. -/
theorem extractReturnType_recovers (parameters : List Text)
    (noArrow : ∀ parameter ∈ parameters, ¬ "->".toList <:+: parameter) :
    (∀ returnType, PlainType returnType →
      extractReturnType (classicFunction returnType parameters) = returnType ∧
      extractReturnType (tightFunction returnType parameters) = returnType) ∧
    ∀ returnType, ArrowFreeType returnType →
      extractReturnType (trailingFunction returnType parameters) = returnType ∧
      extractReturnType (noexceptFunction returnType parameters) = returnType := by
  constructor
  · intro returnType plain
    refine ⟨extractReturnType_of_no_arrow plain ?_, extractReturnType_tightFunction plain noArrow⟩
    intro occurs
    obtain ⟨parameter, membership, inside⟩ := (arrow_in_classicFunction_iff plain).mp occurs
    exact noArrow parameter membership inside
  · intro returnType arrowFree
    exact ⟨extractReturnType_trailingFunction arrowFree parameters,
      extractReturnType_noexceptFunction arrowFree parameters⟩

/-- A function that takes a callback and returns a pointer, in the tight spelling. -/
theorem extractReturnType_recovers_callback :
    extractReturnType "const char *(void (*)(int, const char *))" = "const char *".toList :=
  ((extractReturnType_recovers ["void (*)(int, const char *)"] (by decide)).1 "const char *"
    ⟨by decide, by decide, by decide, by decide, by decide, by decide⟩).2

end CppCore.Ffi
