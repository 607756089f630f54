import CppCore.Ffi.Splitting
import CppCore.Library.Brackets

/-!
# Torn types

The pattern of a function pointer looks at brackets nowhere but at its ends: it
takes the first `(*)(` and the last `)`.  The parts are whole exactly when these
two belong together and stand outside of all other brackets.
-/

namespace CppCore.Ffi

open Brackets

/-- A type text in one piece. -/
structure Whole (text : Text) : Prop where
  nonempty : text ≠ []
  nested : Nested text

/-- Whatever is read from the type is whole. -/
def NothingTorn (typeName : Text) : Prop :=
  ∀ pointer, parseFunctionPointer typeName = some pointer →
    Whole pointer.returnType ∧ ∀ parameter ∈ pointer.parameters, Whole parameter

/-- In a type that ends in a bracket, the first `(*)(` behind the first character stands outside of
all brackets, and the bracket that it opens is the one that is closed at the end. -/
def SignatureOutermost (typeName : Text) : Prop :=
  ∀ head rest before behind, typeName = head :: rest → typeName.getLast? = some ')' →
    Text.partition "(*)(" rest = some (before, behind) →
    depth? 0 (head :: before) = some 0 ∧ ∃ inner, closing? 0 behind = some (inner, [])

theorem nested_nonemptyPart_iff {current : Text} :
    (∀ part ∈ nonemptyPart current, Nested part) ↔ Nested current := by
  rw [← nested_strip_iff]
  constructor
  · intro nested
    by_cases empty : Text.strip current = []
    · rw [empty]
      exact .nil
    · exact nested _ (mem_nonemptyPart.mpr ⟨rfl, empty⟩)
  · intro nested part membership
    rw [(mem_nonemptyPart.mp membership).1]
    exact nested

/-- Parts that are nested come from a text that is. -/
theorem nested_of_splitTopLevel {text : Text} (nested : ∀ part ∈ splitTopLevel text, Nested part) :
    Nested text := by
  rw [splitTopLevel_eq] at nested
  have segments : ∀ segment ∈ topLevel.segments .zero [] text, Nested segment := by
    intro segment membership
    apply nested_nonemptyPart_iff.mp
    intro part inSegment
    exact nested part (List.mem_flatMap.mpr ⟨segment, membership, inSegment⟩)
  have comma : Nested [','] := .plain (by decide) (by decide) .nil
  have joined := nested_intercalate comma segments
  have separates : ∀ depths char, topLevel.cuts depths char = true → char = ',' :=
    fun depths char cut => (of_decide_eq_true cut).1
  rwa [Scanner.intercalate_segments separates, List.nil_append] at joined

theorem paren_after {depths : Depths} {char : Char} {next : Nat}
    (read : after? depths.paren char = some next) : (depths.after char).paren = next := by
  unfold after? at read
  unfold Depths.after
  split_ifs at read ⊢ <;> simp_all

/-- The splitter counts the round brackets of a nested text as they are. -/
def Counted (depths : Depths) (current rest : Text) : Prop :=
  depth? 0 current = some depths.paren ∧ depth? depths.paren rest = some 0

theorem Counted.step {depths : Depths} {current rest : Text} {char : Char}
    (counted : Counted depths current (char :: rest)) :
    Counted (depths.after char) (current ++ [char]) rest := by
  obtain ⟨before, behind⟩ := counted
  obtain ⟨next, read, later⟩ := Option.bind_eq_some_iff.mp behind
  have same := paren_after read
  constructor
  · rw [depth?_append, before, same]
    exact Option.bind_eq_some_iff.mpr ⟨depths.paren, rfl, by rw [depth?, read]; rfl⟩
  · rw [same]
    exact later

/-- The splitter cuts a nested text where no round bracket is open. -/
theorem whole_of_mem_splitTopLevel {text : Text} (nested : Nested text) :
    ∀ part ∈ splitTopLevel text, Whole part := by
  have segments : ∀ segment ∈ topLevel.segments .zero [] text, Nested segment := by
    refine Scanner.forall_mem_segments Counted ?_ ?_ ?_ ⟨rfl, nested_iff.mp nested⟩
    · intro depths current counted
      have closed : depths.paren = 0 := Option.some.inj counted.2
      rw [nested_iff, counted.1, closed]
    · intro depths current char rest counted cut
      have ⟨isComma, atZero⟩ : char = ',' ∧ depths.after char = .zero := of_decide_eq_true cut
      subst isComma
      have unchanged : depths = .zero := atZero
      subst unchanged
      exact ⟨nested_iff.mpr counted.1, rfl, counted.2⟩
    · intro depths current char rest counted _
      exact counted.step
  rw [splitTopLevel_eq]
  intro part membership
  obtain ⟨segment, inSegments, inSegment⟩ := List.mem_flatMap.mp membership
  exact ⟨(mem_nonemptyPart.mp inSegment).2,
    nested_nonemptyPart_iff.mpr (segments segment inSegments) part inSegment⟩

/-- What the parameters are read from is whole exactly when the parameters are. -/
theorem parameters_whole_iff {params : Text} :
    (∀ parameter ∈ (if Text.strip params = [] ∨ Text.strip params = "void".toList then []
        else splitTopLevel (Text.strip params)), Whole parameter) ↔ Nested params := by
  rw [← nested_strip_iff]
  split_ifs with written
  · refine ⟨fun _ => ?_, fun _ => List.forall_mem_nil _⟩
    rcases written with empty | isVoid
    · rw [empty]
      exact .nil
    · rw [isVoid]
      decide
  · constructor
    · intro whole
      exact nested_of_splitTopLevel fun part membership => (whole part membership).nested
    · intro nested
      exact whole_of_mem_splitTopLevel nested

/-- In a type that ends in a bracket, the parameters are what stands before it. -/
theorem ends_behind {head : Char} {rest before behind : Text}
    (ends : (head :: rest).getLast? = some ')')
    (found : Text.partition "(*)(" rest = some (before, behind)) :
    ∃ params, behind = params ++ [')'] := by
  have shape : head :: rest = (head :: before ++ "(*)(".toList) ++ behind := by
    rw [(Text.partition_eq_some found).1]
    simp
  rw [shape] at ends
  by_cases empty : behind = []
  · rw [empty, List.append_nil, List.getLast?_append_of_ne_nil _ (by decide)] at ends
    cases ends
  · rw [List.getLast?_append_of_ne_nil _ empty] at ends
    exact List.getLast?_eq_some_iff.mp ends

/-- The signature is found at the first place that leaves a character for the return type. -/
theorem parseFunctionPointer_of_partition {head : Char} {rest before params : Text}
    (oneLine : '\n' ∉ head :: rest) (solid : Text.isSpace head = false)
    (found : Text.partition "(*)(" rest = some (before, params ++ [')'])) :
    parseFunctionPointer (head :: rest) =
      some ⟨Text.strip (Text.strip (head :: before)),
        if Text.strip params = [] ∨ Text.strip params = "void".toList then []
        else splitTopLevel (Text.strip params)⟩ := by
  apply parseFunctionPointer_of_signature
  have ⟨shape, earliest⟩ := Text.partition_eq_some found
  obtain ⟨tail, spaces, stripped, rfl, allSpaces, last⟩ := Text.exists_strip_cons solid before
  rw [List.append_assoc] at shape
  subst shape
  rw [stripped]
  apply signaturePattern_first _ _ last allSpaces earliest
  · intro newline
    exact oneLine (by simpa using Or.imp_right Or.inl (List.mem_cons.mp newline))
  · intro newline
    exact oneLine (by simp [newline])

/-- Only a type with a signature is taken apart. -/
theorem partition_of_parseFunctionPointer {head : Char} {rest : Text} {pointer : FunctionPointer}
    (oneLine : '\n' ∉ head :: rest) (parsed : parseFunctionPointer (head :: rest) = some pointer) :
    (head :: rest).getLast? = some ')' ∧
      ∃ before behind, Text.partition "(*)(" rest = some (before, behind) := by
  obtain ⟨⟨returnType, params⟩, matched, _⟩ := Option.bind_eq_some_iff.mp parsed
  obtain ⟨⟨_, left⟩, isHead, rfl⟩ := Option.map_eq_some_iff.mp matched
  have signature := List.mem_of_head? isHead
  constructor
  · rcases signaturePattern_last signature with closes | breaks
    · exact closes
    · exact absurd (List.mem_of_getLast? breaks) oneLine
  · have ⟨nonempty, spaces, ended, _, shape⟩ := signaturePattern_shape signature
    cases returnType with
    | nil => exact absurd rfl nonempty
    | cons first tail =>
        have inRest : rest = tail ++ spaces ++ "(*)(".toList ++ (params ++ ')' :: ended) := by
          rw [(List.cons.inj shape).2]
          simp
        cases found : Text.partition "(*)(" rest with
        | none =>
            have absent := Text.partition_eq_none (by decide) found
            exact absurd ⟨_, _, inRest.symm⟩ absent
        | some parts => exact ⟨parts.1, parts.2, rfl⟩

/-- Types stay in one piece exactly when the signature is the outermost one. -/
theorem nothingTorn_iff {typeName : Text} (oneLine : '\n' ∉ typeName)
    (trimmed : Text.Trimmed typeName) : NothingTorn typeName ↔ SignatureOutermost typeName := by
  constructor
  · intro nothingTorn head rest before behind shape ends found
    subst shape
    have solid := (Text.trimmed_iff.mp trimmed).1 head rfl
    obtain ⟨params, rfl⟩ := ends_behind ends found
    have ⟨returnWhole, parametersWhole⟩ :=
      nothingTorn _ (parseFunctionPointer_of_partition oneLine solid found)
    constructor
    · exact nested_iff.mp (nested_strip_iff.mp (nested_strip_iff.mp returnWhole.nested))
    · exact ⟨params, closing?_eq_some_iff.mpr
        ⟨rfl, nested_iff.mp (parameters_whole_iff.mp parametersWhole)⟩⟩
  · intro outermost pointer parsed
    cases typeName with
    | nil => cases parsed
    | cons head rest =>
        have solid := (Text.trimmed_iff.mp trimmed).1 head rfl
        have ⟨ends, before, behind, found⟩ := partition_of_parseFunctionPointer oneLine parsed
        have ⟨outside, inner, closed⟩ := outermost head rest before behind rfl ends found
        have ⟨shape, nested⟩ := closing?_eq_some_iff.mp closed
        rw [shape] at found
        rw [parseFunctionPointer_of_partition oneLine solid found] at parsed
        cases parsed
        refine ⟨⟨?_, nested_strip_iff.mpr (nested_strip_iff.mpr (nested_iff.mpr outside))⟩,
          parameters_whole_iff.mpr (nested_iff.mpr nested)⟩
        obtain ⟨tail, _, stripped, _⟩ := Text.exists_strip_cons solid before
        obtain ⟨kept, _, strippedAgain, _⟩ := Text.exists_strip_cons solid tail
        rw [stripped, strippedAgain]
        exact List.cons_ne_nil _ _

theorem nothingTorn_callback : NothingTorn "void (*)(int)" ↔ SignatureOutermost "void (*)(int)" :=
  nothingTorn_iff (by decide) (by decide)

/-- A pointer to a function that takes an integer and returns a pointer to a function of a
character is torn. -/
theorem torn_returned_pointer :
    ¬ ∀ typeName : Text, '\n' ∉ typeName → Text.Trimmed typeName → Nested typeName →
      NothingTorn typeName := by
  intro nothingTorn
  have whole := nothingTorn "void (*(*)(int))(char)" (by decide) (by decide) (by decide)
    ⟨"void (*".toList, ["int))(char".toList]⟩ (by decide)
  exact absurd whole.1.nested (by decide)

end CppCore.Ffi
