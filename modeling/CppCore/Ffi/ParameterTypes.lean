import CppCore.Ffi.Spelling
import CppCore.Ffi.Splitting

/-!
# Parameter types

The grammar of the parameter types of a callback, and how the splitter reads
them: every type leaves the depths as it found them and hides its own commas.
-/

namespace CppCore.Ffi

/-- A name with its qualifiers and stars, such as `const char *`. -/
structure TypeName where
  text : Text
  nonempty : text ≠ []
  trimmed : Text.Trimmed text
  plain : ∀ char ∈ text, char ∉ "()[]<>,\n".toList

mutual

/-- A name or a template instance. -/
inductive NamedType where
  | name (name : TypeName)
  | template (name : TypeName) (arguments : List ParameterType)

inductive ParameterType where
  | named (type : NamedType)
  | functionPointer (returnType : NamedType) (parameters : List ParameterType)

end

mutual

def NamedType.text : NamedType → Text
  | .name name => name.text
  | .template name arguments =>
      name.text ++ ("<".toList ++ parameterList (parameterTexts arguments) ++ ">".toList)

def ParameterType.text : ParameterType → Text
  | .named type => type.text
  | .functionPointer returnType parameters =>
      classicPointer returnType.text (parameterTexts parameters)

def parameterTexts : List ParameterType → List Text
  | [] => []
  | type :: types => type.text :: parameterTexts types

end

/-- A text that the splitter passes over as a whole. -/
structure Passed (text : Text) : Prop where
  nonempty : text ≠ []
  trimmed : Text.Trimmed text
  oneLine : '\n' ∉ text
  run : ∀ depths, topLevel.run depths text = depths
  uncut : ∀ depths, topLevel.Uncut depths text

theorem uncut_of_no_comma {text : Text} (noComma : ',' ∉ text) (depths : Depths) :
    topLevel.Uncut depths text := by
  induction text generalizing depths with
  | nil => trivial
  | cons char text inductionHypothesis =>
      rw [List.mem_cons, not_or] at noComma
      exact ⟨decide_eq_false fun cut => noComma.1 cut.1.symm, inductionHypothesis noComma.2 _⟩

theorem TypeName.neutral (name : TypeName) {char : Char} (membership : char ∈ name.text)
    (depths : Depths) :
    topLevel.next depths char = depths ∧ topLevel.cuts depths char = false :=
  neutral_of_plain (fun cutting => name.plain char membership
    (List.mem_append_left ['\n'] cutting)) depths

theorem TypeName.passed (name : TypeName) : Passed name.text where
  nonempty := name.nonempty
  trimmed := name.trimmed
  oneLine := fun breaks => name.plain _ breaks (by decide)
  run depths := (Scanner.run_and_uncut_of_neutral fun _ membership =>
    name.neutral membership depths).1
  uncut depths := (Scanner.run_and_uncut_of_neutral fun _ membership =>
    name.neutral membership depths).2

/-- Inside of brackets the commas of a list do not cut. -/
theorem passes_parameterList {texts : List Text} (passed : ∀ text ∈ texts, Passed text)
    {depths : Depths} (inside : depths ≠ .zero) :
    topLevel.run depths (parameterList texts) = depths ∧
      topLevel.Uncut depths (parameterList texts) := by
  apply Text.intercalate_induction fun text =>
    topLevel.run depths text = depths ∧ topLevel.Uncut depths text
  · intro text membership
    exact ⟨(passed text membership).run depths, (passed text membership).uncut depths⟩
  · exact fun _ => ⟨rfl, trivial⟩
  · intro first rest ⟨firstRan, firstUncut⟩ ⟨restRan, restUncut⟩
    have separated : topLevel.run depths ", ".toList = depths ∧
        topLevel.Uncut depths ", ".toList :=
      ⟨rfl, decide_eq_false fun cut => inside cut.2, rfl, trivial⟩
    rw [Scanner.run_append, Scanner.run_append, Scanner.uncut_append, Scanner.uncut_append,
      Scanner.run_append, firstRan, separated.1]
    exact ⟨restRan, ⟨firstUncut, separated.2⟩, restUncut⟩

theorem newline_notMem_parameterList {texts : List Text} (passed : ∀ text ∈ texts, Passed text) :
    '\n' ∉ parameterList texts := by
  apply Text.intercalate_induction fun text => '\n' ∉ text
  · exact fun text membership => (passed text membership).oneLine
  · exact fun _ => List.not_mem_nil
  · intro first rest firstLine restLine breaks
    rw [List.mem_append, List.mem_append] at breaks
    rcases breaks with (inFirst | inSeparator) | inRest
    · exact firstLine inFirst
    · exact absurd inSeparator (by decide)
    · exact restLine inRest

/-- A type with a list in brackets behind it. -/
theorem Passed.enclose {first opening : Text} {closing : Char} {inside : Depths → Depths}
    {texts : List Text} (passed : Passed first)
    (opens : ∀ depths, topLevel.run depths opening = inside depths ∧ topLevel.Uncut depths opening)
    (enclosed : ∀ depths, inside depths ≠ .zero)
    (closes : ∀ depths, topLevel.next (inside depths) closing = depths)
    (oneLine : '\n' ∉ opening) (closingPlain : closing ≠ ',' ∧ closing ≠ '\n')
    (solid : Text.isSpace closing = false) (passedTexts : ∀ text ∈ texts, Passed text) :
    Passed (first ++ (opening ++ parameterList texts) ++ [closing]) where
  nonempty := by simp
  trimmed := by
    apply passed.trimmed.append passed.nonempty _ (List.cons_ne_nil _ _)
    apply Text.trimmed_iff.mpr
    simp [solid]
  oneLine := by
    have inList := newline_notMem_parameterList passedTexts
    simp only [List.mem_append, List.mem_singleton, not_or]
    exact ⟨⟨passed.oneLine, oneLine, inList⟩, closingPlain.2.symm⟩
  run depths := by
    have ⟨ran, _⟩ := passes_parameterList passedTexts (enclosed depths)
    rw [Scanner.run_append, Scanner.run_append, Scanner.run_append, passed.run, (opens depths).1,
      ran]
    exact closes depths
  uncut depths := by
    have ⟨ran, uncut⟩ := passes_parameterList passedTexts (enclosed depths)
    rw [Scanner.uncut_append, Scanner.uncut_append, Scanner.uncut_append, Scanner.run_append,
      Scanner.run_append, passed.run, (opens depths).1, ran]
    have closingUncut : topLevel.cuts (topLevel.next (inside depths) closing) closing = false :=
      decide_eq_false fun cut => closingPlain.1 cut.1
    exact ⟨⟨passed.uncut depths, (opens depths).2, uncut⟩, closingUncut, trivial⟩

theorem inside_angle_ne_zero (depths : Depths) : depths.after '<' ≠ .zero := by
  intro zero
  have angle : depths.angle + 1 = 0 := congrArg Depths.angle zero
  cases angle

theorem inside_paren_ne_zero (depths : Depths) : depths.after '(' ≠ .zero := by
  intro zero
  have paren : depths.paren + 1 = 0 := congrArg Depths.paren zero
  cases paren

theorem Passed.template {name : Text} (passed : Passed name) {arguments : List Text}
    (passedArguments : ∀ argument ∈ arguments, Passed argument) :
    Passed (name ++ ("<".toList ++ parameterList arguments) ++ ['>']) :=
  passed.enclose (fun depths => ⟨rfl, uncut_of_no_comma (by decide) depths⟩) inside_angle_ne_zero
    (fun depths => rfl) (by decide) (by decide) rfl passedArguments

theorem Passed.functionPointer {returnType : Text} (passed : Passed returnType)
    {parameters : List Text} (passedParameters : ∀ parameter ∈ parameters, Passed parameter) :
    Passed (returnType ++ (" (*)(".toList ++ parameterList parameters) ++ [')']) :=
  passed.enclose (fun depths => ⟨rfl, uncut_of_no_comma (by decide) depths⟩) inside_paren_ne_zero
    (fun depths => rfl) (by decide) (by decide) rfl passedParameters

mutual

theorem NamedType.passed : (type : NamedType) → Passed type.text
  | .name name => name.passed
  | .template name arguments => by
      have passed := name.passed.template (parameterTexts_passed arguments)
      rw [List.append_assoc] at passed
      rw [NamedType.text]
      exact passed

theorem ParameterType.passed : (type : ParameterType) → Passed type.text
  | .named type => type.passed
  | .functionPointer returnType parameters => by
      have passed := returnType.passed.functionPointer (parameterTexts_passed parameters)
      rw [← List.append_assoc] at passed
      exact passed

theorem parameterTexts_passed : (types : List ParameterType) →
    ∀ text ∈ parameterTexts types, Passed text
  | [] => List.forall_mem_nil _
  | type :: types => List.forall_mem_cons.mpr ⟨type.passed, parameterTexts_passed types⟩

end

theorem Passed.standalone {text : Text} (passed : Passed text) : Standalone text :=
  ⟨passed.nonempty, passed.trimmed, passed.uncut .zero⟩

/-- The splitter takes a list of types apart. -/
theorem splitTopLevel_parameterList {texts : List Text} (passed : ∀ text ∈ texts, Passed text) :
    splitTopLevel (parameterList texts) = texts :=
  splitLoop_intercalate (fun text membership => (passed text membership).standalone)
    (fun text membership => (passed text (List.mem_of_mem_dropLast membership)).run .zero)
    (List.forall_mem_nil _)

theorem parameterList_ne_nil {texts : List Text} (passed : ∀ text ∈ texts, Passed text)
    (nonempty : texts ≠ []) : parameterList texts ≠ [] := by
  apply Text.intercalate_induction fun text => text ≠ []
  · exact fun text membership => (passed text membership).nonempty
  · exact fun none => absurd none nonempty
  · intro first rest firstNonempty _
    rw [List.append_assoc]
    exact List.append_ne_nil_of_left_ne_nil firstNonempty _

theorem parameterList_trimmed {texts : List Text} (passed : ∀ text ∈ texts, Passed text) :
    Text.Trimmed (parameterList texts) := by
  by_cases none : texts = []
  · rw [none]
    rfl
  · have written : parameterList texts ≠ [] ∧ Text.Trimmed (parameterList texts) := by
      apply Text.intercalate_induction fun text => text ≠ [] ∧ Text.Trimmed text
      · exact fun text membership => ⟨(passed text membership).nonempty, (passed text membership).trimmed⟩
      · exact fun empty => absurd empty none
      · intro first rest ⟨firstNonempty, firstTrimmed⟩ ⟨restNonempty, restTrimmed⟩
        rw [List.append_assoc]
        refine ⟨List.append_ne_nil_of_left_ne_nil firstNonempty _, ?_⟩
        rw [← List.append_assoc]
        exact firstTrimmed.append firstNonempty restTrimmed restNonempty _
    exact written.2

/-- Only the list of the single type `void` is written `void`. -/
theorem eq_void_of_parameterList {texts : List Text} (written : parameterList texts = "void".toList) :
    texts = ["void".toList] := by
  cases texts with
  | nil => exact absurd written (by decide)
  | cons text texts =>
      cases texts with
      | nil =>
          rw [parameterList_singleton] at written
          rw [written]
      | cons next texts =>
          have comma : ',' ∈ parameterList (text :: next :: texts) := by
            rw [parameterList_cons_cons]
            simp
          rw [written] at comma
          exact absurd comma (by decide)

end CppCore.Ffi
