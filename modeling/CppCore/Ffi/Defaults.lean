import CppCore.Ffi.Reducer
import CppCore.Library.CppExpressions

/-!
# Default arguments

What `extract_default_expr` prints is read as C++ again.  Operators are put in
front of the text of their operand, and a boolean there is printed as Python
does.
-/

namespace CppCore.Ffi

open Cpp Dict

/-- The expression that a default argument declares, without the wrappers around its parts. -/
inductive Declares : Dict → Expression → Prop
  | wrapper {node child : Dict} {children : List Json} {expression : Expression} :
      wrapperKinds.any node.hasKind = true → node.getList "inner" = .ok children →
      children.findSome? Json.asDict = some child → Declares child expression →
      Declares node expression
  | integer {node : Dict} {value : Nat} :
      node.hasKind "IntegerLiteral" = true → node.get "value" = .str (Nat.toDigits 10 value) →
      Declares node (.integer value)
  | boolean {node : Dict} {value : Bool} :
      node.hasKind "CXXBoolLiteralExpr" = true → node.get "value" = .bool value →
      Declares node (.boolean value)
  | nullptr {node : Dict} :
      node.hasKind "CXXNullPtrLiteralExpr" = true → Declares node .nullptr
  | name {node referenced : Dict} {identifier : Identifier} :
      node.hasKind "DeclRefExpr" = true → node.getDict "referencedDecl" = .ok referenced →
      referenced.get "name" = .str identifier.text → Declares node (.name identifier)
  | unary {node child : Dict} {children : List Json} {operator : PrefixOperator}
      {operand : Expression} :
      node.hasKind "UnaryOperator" = true → (node.get "isPostfix").truthy = false →
      node.getText "opcode" "" = .ok operator.text → node.getList "inner" = .ok children →
      children.findSome? Json.asDict = some child → Declares child operand →
      Declares node (.unary operator operand)

/-- The text of a default in an f-string. -/
def printed : Expression → Text
  | .integer value => Nat.toDigits 10 value
  | .boolean true => "True"
  | .boolean false => "False"
  | .nullptr => "nullptr"
  | .name identifier => identifier.text
  | .unary operator operand => operator.text ++ printed operand

def defaultValue : Expression → Json
  | .boolean value => .bool value
  | expression => .str (printed expression)

theorem formatValue_defaultValue (expression : Expression) :
    formatValue (defaultValue expression) = .ok (printed expression) := by
  cases expression with
  | boolean value => cases value <;> rfl
  | _ => rfl

theorem applyOperator_defaultValue {node : Dict} {opcode : Text}
    (read : node.getText "opcode" "" = .ok opcode) (operand : Expression) :
    applyOperator node (defaultValue operand) = .ok (.str (opcode ++ printed operand)) := by
  have applied : (do return .str ((← node.getText "opcode" "") ++
      (← formatValue (defaultValue operand))) : Except Fault Json) =
        .ok (.str (opcode ++ printed operand)) := by
    rw [read, formatValue_defaultValue]
    rfl
  cases operand <;> exact applied

/-- The reducer finds the default that is declared. -/
theorem extractDefaultExpr_of_declares {node : Dict} {expression : Expression}
    (declares : Declares node expression) :
    extractDefaultExpr node = .ok (defaultValue expression) := by
  induction declares with
  | wrapper isWrapper read first _ inductionHypothesis =>
      rw [extractDefaultExpr_wrapper isWrapper, read]
      exact (defaultOfFirst_eq first).trans inductionHypothesis
  | integer isKind read =>
      rw [extractDefaultExpr_literal isKind (by decide), read]
      rfl
  | boolean isKind read =>
      rw [extractDefaultExpr_literal isKind (by decide), read]
      rfl
  | nullptr isKind => exact extractDefaultExpr_nullptr isKind
  | @name node referenced identifier isKind read named =>
      have name : referenced.getText? "name" = .ok (some identifier.text) := by
        rw [getText?, named]
      have word := identifier.word
      rw [extractDefaultExpr_reference isKind, read, Fallible.ok_bind, name, Fallible.ok_bind]
      cases written : identifier.text with
      | nil =>
          rw [written] at word
          cases word
      | cons char rest =>
          have value : defaultValue (.name identifier) = .str (char :: rest) :=
            congrArg Json.str written
          rw [value]
          rfl
  | unary isKind _ opcode read first _ inductionHypothesis =>
      rw [extractDefaultExpr_operator isKind, read, Fallible.ok_bind, defaultOfFirst_eq first,
        inductionHypothesis, Fallible.ok_bind]
      exact applyOperator_defaultValue opcode _

/-- A sign in front of its own kind, with which it is read as one token. -/
def Doubled : PrefixOperator → Expression → Prop
  | .plus, .unary .plus _ | .plus, .unary .increment _ => True
  | .minus, .unary .minus _ | .minus, .unary .decrement _ => True
  | _, _ => False

/-- No sign is doubled, and there is no boolean. -/
def Unbroken : Expression → Prop
  | .boolean _ => False
  | .unary operator operand => ¬ Doubled operator operand ∧ Unbroken operand
  | _ => True

theorem doubled_text {operator : PrefixOperator} {operand : Expression}
    (doubled : Doubled operator operand) : ∃ merged : PrefixOperator, ∃ rest,
      merged ≠ operator ∧ merged.absorbs = [] ∧
        operator.text ++ printed operand = merged.text ++ rest := by
  cases operand with
  | unary inner operand =>
      cases operator <;> cases inner <;> try cases doubled
      · exact ⟨.increment, printed operand, by decide, rfl, rfl⟩
      · exact ⟨.increment, '+' :: printed operand, by decide, rfl, rfl⟩
      · exact ⟨.decrement, printed operand, by decide, rfl, rfl⟩
      · exact ⟨.decrement, '-' :: printed operand, by decide, rfl, rfl⟩
  | _ => cases operator <;> cases doubled

theorem head_printed {expression : Expression} {next : Char}
    (isHead : next ∈ (printed expression).head?) : isWordPart next = true ∨
      ∃ operator operand, expression = .unary operator operand ∧ next ∈ operator.text.head? := by
  cases expression with
  | integer value =>
      have digit := Nat.isDigit_of_mem_toDigits (by decide) (Nat.le_refl 10)
        (List.mem_of_head? isHead)
      exact .inl (Bool.or_eq_true_iff.mpr (.inr digit))
  | boolean value => cases value <;> cases isHead <;> exact .inl (by decide)
  | nullptr =>
      cases isHead
      exact .inl (by decide)
  | name identifier =>
      have word := identifier.word
      obtain ⟨rest, shape⟩ := List.head?_eq_some_iff.mp isHead
      have written : identifier.text = next :: rest := shape
      rw [written] at word
      exact .inl (Bool.or_eq_true_iff.mpr (.inl (Bool.and_eq_true_iff.mp word).1))
  | unary operator operand =>
      refine .inr ⟨operator, operand, rfl, ?_⟩
      cases operator <;> exact isHead

theorem not_wordPart_of_absorbed {operator : PrefixOperator} {next : Char}
    (absorbed : next ∈ operator.absorbs) : isWordPart next = false := by
  have noLetters : operator.absorbs.all (fun next => !isWordPart next) = true := by
    cases operator <;> rfl
  simpa using List.all_eq_true.mp noLetters next absorbed

/-- An operator that doubles no sign is a token of its own. -/
theorem stands_of_not_doubled {operator : PrefixOperator} {operand : Expression}
    (notDoubled : ¬ Doubled operator operand) :
    ∀ next ∈ (printed operand).head?, next ∉ operator.absorbs := by
  intro next isHead absorbed
  rcases head_printed isHead with wordPart | ⟨inner, innermost, rfl, isMark⟩
  · rw [not_wordPart_of_absorbed absorbed] at wordPart
    cases wordPart
  · cases operator <;> cases inner <;> first
      | exact notDoubled trivial
      | (cases isMark; exact absurd absorbed (by decide))

/-- What is printed behind an operator is read back as long as nothing is broken. -/
theorem read_printed_iff (expression : Expression) :
    read (printed expression) = some expression ↔ Unbroken expression := by
  induction expression with
  | integer value => exact iff_of_true (read_integer value) trivial
  | boolean value => cases value <;> exact iff_of_false (by decide) id
  | nullptr => exact iff_of_true (by decide) trivial
  | name identifier => exact iff_of_true (read_name identifier) trivial
  | unary operator operand inductionHypothesis =>
      by_cases doubled : Doubled operator operand
      · obtain ⟨merged, rest, different, absorbsNothing, text⟩ := doubled_text doubled
        have stands : ∀ next ∈ rest.head?, next ∉ merged.absorbs := by
          rw [absorbsNothing]
          exact fun _ _ => List.not_mem_nil
        have misread : read (printed (.unary operator operand)) =
            (read rest).map (.unary merged) :=
          (congrArg read text).trans (read_operator merged stands)
        refine iff_of_false ?_ fun unbroken => unbroken.1 doubled
        rw [misread, Option.map_eq_some_iff]
        rintro ⟨_, _, same⟩
        cases same
        exact different rfl
      · have alone : read (printed (.unary operator operand)) =
            (read (printed operand)).map (.unary operator) :=
          read_operator operator (stands_of_not_doubled doubled)
        rw [alone, Option.map_eq_some_iff]
        constructor
        · rintro ⟨_, found, same⟩
          cases same
          exact ⟨doubled, inductionHypothesis.mp found⟩
        · intro unbroken
          exact ⟨operand, inductionHypothesis.mpr unbroken.2, rfl⟩

/-- The text of a result, in which a boolean is written as in C++. -/
def resultText : Json → Option Text
  | .bool true => some "true".toList
  | .bool false => some "false".toList
  | .str text => some text
  | _ => none

/-- What the reducer finds for the default is read as the expression. -/
def Denotes (node : Dict) (expression : Expression) : Prop :=
  ∃ result text, extractDefaultExpr node = .ok result ∧ resultText result = some text ∧
    read text = some expression

/-- A default keeps its meaning when it is a boolean alone, or when no sign in it is doubled and no
operator is put in front of a boolean. -/
theorem denotes_iff {node : Dict} {expression : Expression}
    (declares : Declares node expression) :
    Denotes node expression ↔ (∃ value, expression = .boolean value) ∨ Unbroken expression := by
  have found := extractDefaultExpr_of_declares declares
  have readBack : Denotes node expression ↔
      ∃ text, resultText (defaultValue expression) = some text ∧ read text = some expression := by
    constructor
    · rintro ⟨result, text, returned, shown, parsed⟩
      rw [found] at returned
      cases returned
      exact ⟨text, shown, parsed⟩
    · rintro ⟨text, shown, parsed⟩
      exact ⟨_, text, found, shown, parsed⟩
  rw [readBack]
  by_cases boolean : ∃ value, expression = .boolean value
  · obtain ⟨value, rfl⟩ := boolean
    refine iff_of_true ?_ (.inl ⟨value, rfl⟩)
    cases value
    · exact ⟨_, rfl, by decide⟩
    · exact ⟨_, rfl, by decide⟩
  · have shown : resultText (defaultValue expression) = some (printed expression) := by
      cases expression with
      | boolean value => exact absurd ⟨value, rfl⟩ boolean
      | _ => rfl
    rw [shown, or_iff_right boolean, ← read_printed_iff]
    exact ⟨fun ⟨_, same, parsed⟩ => Option.some.inj same ▸ parsed, fun parsed => ⟨_, rfl, parsed⟩⟩

def literalNode (digits : Text) : Dict :=
  [("kind".toList, .str "IntegerLiteral"), ("value".toList, .str digits)]

def operatorNode (opcode : Text) (operand : Dict) : Dict :=
  [("kind".toList, .str "UnaryOperator"), ("isPostfix".toList, .bool false),
    ("opcode".toList, .str opcode), ("inner".toList, .arr [.obj operand])]

theorem denotes_iff_minusOne :
    Denotes (operatorNode "-" (literalNode "1")) (.unary .minus (.integer 1)) ↔
      (∃ value, Expression.unary .minus (.integer 1) = .boolean value) ∨
        Unbroken (.unary .minus (.integer 1)) :=
  denotes_iff (.unary rfl rfl rfl rfl rfl (.integer rfl rfl))

/-- The minus of the minus of one is read as a decrement. -/
theorem not_denotes_minusMinusOne :
    Declares (operatorNode "-" (operatorNode "-" (literalNode "1")))
        (.unary .minus (.unary .minus (.integer 1))) ∧
      ¬ Denotes (operatorNode "-" (operatorNode "-" (literalNode "1")))
        (.unary .minus (.unary .minus (.integer 1))) := by
  have declares : Declares (operatorNode "-" (operatorNode "-" (literalNode "1")))
      (.unary .minus (.unary .minus (.integer 1))) :=
    .unary rfl rfl rfl rfl rfl (.unary rfl rfl rfl rfl rfl (.integer rfl rfl))
  refine ⟨declares, ?_⟩
  rintro ⟨result, text, returned, shown, parsed⟩
  rw [extractDefaultExpr_of_declares declares] at returned
  cases returned
  cases shown
  have decrement : read "--1" = some (.unary .decrement (.integer 1)) := by decide
  have same := decrement.symm.trans parsed
  cases same

end CppCore.Ffi
