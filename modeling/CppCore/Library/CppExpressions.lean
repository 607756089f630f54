import CppCore.Library.CppTokens

/-!
# C++ expressions

Expressions of prefix operators in front of a literal or a name, and how a text
is read as one.  Indirection and the address of an operand are left out.
-/

namespace Cpp

/-- The words that are no identifiers, those that spell operators among them. -/
def keywords : List Text :=
  ["alignas", "alignof", "asm", "auto", "bool", "break", "case", "catch", "char", "char8_t",
    "char16_t", "char32_t", "class", "concept", "const", "consteval", "constexpr", "constinit",
    "const_cast", "continue", "co_await", "co_return", "co_yield", "decltype", "default", "delete",
    "do", "double", "dynamic_cast", "else", "enum", "explicit", "export", "extern", "false",
    "float", "for", "friend", "goto", "if", "inline", "int", "long", "mutable", "namespace", "new",
    "noexcept", "nullptr", "operator", "private", "protected", "public", "register",
    "reinterpret_cast", "requires", "return", "short", "signed", "sizeof", "static",
    "static_assert", "static_cast", "struct", "switch", "template", "this", "thread_local",
    "throw", "true", "try", "typedef", "typeid", "typename", "union", "unsigned", "using",
    "virtual", "void", "volatile", "wchar_t", "while",
    "and", "and_eq", "bitand", "bitor", "compl", "not", "not_eq", "or", "or_eq", "xor", "xor_eq"]

structure Identifier where
  text : Text
  word : isWord text = true
  free : text ∉ keywords
  deriving DecidableEq

inductive PrefixOperator where
  | plus
  | minus
  | not
  | complement
  | increment
  | decrement
  deriving DecidableEq

namespace PrefixOperator

def text : PrefixOperator → Text
  | .plus => "+"
  | .minus => "-"
  | .not => "!"
  | .complement => "~"
  | .increment => "++"
  | .decrement => "--"

def ofText (text : Text) : Option PrefixOperator :=
  [plus, minus, not, complement, increment, decrement].find? fun operator => operator.text = text

/-- The characters with which the operator begins a longer punctuator. -/
def absorbs : PrefixOperator → List Char
  | .plus => ['+', '=']
  | .minus => ['-', '=', '>']
  | .not => ['=']
  | .complement | .increment | .decrement => []

end PrefixOperator

inductive Expression where
  | integer (value : Nat)
  | boolean (value : Bool)
  | nullptr
  | name (identifier : Identifier)
  | unary (operator : PrefixOperator) (operand : Expression)
  deriving DecidableEq

/-- A decimal literal is the one way to write its value without leading zeros. -/
def decimalValue (digits : Text) : Option Nat :=
  let value := Nat.ofDigitChars 10 digits 0
  if Nat.toDigits 10 value = digits then some value else none

def primary : Token → Option Expression
  | .number digits => (decimalValue digits).map .integer
  | .word letters =>
      if letters = "true" then some (.boolean true)
      else if letters = "false" then some (.boolean false)
      else if letters = "nullptr" then some .nullptr
      else if identifier : isWord letters = true ∧ letters ∉ keywords then
        some (.name ⟨letters, identifier.1, identifier.2⟩)
      else none
  | .punctuator _ => none

def parse : List Token → Option Expression
  | [] => none
  | .punctuator marks :: tokens =>
      (PrefixOperator.ofText marks).bind fun operator => (parse tokens).map (.unary operator)
  | [token] => primary token
  | _ :: _ => none

def read (text : Text) : Option Expression := (tokenize text).bind parse

theorem parse_operator (operator : PrefixOperator) (tokens : List Token) :
    parse (.punctuator operator.text :: tokens) = (parse tokens).map (.unary operator) := by
  cases operator <;> rfl

/-- A punctuator that begins like an operator goes on with a character that the operator absorbs. -/
theorem operator_extended (operator : PrefixOperator) {marks : Text}
    (membership : marks ∈ punctuators) (extended : operator.text <+: marks) :
    marks = operator.text ∨ ∃ next ∈ operator.absorbs, operator.text ++ [next] <+: marks := by
  have checked : (punctuators.all fun marks => !operator.text.isPrefixOf marks ||
      marks = operator.text ||
      operator.absorbs.any fun next => (operator.text ++ [next]).isPrefixOf marks) = true := by
    cases operator <;> rfl
  have here := List.all_eq_true.mp checked marks membership
  simpa [List.isPrefixOf_iff_prefix.mpr extended] using here

theorem operator_text_mem (operator : PrefixOperator) : operator.text ∈ punctuators := by
  cases operator <;> decide

theorem munch_operator (operator : PrefixOperator) {rest : Text}
    (stands : ∀ next ∈ rest.head?, next ∉ operator.absorbs) :
    munch (operator.text ++ rest) = some operator.text := by
  apply munch_eq_some_iff.mpr
  refine ⟨⟨operator_text_mem operator, List.prefix_append _ _⟩, ?_⟩
  intro other membership fits
  by_contra longer
  have extended := List.prefix_of_prefix_length_le (List.prefix_append operator.text rest) fits
    (Nat.le_of_not_le longer)
  rcases operator_extended operator membership extended with same | ⟨next, absorbed, more⟩
  · exact longer (Nat.le_of_eq (congrArg List.length same))
  · obtain ⟨behind, shape⟩ := (List.prefix_append_right_inj _).mp (more.trans fits)
    exact stands next (by rw [← shape]; rfl) absorbed

/-- An operator that stands alone is read in front of what follows it. -/
theorem read_operator (operator : PrefixOperator) {rest : Text}
    (stands : ∀ next ∈ rest.head?, next ∉ operator.absorbs) :
    read (operator.text ++ rest) = (read rest).map (.unary operator) := by
  have first : firstToken (operator.text ++ rest) = some (.punctuator operator.text) := by
    have munched := munch_operator operator stands
    cases operator <;> exact congrArg (Option.map Token.punctuator) munched
  have nonempty : (Token.punctuator operator.text).spelling ≠ [] := by
    cases operator <;> exact List.cons_ne_nil _ _
  have tokens := tokenize_append nonempty first
  calc read (operator.text ++ rest) = ((tokenize rest).map (.punctuator operator.text :: ·)).bind parse :=
        congrArg (Option.bind · parse) tokens
    _ = (tokenize rest).bind fun tokens => (parse tokens).map (.unary operator) := by
        rw [Option.bind_map]
        exact congrArg _ (funext (parse_operator operator))
    _ = (read rest).map (.unary operator) := Option.map_bind.symm

theorem read_integer (value : Nat) : read (Nat.toDigits 10 value) = some (.integer value) := by
  have allDigits : ∀ char ∈ Nat.toDigits 10 value, char.isDigit = true := fun _ =>
    Nat.isDigit_of_mem_toDigits (by decide) (Nat.le_refl 10)
  have parsed : decimalValue (Nat.toDigits 10 value) = some value := by
    unfold decimalValue
    rw [Nat.ofDigitChars_ten_toDigits, if_pos rfl]
  rw [read, tokenize_digits Nat.toDigits_ne_nil allDigits]
  exact congrArg (Option.map Expression.integer) parsed

theorem read_name (identifier : Identifier) :
    read identifier.text = some (.name identifier) := by
  have notKeyword : ∀ keyword ∈ keywords, identifier.text ≠ keyword := by
    rintro keyword membership same
    exact identifier.free (same ▸ membership)
  have named : primary (.word identifier.text) = some (.name identifier) := by
    rw [primary, if_neg (notKeyword _ (by decide)), if_neg (notKeyword _ (by decide)),
      if_neg (notKeyword _ (by decide)), dif_pos ⟨identifier.word, identifier.free⟩]
  rw [read, tokenize_word identifier.word]
  exact named

end Cpp
