import CppCore.Library.Text

/-!
# C++ tokens

A text is cut into tokens by maximal munch: the next token is the longest one
that the text starts with.  Digraphs, the operators of the preprocessor, comments
and character and string literals are left out.
-/

namespace Cpp

inductive Token where
  | word (letters : Text)
  | number (digits : Text)
  | punctuator (marks : Text)
  deriving DecidableEq

def Token.spelling : Token → Text
  | .word text | .number text | .punctuator text => text

/-- Longer ones come first. -/
def punctuators : List Text :=
  ["...", "->*", "<=>", "<<=", ">>=",
    "->", ".*", "::", "++", "--", "<<", ">>", "<=", ">=", "==", "!=", "&&", "||",
    "+=", "-=", "*=", "/=", "%=", "^=", "&=", "|=",
    "\x7b", "\x7d", "[", "]", "(", ")", ";", ":", ",", "?", ".", "~", "!", "=", "<", ">",
    "+", "-", "*", "/", "%", "^", "&", "|"]

/-- The longest punctuator at the start of the text. -/
def munch (text : Text) : Option Text :=
  punctuators.find? fun marks => marks.isPrefixOf text

/-- Every character beyond ASCII counts as a letter. -/
def isWordStart (char : Char) : Bool :=
  char.isAlpha || char = '_' || 128 ≤ char.toNat

def isWordPart (char : Char) : Bool :=
  isWordStart char || char.isDigit

def isWord : Text → Bool
  | [] => false
  | char :: text => isWordStart char && text.all isWordPart

/-- A sign continues a number behind the letter of an exponent. -/
def continuesNumber (previous char : Char) : Bool :=
  isWordPart char || char = '.' ||
    ((char = '+' || char = '-') && ['e', 'E', 'p', 'P'].contains previous)

def numberTail (previous : Char) : Text → Text
  | [] => []
  | char :: text => if continuesNumber previous char then char :: numberTail char text else []

def startsNumber (char : Char) (text : Text) : Bool :=
  char.isDigit || (char = '.' && text.head?.any Char.isDigit)

def firstToken : Text → Option Token
  | [] => none
  | char :: text =>
      if isWordStart char then
        some (.word (char :: text.takeWhile isWordPart))
      else if startsNumber char text then
        some (.number (char :: numberTail char text))
      else
        (munch (char :: text)).map .punctuator

def isBlank (char : Char) : Bool :=
  char = ' ' || (9 ≤ char.toNat && char.toNat ≤ 13)

/-- The tokens behind the given number of characters, which belong to the token before. -/
def scan : Nat → Text → Option (List Token)
  | _, [] => some []
  | skipped + 1, _ :: text => scan skipped text
  | 0, char :: text =>
      match firstToken (char :: text) with
      | some token => (scan (token.spelling.length - 1) text).map (token :: ·)
      | none => if isBlank char then scan 0 text else none

def tokenize (text : Text) : Option (List Token) := scan 0 text

theorem scan_append (skipped rest : Text) :
    scan skipped.length (skipped ++ rest) = tokenize rest := by
  induction skipped with
  | nil => rfl
  | cons char skipped inductionHypothesis =>
      rw [List.cons_append, List.length_cons, scan]
      exact inductionHypothesis

/-- A token that the text starts with is the first one. -/
theorem tokenize_append {token : Token} {rest : Text} (nonempty : token.spelling ≠ [])
    (first : firstToken (token.spelling ++ rest) = some token) :
    tokenize (token.spelling ++ rest) = (tokenize rest).map (token :: ·) := by
  cases spelled : token.spelling with
  | nil => exact absurd spelled nonempty
  | cons char tail =>
      rw [spelled, List.cons_append] at first
      have behind := scan_append tail rest
      rw [tokenize, List.cons_append, scan, first]
      simp only [spelled, List.length_cons, Nat.add_sub_cancel, behind]

/-- A text that is one token. -/
theorem tokenize_token {token : Token} (nonempty : token.spelling ≠ [])
    (first : firstToken token.spelling = some token) : tokenize token.spelling = some [token] := by
  rw [← List.append_nil token.spelling] at first ⊢
  rw [tokenize_append nonempty first]
  rfl

theorem punctuators_sorted :
    punctuators.Pairwise fun longer shorter => shorter.length ≤ longer.length := by
  decide

/-- What is munched is the longest punctuator that fits. -/
theorem munch_eq_some_iff {text marks : Text} :
    munch text = some marks ↔ (marks ∈ punctuators ∧ marks <+: text) ∧
      ∀ other ∈ punctuators, other <+: text → other.length ≤ marks.length := by
  have longest : ∀ found, munch text = some found → (found ∈ punctuators ∧ found <+: text) ∧
      ∀ other ∈ punctuators, other <+: text → other.length ≤ found.length := by
    intro found munched
    obtain ⟨fits, before, behind, split, skipped⟩ := List.find?_eq_some_iff_append.mp munched
    have sorted := punctuators_sorted
    rw [split] at sorted ⊢
    have later := (List.pairwise_cons.mp (List.pairwise_append.mp sorted).2.1).1
    refine ⟨⟨List.mem_append_right _ List.mem_cons_self, List.isPrefixOf_iff_prefix.mp fits⟩, ?_⟩
    intro other membership otherFits
    rcases List.mem_append.mp membership with inBefore | inRest
    · have refused := skipped other inBefore
      rw [List.isPrefixOf_iff_prefix.mpr otherFits] at refused
      cases refused
    · rcases List.mem_cons.mp inRest with rfl | inBehind
      · exact Nat.le_refl _
      · exact later other inBehind
  constructor
  · exact longest marks
  · intro ⟨⟨membership, fits⟩, atMost⟩
    cases munched : munch text with
    | none =>
        have refused := List.find?_eq_none.mp munched marks membership
        exact absurd (List.isPrefixOf_iff_prefix.mpr fits) refused
    | some found =>
        have ⟨⟨isPunctuator, foundFits⟩, foundLongest⟩ := longest found munched
        have sameLength : found.length = marks.length :=
          Nat.le_antisymm (atMost found isPunctuator foundFits) (foundLongest marks membership fits)
        have same := List.prefix_of_prefix_length_le foundFits fits (Nat.le_of_eq sameLength)
        rw [same.eq_of_length sameLength]

example : tokenize "a+++1e-5" =
    some [.word "a", .punctuator "++", .punctuator "+", .number "1e-5"] := by
  decide

theorem tokenize_word {text : Text} (word : isWord text = true) :
    tokenize text = some [.word text] := by
  cases text with
  | nil => cases word
  | cons char tail =>
      have ⟨starts, continues⟩ := Bool.and_eq_true_iff.mp word
      have whole : tail.takeWhile isWordPart = tail :=
        List.takeWhile_eq_self_iff.mpr (List.all_eq_true.mp continues)
      have first : firstToken (char :: tail) = some (.word (char :: tail)) := by
        rw [firstToken, if_pos starts, whole]
      have nonempty : (Token.word (char :: tail)).spelling ≠ [] := List.cons_ne_nil _ _
      exact tokenize_token nonempty first

theorem isWordStart_of_isDigit {char : Char} (digit : char.isDigit = true) :
    isWordStart char = false := by
  have bounds : 48 ≤ char.toNat ∧ char.toNat ≤ 57 := by
    simpa [Char.isDigit, UInt32.le_iff_toNat_le] using digit
  have notLine : char ≠ '_' := by
    rintro rfl
    exact absurd digit (by decide)
  have noLetter : ((65 ≤ char.toNat → 90 < char.toNat) ∧ (97 ≤ char.toNat → 122 < char.toNat)) ∧
      char.toNat < 128 := by omega
  have upper : char.isUpper = decide (char.val ≥ 'A'.val ∧ char.val ≤ 'Z'.val) := rfl
  have lower : char.isLower = (decide (char.val ≥ 'a'.val) && decide (char.val ≤ 'z'.val)) := rfl
  have letter : char.isAlpha = (char.isUpper || char.isLower) := rfl
  simpa [isWordStart, notLine, letter, upper, lower, UInt32.le_iff_toNat_le] using noLetter

theorem numberTail_digits {previous : Char} {digits : Text}
    (allDigits : ∀ char ∈ digits, char.isDigit = true) : numberTail previous digits = digits := by
  induction digits generalizing previous with
  | nil => rfl
  | cons char digits inductionHypothesis =>
      have ⟨digit, later⟩ := List.forall_mem_cons.mp allDigits
      have continues : continuesNumber previous char = true := by
        simp [continuesNumber, isWordPart, digit]
      rw [numberTail, if_pos continues, inductionHypothesis later]

theorem tokenize_digits {digits : Text} (written : digits ≠ [])
    (allDigits : ∀ char ∈ digits, char.isDigit = true) :
    tokenize digits = some [.number digits] := by
  cases digits with
  | nil => exact absurd rfl written
  | cons char tail =>
      have ⟨digit, later⟩ := List.forall_mem_cons.mp allDigits
      have first : firstToken (char :: tail) = some (.number (char :: tail)) := by
        rw [firstToken, isWordStart_of_isDigit digit, numberTail_digits later]
        simp [startsNumber, digit]
      have nonempty : (Token.number (char :: tail)).spelling ≠ [] := List.cons_ne_nil _ _
      exact tokenize_token nonempty first

end Cpp
