import CppCore.Library.Json

/-!
# Numbers in a JSON document

A number with a fraction or an exponent is a float.  A numeral keeps its parts
as they are written, and what is read are exactly the numerals of the grammar.
-/

namespace JsonText

/-- What stands between the values of a document. -/
def delimiters : List Char := [',', ':', ']', '}', ' ', '\t', '\n', '\r']

/-- The text ends, or goes on with what can stand behind a value. -/
def Stops (rest : Text) : Prop := ∀ char ∈ rest.head?, char ∈ delimiters

def AllDigits (text : Text) : Prop := ∀ char ∈ text, char.isDigit = true

/-- Zero, or digits that do not begin with one. -/
def IsWhole (text : Text) : Prop :=
  text = ['0'] ∨ ∃ first digits, text = first :: digits ∧ first ≠ '0' ∧ AllDigits text

def IsFraction (text : Text) : Prop :=
  text = [] ∨ ∃ digits, text = '.' :: digits ∧ digits ≠ [] ∧ AllDigits digits

def IsSign (text : Text) : Prop := text = [] ∨ ∃ mark ∈ ['+', '-'], text = [mark]

def IsExponent (text : Text) : Prop :=
  text = [] ∨ ∃ mark ∈ ['e', 'E'], ∃ sign digits,
    text = mark :: (sign ++ digits) ∧ IsSign sign ∧ digits ≠ [] ∧ AllDigits digits

structure Numeral where
  negative : Bool
  whole : Text
  fraction : Text
  exponent : Text

namespace Numeral

def text (numeral : Numeral) : Text :=
  (if numeral.negative then ['-'] else []) ++
    (numeral.whole ++ (numeral.fraction ++ numeral.exponent))

structure WellFormed (numeral : Numeral) : Prop where
  whole : IsWhole numeral.whole
  fraction : IsFraction numeral.fraction
  exponent : IsExponent numeral.exponent

def isInteger (numeral : Numeral) : Bool := numeral.fraction.isEmpty && numeral.exponent.isEmpty

/-- The value of an integer. -/
def toInt (numeral : Numeral) : Int :=
  let value := Nat.ofDigitChars 10 numeral.whole 0
  if numeral.negative then -value else value

end Numeral

def readWhole : Text → Option (Text × Text)
  | [] => none
  | char :: rest =>
      if char = '0' then some (['0'], rest)
      else if char.isDigit then
        some (char :: rest.takeWhile Char.isDigit, rest.dropWhile Char.isDigit)
      else none

/-- A point without digits behind it is no fraction. -/
def readFraction : Text → Text × Text
  | [] => ([], [])
  | char :: rest =>
      if char = '.' ∧ rest.takeWhile Char.isDigit ≠ [] then
        (char :: rest.takeWhile Char.isDigit, rest.dropWhile Char.isDigit)
      else ([], char :: rest)

def readSign : Text → Text × Text
  | [] => ([], [])
  | char :: rest => if char ∈ ['+', '-'] then ([char], rest) else ([], char :: rest)

/-- An exponent without digits is none. -/
def readExponent : Text → Text × Text
  | [] => ([], [])
  | char :: rest =>
      let (sign, behind) := readSign rest
      if char ∈ ['e', 'E'] ∧ behind.takeWhile Char.isDigit ≠ [] then
        (char :: (sign ++ behind.takeWhile Char.isDigit), behind.dropWhile Char.isDigit)
      else ([], char :: rest)

def readUnsigned (negative : Bool) (text : Text) : Option (Numeral × Text) :=
  (readWhole text).map fun whole =>
    let fraction := readFraction whole.2
    let exponent := readExponent fraction.2
    (⟨negative, whole.1, fraction.1, exponent.1⟩, exponent.2)

def readNumeral : Text → Option (Numeral × Text)
  | [] => none
  | char :: rest => if char = '-' then readUnsigned true rest else readUnsigned false (char :: rest)

section Shape

theorem allDigits_takeWhile (text : Text) : AllDigits (text.takeWhile Char.isDigit) :=
  fun _ membership => List.mem_takeWhile_imp membership

theorem readWhole_shape {text whole rest : Text} (read : readWhole text = some (whole, rest)) :
    text = whole ++ rest ∧ IsWhole whole := by
  cases text with
  | nil => cases read
  | cons char text =>
      simp only [readWhole] at read
      split_ifs at read with zero digit
      · cases read
        exact ⟨by rw [zero]; rfl, .inl rfl⟩
      · cases read
        refine ⟨by simp, .inr ⟨char, _, rfl, zero, ?_⟩⟩
        exact List.forall_mem_cons.mpr ⟨digit, allDigits_takeWhile text⟩

theorem readFraction_shape (text : Text) :
    (readFraction text).1 ++ (readFraction text).2 = text ∧ IsFraction (readFraction text).1 := by
  cases text with
  | nil => exact ⟨rfl, .inl rfl⟩
  | cons char text =>
      simp only [readFraction]
      split_ifs with fraction
      · refine ⟨by simp, .inr ⟨_, by rw [fraction.1], fraction.2, allDigits_takeWhile text⟩⟩
      · exact ⟨rfl, .inl rfl⟩

theorem readSign_shape (text : Text) :
    (readSign text).1 ++ (readSign text).2 = text ∧ IsSign (readSign text).1 := by
  cases text with
  | nil => exact ⟨rfl, .inl rfl⟩
  | cons char text =>
      simp only [readSign]
      split_ifs with mark
      · exact ⟨rfl, .inr ⟨char, mark, rfl⟩⟩
      · exact ⟨rfl, .inl rfl⟩

theorem readExponent_shape (text : Text) :
    (readExponent text).1 ++ (readExponent text).2 = text ∧ IsExponent (readExponent text).1 := by
  cases text with
  | nil => exact ⟨rfl, .inl rfl⟩
  | cons char text =>
      obtain ⟨sign, isSign⟩ := readSign_shape text
      simp only [readExponent]
      split_ifs with exponent
      · refine ⟨by simp [List.append_assoc, sign], ?_⟩
        exact .inr ⟨char, exponent.1, _, _, rfl, isSign, exponent.2, allDigits_takeWhile _⟩
      · exact ⟨rfl, .inl rfl⟩

theorem readUnsigned_shape {negative : Bool} {text rest : Text} {numeral : Numeral}
    (read : readUnsigned negative text = some (numeral, rest)) :
    numeral.negative = negative ∧ numeral.WellFormed ∧
      text = numeral.whole ++ (numeral.fraction ++ (numeral.exponent ++ rest)) := by
  simp only [readUnsigned, Option.map_eq_some_iff] at read
  obtain ⟨⟨whole, behind⟩, found, returned⟩ := read
  cases returned
  obtain ⟨wholeShape, isWhole⟩ := readWhole_shape found
  obtain ⟨fractionShape, isFraction⟩ := readFraction_shape behind
  obtain ⟨exponentShape, isExponent⟩ := readExponent_shape (readFraction behind).2
  exact ⟨rfl, ⟨isWhole, isFraction, isExponent⟩,
    by simp only [wholeShape, exponentShape, fractionShape]⟩

/-- What is read is a numeral of the grammar, from the text it is written with. -/
theorem readNumeral_shape {text rest : Text} {numeral : Numeral}
    (read : readNumeral text = some (numeral, rest)) :
    text = numeral.text ++ rest ∧ numeral.WellFormed := by
  cases text with
  | nil => cases read
  | cons char text =>
      rw [readNumeral] at read
      split_ifs at read with minus
      · obtain ⟨negative, wellFormed, shape⟩ := readUnsigned_shape read
        exact ⟨by simp [Numeral.text, negative, minus, shape], wellFormed⟩
      · obtain ⟨negative, wellFormed, shape⟩ := readUnsigned_shape read
        exact ⟨by simp [Numeral.text, negative, shape], wellFormed⟩

end Shape

section Completeness

variable {rest : Text}

theorem Stops.excludes (stops : Stops rest) (accepts : Char → Bool)
    (apart : (delimiters.all fun char => !accepts char) = true) :
    ∀ char ∈ rest.head?, accepts char = false := by
  intro char isHead
  simpa using List.all_eq_true.mp apart char (stops char isHead)

/-- What begins like none of the parts of a numeral behind its whole part. -/
structure NoPart (rest : Text) : Prop where
  notDigit : ∀ char ∈ rest.head?, char.isDigit = false
  notPoint : ∀ char ∈ rest.head?, char ≠ '.'

theorem Stops.noPart (stops : Stops rest) : NoPart rest where
  notDigit := stops.excludes Char.isDigit rfl
  notPoint char isHead :=
    of_decide_eq_false (stops.excludes (fun char => char = '.') rfl char isHead)

theorem takeDigits_append {digits : Text} (all : AllDigits digits)
    (ends : ∀ char ∈ rest.head?, char.isDigit = false) :
    (digits ++ rest).takeWhile Char.isDigit = digits ∧
      (digits ++ rest).dropWhile Char.isDigit = rest := by
  rw [List.takeWhile_append_of_pos all, List.dropWhile_append_of_pos all]
  cases rest with
  | nil => exact ⟨List.append_nil _, rfl⟩
  | cons char rest => simp [ends char rfl]

theorem readWhole_append {whole : Text} (isWhole : IsWhole whole)
    (ends : ∀ char ∈ rest.head?, char.isDigit = false) :
    readWhole (whole ++ rest) = some (whole, rest) := by
  rcases isWhole with rfl | ⟨first, digits, rfl, notZero, all⟩
  · rfl
  · obtain ⟨isDigit, later⟩ := List.forall_mem_cons.mp all
    obtain ⟨taken, left⟩ := takeDigits_append later ends
    simp [readWhole, notZero, isDigit, taken, left]

theorem readFraction_append {fraction : Text} (isFraction : IsFraction fraction)
    (ends : NoPart rest) : readFraction (fraction ++ rest) = (fraction, rest) := by
  rcases isFraction with rfl | ⟨digits, rfl, nonempty, all⟩
  · cases rest with
    | nil => rfl
    | cons char rest => simp [readFraction, ends.notPoint char rfl]
  · obtain ⟨taken, left⟩ := takeDigits_append all ends.notDigit
    simp [readFraction, taken, left, nonempty]

theorem readSign_append {sign : Text} (isSign : IsSign sign)
    (ends : ∀ char ∈ rest.head?, char ∉ ['+', '-']) : readSign (sign ++ rest) = (sign, rest) := by
  rcases isSign with rfl | ⟨mark, isMark, rfl⟩
  · cases rest with
    | nil => rfl
    | cons char rest => simp only [List.nil_append, readSign, if_neg (ends char rfl)]
  · simp only [List.singleton_append, readSign, if_pos isMark]

theorem notSign_of_isDigit {char : Char} (isDigit : char.isDigit = true) : char ∉ ['+', '-'] := by
  intro isSign
  rcases List.mem_pair.mp isSign with rfl | rfl
  · cases isDigit
  · cases isDigit

theorem readExponent_append {exponent : Text} (isExponent : IsExponent exponent)
    (stops : Stops rest) : readExponent (exponent ++ rest) = (exponent, rest) := by
  rcases isExponent with rfl | ⟨mark, isMark, sign, digits, rfl, isSign, nonempty, all⟩
  · cases rest with
    | nil => rfl
    | cons char rest =>
        have noMark := stops.excludes (fun char => char ∈ ['e', 'E']) rfl char rfl
        simp only [List.nil_append, readExponent, of_decide_eq_false noMark, false_and, if_false]
  · obtain ⟨taken, left⟩ := takeDigits_append all stops.noPart.notDigit
    have noSign : ∀ char ∈ (digits ++ rest).head?, char ∉ ['+', '-'] := by
      obtain ⟨first, later, rfl⟩ := List.exists_cons_of_ne_nil nonempty
      intro char isHead
      cases isHead
      exact notSign_of_isDigit (all first List.mem_cons_self)
    simp [readExponent, readSign_append isSign noSign, taken, left, nonempty, isMark]

theorem noPart_exponent {exponent : Text} (isExponent : IsExponent exponent) (stops : Stops rest) :
    NoPart (exponent ++ rest) := by
  rcases isExponent with rfl | ⟨mark, isMark, sign, digits, rfl, _⟩
  · exact stops.noPart
  · constructor
    · rintro char ⟨⟩
      rcases List.mem_pair.mp isMark with rfl | rfl <;> rfl
    · rintro char ⟨⟩
      rcases List.mem_pair.mp isMark with rfl | rfl <;> decide

theorem notDigit_fraction {fraction : Text} (isFraction : IsFraction fraction)
    (ends : NoPart rest) : ∀ char ∈ (fraction ++ rest).head?, char.isDigit = false := by
  rcases isFraction with rfl | ⟨digits, rfl, _⟩
  · exact ends.notDigit
  · rintro char ⟨⟩
    rfl

theorem readUnsigned_append (negative : Bool) {whole fraction exponent : Text}
    (isWhole : IsWhole whole) (isFraction : IsFraction fraction) (isExponent : IsExponent exponent)
    (stops : Stops rest) :
    readUnsigned negative (whole ++ (fraction ++ (exponent ++ rest))) =
      some (⟨negative, whole, fraction, exponent⟩, rest) := by
  have behind := noPart_exponent isExponent stops
  simp only [readUnsigned, readWhole_append isWhole (notDigit_fraction isFraction behind),
    Option.map_some, readFraction_append isFraction behind, readExponent_append isExponent stops]

/-- The first character of a whole part is a digit. -/
theorem head_isWhole {whole : Text} (isWhole : IsWhole whole) :
    ∃ first digits, whole = first :: digits ∧ first.isDigit = true := by
  rcases isWhole with rfl | ⟨first, digits, rfl, _, all⟩
  · exact ⟨'0', [], rfl, rfl⟩
  · exact ⟨first, digits, rfl, all first List.mem_cons_self⟩

/-- A numeral of the grammar is read back, whatever stops it. -/
theorem readNumeral_append {numeral : Numeral} (wellFormed : numeral.WellFormed)
    (stops : Stops rest) : readNumeral (numeral.text ++ rest) = some (numeral, rest) := by
  obtain ⟨negative, whole, fraction, exponent⟩ := numeral
  obtain ⟨isWhole, isFraction, isExponent⟩ := wellFormed
  have read := readUnsigned_append negative isWhole isFraction isExponent stops
  cases negative with
  | true => simpa [Numeral.text, readNumeral] using read
  | false =>
      obtain ⟨first, digits, rfl, isDigit⟩ := head_isWhole isWhole
      have notMinus : first ≠ '-' := by
        rintro rfl
        cases isDigit
      simpa [Numeral.text, readNumeral, notMinus] using read

end Completeness

/-- A numeral begins with a sign or a digit. -/
theorem Numeral.WellFormed.head {numeral : Numeral} (wellFormed : numeral.WellFormed) :
    ∃ first behind, numeral.text = first :: behind ∧ (first = '-' ∨ first.isDigit = true) := by
  unfold Numeral.text
  cases numeral.negative with
  | true => exact ⟨'-', _, rfl, .inl rfl⟩
  | false =>
      obtain ⟨first, digits, shape, isDigit⟩ := head_isWhole wellFormed.whole
      exact ⟨first, _, by rw [shape]; rfl, .inr isDigit⟩

/-- Only the digits of zero begin with a zero. -/
theorem toDigits_isWhole (value : Nat) : IsWhole (Nat.toDigits 10 value) := by
  have all : AllDigits (Nat.toDigits 10 value) :=
    fun _ membership => Nat.isDigit_of_mem_toDigits (by decide) (Nat.le_refl 10) membership
  induction value using Nat.strong_induction_on with
  | _ value inductionHypothesis =>
      by_cases small : value < 10
      · have single : ∀ value < 10, Nat.digitChar value = '0' → value = 0 := by decide
        rw [Nat.toDigits_of_lt_base small] at all ⊢
        by_cases zero : value.digitChar = '0'
        · exact .inl (by rw [zero])
        · exact .inr ⟨_, [], rfl, zero, all⟩
      · have split := Nat.toDigits_of_base_le (b := 10) (n := value) (by decide) (by omega)
        have later := inductionHypothesis (value / 10) (by omega) fun char membership =>
          all char (split ▸ List.mem_append_left _ membership)
        rw [split] at all ⊢
        rcases later with zero | ⟨first, digits, shape, notZero, _⟩
        · have isZero := congrArg (Nat.ofDigitChars 10 · 0) zero
          rw [Nat.ofDigitChars_ten_toDigits] at isZero
          have tooSmall : value / 10 = 0 := isZero
          omega
        · exact .inr ⟨first, _, by rw [shape]; rfl, notZero, all⟩

/-- An integer is written as the numeral of its value. -/
theorem exists_numeral (value : Int) : ∃ numeral : Numeral,
    numeral.WellFormed ∧ numeral.isInteger = true ∧ numeral.toInt = value ∧
      (toString value).toList = numeral.text := by
  by_cases nonnegative : 0 ≤ value
  · refine ⟨⟨false, Nat.toDigits 10 value.toNat, [], []⟩,
      ⟨toDigits_isWhole _, .inl rfl, .inl rfl⟩, rfl, ?_, ?_⟩
    · simp only [Numeral.toInt, Nat.ofDigitChars_ten_toDigits]
      exact Int.toNat_of_nonneg nonnegative
    · rw [Int.toString_eq_repr, Int.repr_eq_if, if_pos nonnegative, Nat.toList_repr]
      simp [Numeral.text]
  · refine ⟨⟨true, Nat.toDigits 10 (-value).toNat, [], []⟩,
      ⟨toDigits_isWhole _, .inl rfl, .inl rfl⟩, rfl, ?_, ?_⟩
    · simp only [Numeral.toInt, Nat.ofDigitChars_ten_toDigits, if_true]
      omega
    · rw [Int.toString_eq_repr, Int.repr_eq_if, if_neg nonnegative, String.toList_append,
        Nat.toList_repr]
      simp [Numeral.text]

end JsonText
