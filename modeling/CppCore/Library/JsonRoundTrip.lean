import CppCore.Library.JsonDocument

/-!
# Reading what is written

A value that a document can hold is read back from its document, and every value
that is read from a document is one that a document can hold.
-/

namespace JsonText

section Floats

theorem isFloat_iff {digits : Text} : isFloat digits = true ↔
    digits ∈ nonfinite ∨
      ∃ numeral : Numeral, numeral.WellFormed ∧ numeral.isInteger = false ∧
        digits = numeral.text := by
  unfold isFloat
  rw [Bool.or_eq_true, List.contains_iff_mem]
  refine or_congr Iff.rfl ?_
  constructor
  · intro float
    split at float
    · rename_i numeral read
      obtain ⟨shape, wellFormed⟩ := readNumeral_shape read
      rw [List.append_nil] at shape
      exact ⟨numeral, wellFormed, by simpa using float, shape⟩
    · cases float
  · rintro ⟨numeral, wellFormed, notInteger, rfl⟩
    have read := readNumeral_append wellFormed (show Stops [] from nofun)
    rw [List.append_nil] at read
    rw [read]
    simpa using notInteger

end Floats

section Scalars

variable {format : FloatFormat} {rest : Text}

/-- How the text of a scalar that is no string begins. -/
def startsScalar (char : Char) : Bool :=
  char.isDigit || ['-', 'n', 't', 'f', 'N', 'I'].contains char

/-- A word is no numeral. -/
theorem readNumeral_word {word : Text} (isWord : word ∈ words.map Prod.fst ++ nonfinite)
    (tail : Text) : readNumeral (word ++ tail) = none := by
  simp only [words, nonfinite, List.map_cons, List.map_nil, List.cons_append, List.nil_append,
    List.mem_cons, List.not_mem_nil, or_false] at isWord
  rcases isWord with rfl | rfl | rfl | rfl | rfl | rfl <;> rfl

theorem readScalar_numeral {text : Text} {numeral : Numeral} {left : Text}
    (read : readNumeral text = some (numeral, left)) :
    readScalar format text = some (numeral.value format, left) := by
  have noWord : ∀ word ∈ words.map Prod.fst ++ nonfinite, ¬ word <+: text := by
    rintro word isWord ⟨tail, shape⟩
    rw [← shape, readNumeral_word isWord] at read
    cases read
  obtain ⟨noConstant, noNonfinite⟩ := List.forall_mem_append.mp noWord
  have noConstants : words.find? (fun word => word.1.isPrefixOf text) = none := by
    rw [List.find?_eq_none]
    intro word membership
    simpa using noConstant word.1 (List.mem_map_of_mem membership)
  have noFloats : nonfinite.find? (fun word => word.isPrefixOf text) = none := by
    rw [List.find?_eq_none]
    intro word membership
    simpa using noNonfinite word membership
  rw [readScalar, noConstants, noFloats]
  simp [read]

theorem readScalar_int (stops : Stops rest) (value : Int) :
    readScalar format ((toString value).toList ++ rest) = some (.int value, rest) := by
  obtain ⟨numeral, wellFormed, integer, same, text⟩ := exists_numeral value
  rw [text, readScalar_numeral (readNumeral_append wellFormed stops), Numeral.value, if_pos integer,
    same]

theorem readScalar_float (stops : Stops rest) {digits : Text} (float : isFloat digits = true)
    (printed : format.print digits = digits) :
    readScalar format (digits ++ rest) = some (.float digits, rest) := by
  rcases isFloat_iff.mp float with nonfinite | ⟨numeral, wellFormed, notInteger, rfl⟩
  · simp only [JsonText.nonfinite, List.mem_cons, List.not_mem_nil, or_false] at nonfinite
    rcases nonfinite with rfl | rfl | rfl <;> (conv => rhs; rw [← printed]) <;> rfl
  · rw [readScalar_numeral (readNumeral_append wellFormed stops), Numeral.value, notInteger,
      if_neg Bool.false_ne_true, printed]

theorem head_float {digits : Text} (float : isFloat digits = true) :
    ∃ first later, digits = first :: later ∧ startsScalar first = true := by
  rcases isFloat_iff.mp float with nonfinite | ⟨numeral, wellFormed, _, rfl⟩
  · simp only [JsonText.nonfinite, List.mem_cons, List.not_mem_nil, or_false] at nonfinite
    rcases nonfinite with rfl | rfl | rfl
    · exact ⟨'N', _, rfl, rfl⟩
    · exact ⟨'I', _, rfl, rfl⟩
    · exact ⟨'-', _, rfl, rfl⟩
  · obtain ⟨first, later, shape, starts⟩ := wellFormed.head
    refine ⟨first, later, shape, ?_⟩
    rcases starts with rfl | isDigit
    · rfl
    · rw [startsScalar, isDigit]
      rfl

theorem head_int (value : Int) :
    ∃ first later, (toString value).toList = first :: later ∧ startsScalar first = true := by
  obtain ⟨numeral, wellFormed, _, _, text⟩ := exists_numeral value
  obtain ⟨first, later, shape, starts⟩ := wellFormed.head
  refine ⟨first, later, text.trans shape, ?_⟩
  rcases starts with rfl | isDigit
  · rfl
  · rw [startsScalar, isDigit]
    rfl

theorem readValue_scalar {first : Char} (starts : startsScalar first = true) (fuel : Nat)
    (later : Text) :
    readValue format (fuel + 1) (first :: later) = readScalar format (first :: later) := by
  have notQuote : first ≠ '"' := by
    rintro rfl
    cases starts
  have notItems : first ≠ '[' := by
    rintro rfl
    cases starts
  have notFields : first ≠ '{' := by
    rintro rfl
    cases starts
  simp [readValue, notQuote, notItems, notFields]

end Scalars

section Layout

variable {indent level : Nat} {rest : Text}

theorem skipSpaces_newline (text : Text) :
    skipSpaces (newline indent level ++ text) = skipSpaces text := by
  unfold skipSpaces newline
  apply List.dropWhile_append_of_pos
  intro char membership
  rcases List.mem_cons.mp membership with rfl | inSpaces
  · rfl
  · rw [List.eq_of_mem_replicate inSpaces]
    rfl

theorem skipSpaces_of_head {char : Char} (solid : isSpace char = false) (text : Text) :
    skipSpaces (char :: text) = char :: text := by
  rw [skipSpaces, List.dropWhile_cons_of_neg (by simp [solid])]

theorem stops_newline (text : Text) : Stops (newline indent level ++ text) := by
  rintro char ⟨⟩
  decide

theorem stops_of_head {char : Char} (isDelimiter : char ∈ delimiters) (text : Text) :
    Stops (char :: text) := by
  rintro _ ⟨⟩
  exact isDelimiter

theorem length_flatMap_escape (text : Text) : text.length ≤ (text.flatMap escape).length := by
  induction text with
  | nil => exact Nat.le_refl _
  | cons char text inductionHypothesis =>
      obtain ⟨head, tail, shape, _⟩ := head_escape char
      simp only [List.flatMap_cons, List.length_append, List.length_cons, shape]
      omega

/-- A quoted text is a string of the document. -/
theorem readText_quote (text rest : Text) : readText (quote text ++ rest) = some (text, rest) := by
  have written := length_flatMap_escape text
  have shape : (quote text ++ rest).tail = text.flatMap escape ++ '"' :: rest := by
    simp [quote]
  have opens : (quote text ++ rest).head? = some '"' := rfl
  rw [readText, if_pos opens, shape]
  apply readString_quote
  simp only [quote, List.cons_append, List.length_cons, List.length_append]
  omega

/-- A container that is not empty. -/
theorem enclose_eq {opening closing : Char} {content : Text} (nonempty : content ≠ []) :
    enclose indent level opening closing content =
      opening :: (newline indent (level + 1) ++ (content ++ (newline indent level ++ [closing]))) :=
  if_neg nonempty

/-- A value begins with a character that no delimiter is. -/
theorem head_print {format : FloatFormat} {value : Json} (storable : Storable format value)
    (indent level : Nat) :
    ∃ first later, print indent level value = first :: later ∧ first ∉ delimiters := by
  have solid : ∀ char, startsScalar char = true → char ∉ delimiters := by
    intro char starts isDelimiter
    have apart : (delimiters.all fun char => !startsScalar char) = true := rfl
    have here := List.all_eq_true.mp apart char isDelimiter
    rw [starts] at here
    cases here
  cases value with
  | null => exact ⟨'n', _, rfl, by decide⟩
  | bool value =>
      cases value with
      | true => exact ⟨'t', _, rfl, by decide⟩
      | false => exact ⟨'f', _, rfl, by decide⟩
  | int value =>
      obtain ⟨first, later, shape, starts⟩ := head_int value
      exact ⟨first, later, shape, solid first starts⟩
  | float digits =>
      obtain ⟨first, later, shape, starts⟩ := head_float storable.1
      exact ⟨first, later, shape, solid first starts⟩
  | str text => exact ⟨'"', _, rfl, by decide⟩
  | arr items =>
      refine ⟨'[', (print indent level (.arr items)).tail, ?_, by decide⟩
      rw [print, enclose]
      split_ifs <;> rfl
  | obj fields =>
      refine ⟨'{', (print indent level (.obj fields)).tail, ?_, by decide⟩
      rw [print, enclose]
      split_ifs <;> rfl

theorem notSpace_of_solid {char : Char} (solid : char ∉ delimiters) : isSpace char = false := by
  unfold isSpace
  rw [decide_eq_false_iff_not]
  intro space
  have among : [' ', '\t', '\n', '\r'] ⊆ delimiters :=
    (List.sublist_append_right [',', ':', ']', '}'] _).subset
  exact solid (among space)

end Layout

section Containers

variable {format : FloatFormat}

theorem printItems_cons_cons (indent level : Nat) (item next : Json) (items : List Json) :
    printItems indent level (item :: next :: items) =
      print indent level item ++
        (',' :: (newline indent level ++ printItems indent level (next :: items))) := by
  simp [printItems, printMoreItems]

theorem printFields_cons_cons (indent level : Nat) (field next : Text × Json) (fields : Dict) :
    printFields indent level (field :: next :: fields) =
      quote field.1 ++ (':' :: ' ' :: (print indent level field.2 ++
        (',' :: (newline indent level ++ printFields indent level (next :: fields))))) := by
  simp [printFields, printMoreFields]

section Rules

variable {fuel : Nat} {text inner left behind rest : Text}

theorem readValue_arr {items : List Json} (opened : skipSpaces text = inner)
    (notClosed : inner.head? ≠ some ']') (read : readItems format fuel inner = some (items, rest)) :
    readValue format (fuel + 1) ('[' :: text) = some (.arr items, rest) := by
  simp [readValue, opened, notClosed, read]

theorem readItems_last {item : Json} (read : readValue format fuel text = some (item, left))
    (closed : skipSpaces left = ']' :: rest) :
    readItems format (fuel + 1) text = some ([item], rest) := by
  simp [readItems, read, closed]

theorem readItems_more {item : Json} {items : List Json}
    (read : readValue format fuel text = some (item, left))
    (separated : skipSpaces left = ',' :: behind)
    (more : readItems format fuel (skipSpaces behind) = some (items, rest)) :
    readItems format (fuel + 1) text = some (item :: items, rest) := by
  simp [readItems, read, separated, more]

theorem readValue_obj {fields : Dict} (opened : skipSpaces text = inner)
    (notClosed : inner.head? ≠ some '}')
    (read : readFields format fuel inner = some (fields, rest)) :
    readValue format (fuel + 1) ('{' :: text) =
      some (.obj (Assignment.assignAll [] fields), rest) := by
  simp [readValue, opened, notClosed, read]

theorem readFields_last {key : Text} {value : Json}
    (read : readValue format fuel text = some (value, left))
    (solid : skipSpaces text = text) (closed : skipSpaces left = '}' :: rest) :
    readFields format (fuel + 1) (quote key ++ (':' :: ' ' :: text)) =
      some ([(key, value)], rest) := by
  have colon : expectColon (skipSpaces (':' :: ' ' :: text)) = some (' ' :: text) := rfl
  have spaced : skipSpaces (' ' :: text) = text := solid
  simp [readFields, readText_quote, colon, spaced, read, closed]

theorem readFields_more {key : Text} {value : Json} {fields : Dict}
    (read : readValue format fuel text = some (value, left))
    (solid : skipSpaces text = text) (separates : skipSpaces left = ',' :: behind)
    (more : readFields format fuel (skipSpaces behind) = some (fields, rest)) :
    readFields format (fuel + 1) (quote key ++ (':' :: ' ' :: text)) =
      some ((key, value) :: fields, rest) := by
  have colon : expectColon (skipSpaces (':' :: ' ' :: text)) = some (' ' :: text) := rfl
  have spaced : skipSpaces (' ' :: text) = text := solid
  simp [readFields, readText_quote, colon, spaced, read, separates, more]

end Rules

theorem skipSpaces_print_append {value : Json} (storable : Storable format value)
    (indent level : Nat) (text : Text) :
    skipSpaces (print indent level value ++ text) = print indent level value ++ text := by
  obtain ⟨first, later, shape, solid⟩ := head_print storable indent level
  rw [shape, List.cons_append, skipSpaces_of_head (notSpace_of_solid solid)]

theorem skipSpaces_comma (text : Text) : skipSpaces (',' :: text) = ',' :: text :=
  skipSpaces_of_head rfl text

theorem skipSpaces_closing {closing : Char} (solid : isSpace closing = false)
    (indent outer : Nat) (rest : Text) :
    skipSpaces (newline indent outer ++ closing :: rest) = closing :: rest := by
  rw [skipSpaces_newline, skipSpaces_of_head solid]

theorem head_printItems {item : Json} {items : List Json}
    (storable : ItemsStorable format (item :: items)) (indent level : Nat) :
    ∃ first later, printItems indent level (item :: items) = first :: later ∧
      first ∉ delimiters := by
  obtain ⟨first, later, shape, solid⟩ := head_print storable.1 indent level
  exact ⟨first, later ++ printMoreItems indent level items, by rw [printItems, shape]; rfl, solid⟩

theorem head_printFields (indent level : Nat) (field : Text × Json) (fields : Dict) :
    ∃ later, printFields indent level (field :: fields) = '"' :: later := by
  rw [printFields, quote]
  exact ⟨_, rfl⟩

mutual

theorem readValue_print {value : Json} (storable : Storable format value) (indent level : Nat)
    {fuel : Nat} (enough : 2 * value.weight ≤ fuel) {rest : Text} (stops : Stops rest) :
    readValue format fuel (print indent level value ++ rest) = some (value, rest) := by
  have positive := value.weight_pos
  obtain ⟨fuel, rfl⟩ : ∃ less, fuel = less + 1 := ⟨fuel - 1, by omega⟩
  cases value with
  | null => exact readValue_scalar rfl fuel _
  | bool value =>
      cases value with
      | true => exact readValue_scalar rfl fuel _
      | false => exact readValue_scalar rfl fuel _
  | int value =>
      have read : readScalar format ((toString value).toList ++ rest) = some (.int value, rest) :=
        readScalar_int stops value
      obtain ⟨first, later, shape, starts⟩ := head_int value
      rw [print]
      rw [shape] at read ⊢
      exact (readValue_scalar starts fuel _).trans read
  | float digits =>
      have read := readScalar_float stops storable.1 storable.2
      obtain ⟨first, later, shape, starts⟩ := head_float storable.1
      rw [print]
      rw [shape] at read ⊢
      exact (readValue_scalar starts fuel _).trans read
  | str text =>
      have opens : (quote text ++ rest).head? = some '"' := rfl
      rw [print, readValue, if_pos opens, readText_quote]
      rfl
  | arr items =>
      cases items with
      | nil => rfl
      | cons item items =>
          obtain ⟨first, later, shape, solid⟩ := head_printItems storable indent (level + 1)
          have enoughInside : 2 * Json.itemsWeight (item :: items) < fuel := by
            simp only [Json.weight] at enough
            omega
          have read := readItems_print storable indent (level + 1) level enoughInside rest
          rw [print, enclose_eq (by simp [shape]), List.cons_append, List.append_assoc,
            List.append_assoc, List.append_assoc]
          refine readValue_arr ?_ ?_ read
          · rw [skipSpaces_newline, shape, List.cons_append,
              skipSpaces_of_head (notSpace_of_solid solid)]
            rfl
          · rw [shape]
            rintro ⟨⟩
            exact solid (by decide)
  | obj fields =>
      obtain ⟨distinct, fieldsStorable⟩ := storable
      cases fields with
      | nil => rfl
      | cons field fields =>
          obtain ⟨later, shape⟩ := head_printFields indent (level + 1) field fields
          have enoughInside : 2 * Json.fieldsWeight (field :: fields) < fuel := by
            simp only [Json.weight] at enough
            omega
          have read := readFields_print fieldsStorable indent (level + 1) level enoughInside rest
          have kept : Assignment.assignAll [] (field :: fields) = field :: fields :=
            Assignment.assignAll_of_nodup distinct
          rw [print, enclose_eq (by simp [shape]), List.cons_append, List.append_assoc,
            List.append_assoc, List.append_assoc]
          refine (readValue_obj ?_ ?_ read).trans (by rw [kept])
          · rw [skipSpaces_newline, shape, List.cons_append, skipSpaces_of_head rfl]
            rfl
          · rw [shape]
            rintro ⟨⟩
termination_by fuel

theorem readItems_print {item : Json} {items : List Json}
    (storable : ItemsStorable format (item :: items)) (indent level outer : Nat) {fuel : Nat}
    (enough : 2 * Json.itemsWeight (item :: items) < fuel) (rest : Text) :
    readItems format fuel
        (printItems indent level (item :: items) ++ (newline indent outer ++ ']' :: rest)) =
      some (item :: items, rest) := by
  obtain ⟨fuel, rfl⟩ : ∃ less, fuel = less + 1 := ⟨fuel - 1, by omega⟩
  have positive := item.weight_pos
  rw [Json.itemsWeight] at enough
  cases items with
  | nil =>
      rw [printItems, printMoreItems, List.append_nil]
      exact readItems_last (readValue_print storable.1 indent level (by omega) (stops_newline _))
        (skipSpaces_closing rfl indent outer rest)
  | cons next items =>
      rw [printItems_cons_cons, List.append_assoc, List.cons_append, List.append_assoc]
      refine readItems_more (readValue_print storable.1 indent level (by omega)
        (stops_of_head (by decide) _)) (skipSpaces_comma _) ?_
      obtain ⟨first, later, shape, solid⟩ := head_printItems storable.2 indent level
      rw [skipSpaces_newline, shape, List.cons_append, skipSpaces_of_head (notSpace_of_solid solid),
        ← List.cons_append, ← shape]
      exact readItems_print storable.2 indent level outer (by omega) rest
termination_by fuel

theorem readFields_print {field : Text × Json} {fields : Dict}
    (storable : FieldsStorable format (field :: fields)) (indent level outer : Nat) {fuel : Nat}
    (enough : 2 * Json.fieldsWeight (field :: fields) < fuel) (rest : Text) :
    readFields format fuel
        (printFields indent level (field :: fields) ++ (newline indent outer ++ '}' :: rest)) =
      some (field :: fields, rest) := by
  obtain ⟨fuel, rfl⟩ : ∃ less, fuel = less + 1 := ⟨fuel - 1, by omega⟩
  have positive := field.2.weight_pos
  rw [Json.fieldsWeight] at enough
  cases fields with
  | nil =>
      rw [printFields, printMoreFields, List.append_nil, List.append_assoc, List.cons_append,
        List.cons_append]
      exact readFields_last (readValue_print storable.1 indent level (by omega) (stops_newline _))
        (skipSpaces_print_append storable.1 indent level _)
        (skipSpaces_closing rfl indent outer rest)
  | cons next fields =>
      rw [printFields_cons_cons, List.append_assoc, List.cons_append, List.cons_append,
        List.append_assoc, List.cons_append, List.append_assoc]
      refine readFields_more (readValue_print storable.1 indent level (by omega)
        (stops_of_head (by decide) _)) (skipSpaces_print_append storable.1 indent level _)
        (skipSpaces_comma _) ?_
      obtain ⟨later, shape⟩ := head_printFields indent level next fields
      rw [skipSpaces_newline, shape, List.cons_append, skipSpaces_of_head rfl, ← List.cons_append,
        ← shape]
      exact readFields_print storable.2 indent level outer (by omega) rest
termination_by fuel

end

mutual

/-- Every value takes at least one character. -/
theorem weight_le_print {value : Json} (storable : Storable format value) (indent level : Nat) :
    value.weight ≤ (print indent level value).length := by
  obtain ⟨first, later, shape, _⟩ := head_print storable indent level
  cases value with
  | arr items =>
      have content := itemsWeight_le_print storable indent (level + 1)
      rw [print, enclose]
      split_ifs with empty
      · rw [empty] at content
        simp only [Json.weight, List.length_cons, List.length_nil] at *
        omega
      · simp only [Json.weight, List.length_cons, List.length_append] at *
        omega
  | obj fields =>
      have content := fieldsWeight_le_print storable.2 indent (level + 1)
      rw [print, enclose]
      split_ifs with empty
      · rw [empty] at content
        simp only [Json.weight, List.length_cons, List.length_nil] at *
        omega
      · simp only [Json.weight, List.length_cons, List.length_append] at *
        omega
  | _ => simp [shape, Json.weight]

theorem itemsWeight_le_print {items : List Json} (storable : ItemsStorable format items)
    (indent level : Nat) : Json.itemsWeight items ≤ (printItems indent level items).length := by
  cases items with
  | nil => exact Nat.le_refl _
  | cons item items =>
      have first := weight_le_print storable.1 indent level
      cases items with
      | nil =>
          simp only [Json.itemsWeight, printItems, printMoreItems, List.append_nil]
          omega
      | cons next items =>
          have later := itemsWeight_le_print storable.2 indent level
          rw [printItems_cons_cons, Json.itemsWeight]
          simp only [List.length_append, List.length_cons]
          omega

theorem fieldsWeight_le_print {fields : Dict} (storable : FieldsStorable format fields)
    (indent level : Nat) : Json.fieldsWeight fields ≤ (printFields indent level fields).length := by
  cases fields with
  | nil => exact Nat.le_refl _
  | cons field fields =>
      have first := weight_le_print storable.1 indent level
      cases fields with
      | nil =>
          simp only [Json.fieldsWeight, printFields, printMoreFields, List.append_nil,
            List.length_append, List.length_cons]
          omega
      | cons next fields =>
          have later := fieldsWeight_le_print storable.2 indent level
          rw [printFields_cons_cons, Json.fieldsWeight]
          simp only [List.length_append, List.length_cons]
          omega

end

theorem skipSpaces_of_all {spaces : Text} (allSpaces : ∀ char ∈ spaces, isSpace char = true) :
    skipSpaces spaces = [] :=
  List.dropWhile_eq_nil_iff.mpr allSpaces

/-- What is written is read back, with any spaces behind it. -/
theorem load_dump {value : Json} (storable : Storable format value) (indent : Nat)
    {spaces : Text} (allSpaces : ∀ char ∈ spaces, isSpace char = true) :
    load format (dump indent value ++ spaces) = some value := by
  have size := weight_le_print storable indent 0
  have stops : Stops spaces := by
    intro char isHead
    by_contra solid
    have notSpace := notSpace_of_solid solid
    rw [allSpaces char (List.mem_of_mem_head? isHead)] at notSpace
    cases notSpace
  have enough : 2 * value.weight ≤ 2 * (dump indent value ++ spaces).length + 2 := by
    simp only [dump, List.length_append]
    omega
  have read := readValue_print storable indent 0 enough stops
  have solid : skipSpaces (dump indent value ++ spaces) = dump indent value ++ spaces :=
    skipSpaces_print_append storable indent 0 spaces
  rw [← dump] at read
  simp only [load, solid, read, Option.bind_eq_bind, Option.bind_some,
    skipSpaces_of_all allSpaces, if_true]
  rfl

end Containers

section Ascii

variable {format : FloatFormat}

theorem printable_of_isDigit {char : Char} (isDigit : char.isDigit = true) :
    isPrintable char = true := by
  simp only [Char.isDigit, ge_iff_le, Bool.and_eq_true, decide_eq_true_eq] at isDigit
  have bounds : 48 ≤ char.toNat ∧ char.toNat ≤ 57 := isDigit
  simp only [isPrintable, decide_eq_true_eq]
  omega

theorem AllDigits.printable {digits : Text} (all : AllDigits digits) :
    ∀ char ∈ digits, isPrintable char = true :=
  fun char membership => printable_of_isDigit (all char membership)

theorem numeral_printable {numeral : Numeral} (wellFormed : numeral.WellFormed) :
    ∀ char ∈ numeral.text, isPrintable char = true := by
  obtain ⟨negative, whole, fraction, exponent⟩ := numeral
  obtain ⟨isWhole, isFraction, isExponent⟩ := wellFormed
  have signPrintable : ∀ char ∈ (if negative then ['-'] else []), isPrintable char = true := by
    cases negative
    · exact nofun
    · exact List.forall_mem_singleton.mpr rfl
  have wholePrintable : ∀ char ∈ whole, isPrintable char = true := by
    rcases isWhole with rfl | ⟨_, _, rfl, _, all⟩
    · exact List.forall_mem_singleton.mpr rfl
    · exact all.printable
  have fractionPrintable : ∀ char ∈ fraction, isPrintable char = true := by
    rcases isFraction with rfl | ⟨_, rfl, _, all⟩
    · exact nofun
    · exact List.forall_mem_cons.mpr ⟨rfl, all.printable⟩
  have exponentPrintable : ∀ char ∈ exponent, isPrintable char = true := by
    rcases isExponent with rfl | ⟨mark, isMark, sign, _, rfl, isSign, _, all⟩
    · exact nofun
    · refine List.forall_mem_cons.mpr ⟨?_, List.forall_mem_append.mpr ⟨?_, all.printable⟩⟩
      · rcases List.mem_pair.mp isMark with rfl | rfl <;> rfl
      · rcases isSign with rfl | ⟨mark, isMark, rfl⟩
        · exact nofun
        · rcases List.mem_pair.mp isMark with rfl | rfl <;> exact List.forall_mem_singleton.mpr rfl
  exact List.forall_mem_append.mpr ⟨signPrintable, List.forall_mem_append.mpr ⟨wholePrintable,
    List.forall_mem_append.mpr ⟨fractionPrintable, exponentPrintable⟩⟩⟩

theorem float_printable {digits : Text} (float : isFloat digits = true) :
    ∀ char ∈ digits, isPrintable char = true := by
  rcases isFloat_iff.mp float with nonfinite | ⟨numeral, wellFormed, _, rfl⟩
  · simp only [JsonText.nonfinite, List.mem_cons, List.not_mem_nil, or_false] at nonfinite
    rcases nonfinite with rfl | rfl | rfl <;> exact List.all_eq_true.mp rfl
  · exact numeral_printable wellFormed

/-- The characters of a document. -/
def isDocument (char : Char) : Bool := isPrintable char || char = '\n'

theorem newline_document (indent level : Nat) :
    ∀ char ∈ newline indent level, isDocument char = true := by
  refine List.forall_mem_cons.mpr ⟨rfl, ?_⟩
  intro char membership
  rw [List.eq_of_mem_replicate membership]
  rfl

theorem document_of_printable {text : Text} (printable : ∀ char ∈ text, isPrintable char = true) :
    ∀ char ∈ text, isDocument char = true :=
  fun char membership => by rw [isDocument, printable char membership]; rfl

theorem enclose_document (indent level : Nat) {opening closing : Char} {content : Text}
    (brackets : isDocument opening = true ∧ isDocument closing = true)
    (inner : ∀ char ∈ content, isDocument char = true) :
    ∀ char ∈ enclose indent level opening closing content, isDocument char = true := by
  unfold enclose
  split_ifs
  · simp [brackets]
  · simp only [List.forall_mem_cons, List.forall_mem_append]
    exact ⟨brackets.1, newline_document _ _, inner, newline_document _ _, brackets.2, nofun⟩

mutual

theorem print_document {value : Json} (storable : Storable format value) (indent level : Nat) :
    ∀ char ∈ print indent level value, isDocument char = true := by
  cases value with
  | null => exact List.all_eq_true.mp rfl
  | bool value => cases value <;> exact List.all_eq_true.mp rfl
  | int value =>
      obtain ⟨numeral, wellFormed, _, _, text⟩ := exists_numeral value
      rw [print, text]
      exact document_of_printable (numeral_printable wellFormed)
  | float digits => exact document_of_printable (float_printable storable.1)
  | str text => exact document_of_printable (quote_printable text)
  | arr items =>
      exact enclose_document _ _ ⟨rfl, rfl⟩ (printItems_document storable indent (level + 1))
  | obj fields =>
      exact enclose_document _ _ ⟨rfl, rfl⟩ (printFields_document storable.2 indent (level + 1))

theorem printItems_document {items : List Json} (storable : ItemsStorable format items)
    (indent level : Nat) : ∀ char ∈ printItems indent level items, isDocument char = true := by
  cases items with
  | nil => exact nofun
  | cons item items =>
      have first := print_document storable.1 indent level
      cases items with
      | nil => simpa [printItems, printMoreItems] using first
      | cons next items =>
          have later := printItems_document storable.2 indent level
          simp only [printItems_cons_cons, List.forall_mem_cons, List.forall_mem_append]
          exact ⟨first, rfl, newline_document _ _, later⟩

theorem printFields_document {fields : Dict} (storable : FieldsStorable format fields)
    (indent level : Nat) : ∀ char ∈ printFields indent level fields, isDocument char = true := by
  cases fields with
  | nil => exact nofun
  | cons field fields =>
      have key := document_of_printable (quote_printable field.1)
      have first := print_document storable.1 indent level
      cases fields with
      | nil =>
          simp only [printFields, printMoreFields, List.append_nil, List.forall_mem_cons,
            List.forall_mem_append]
          exact ⟨key, rfl, rfl, first⟩
      | cons next fields =>
          have later := printFields_document storable.2 indent level
          simp only [printFields_cons_cons, List.forall_mem_cons, List.forall_mem_append]
          exact ⟨key, rfl, rfl, first, rfl, newline_document _ _, later⟩

end

end Ascii

section Loaded

variable {format : FloatFormat}

theorem storable_numeral {numeral : Numeral} (wellFormed : numeral.WellFormed) :
    Storable format (numeral.value format) := by
  unfold Numeral.value
  split_ifs with integer
  · trivial
  · have float : isFloat numeral.text = true :=
      isFloat_iff.mpr (.inr ⟨numeral, wellFormed, by simpa using integer, rfl⟩)
    exact ⟨format.isFloat_print _ float, format.print_print _ float⟩

theorem storable_scalar {text rest : Text} {value : Json}
    (read : readScalar format text = some (value, rest)) : Storable format value := by
  unfold readScalar at read
  split at read
  · rename_i word found
    have membership := List.mem_of_find?_eq_some found
    simp only [words, List.mem_cons, List.not_mem_nil, or_false] at membership
    cases read
    rcases membership with rfl | rfl | rfl <;> trivial
  · split at read
    · rename_i word found
      have float := isFloat_iff.mpr (.inl (List.mem_of_find?_eq_some found))
      cases read
      exact ⟨format.isFloat_print _ float, format.print_print _ float⟩
    · rw [Option.map_eq_some_iff] at read
      obtain ⟨⟨numeral, left⟩, found, returned⟩ := read
      cases returned
      exact storable_numeral (readNumeral_shape found).2

theorem fieldsStorable_iff {fields : Dict} :
    FieldsStorable format fields ↔ ∀ field ∈ fields, Storable format field.2 := by
  induction fields with
  | nil => simp [FieldsStorable]
  | cons field fields inductionHypothesis =>
      rw [FieldsStorable, inductionHypothesis, List.forall_mem_cons]

theorem fieldsStorable_assign {key : Text} {value : Json} (storable : Storable format value)
    {entries : Dict} (entriesStorable : FieldsStorable format entries) :
    FieldsStorable format (Assignment.assign key value entries) := by
  induction entries with
  | nil => exact ⟨storable, trivial⟩
  | cons entry entries inductionHypothesis =>
      rw [Assignment.assign]
      split_ifs
      · exact ⟨storable, entriesStorable.2⟩
      · exact ⟨entriesStorable.1, inductionHypothesis entriesStorable.2⟩

theorem fieldsStorable_assignAll {fields entries : Dict} (storable : FieldsStorable format fields)
    (entriesStorable : FieldsStorable format entries) :
    FieldsStorable format (Assignment.assignAll entries fields) := by
  induction fields generalizing entries with
  | nil => exact entriesStorable
  | cons field fields inductionHypothesis =>
      exact inductionHypothesis storable.2 (fieldsStorable_assign storable.1 entriesStorable)

/-- A reader with any fuel, for values, for the items of an array and for the fields of an
object. -/
theorem storable_of_read (fuel : Nat) :
    (∀ {text value rest}, readValue format fuel text = some (value, rest) →
      Storable format value) ∧
    (∀ {text items rest}, readItems format fuel text = some (items, rest) →
      ItemsStorable format items) ∧
    (∀ {text fields rest}, readFields format fuel text = some (fields, rest) →
      FieldsStorable format fields) := by
  induction fuel with
  | zero => exact ⟨nofun, nofun, nofun⟩
  | succ fuel inductionHypothesis =>
      obtain ⟨values, items, fields⟩ := inductionHypothesis
      refine ⟨?_, ?_, ?_⟩
      · intro text value rest read
        simp only [readValue] at read
        split_ifs at read with isText isArray noItems isObject noFields
        · obtain ⟨_, _, returned⟩ := Option.bind_eq_some_iff.mp read
          cases returned
          trivial
        · cases read
          trivial
        · obtain ⟨_, found, returned⟩ := Option.bind_eq_some_iff.mp read
          cases returned
          exact items found
        · cases read
          exact ⟨List.nodup_nil, trivial⟩
        · obtain ⟨_, found, returned⟩ := Option.bind_eq_some_iff.mp read
          cases returned
          have empty : FieldsStorable format [] := trivial
          have distinct : (Assignment.keys ([] : Dict)).Nodup := List.nodup_nil
          exact ⟨Assignment.nodup_assignAll distinct _,
            fieldsStorable_assignAll (fields found) empty⟩
        · exact storable_scalar read
      · intro text read rest found
        rw [readItems] at found
        obtain ⟨⟨item, left⟩, first, found⟩ := Option.bind_eq_some_iff.mp found
        dsimp only at found
        split_ifs at found with closed separated
        · cases found
          exact ⟨values first, trivial⟩
        · obtain ⟨_, later, returned⟩ := Option.bind_eq_some_iff.mp found
          cases returned
          exact ⟨values first, items later⟩
      · intro text read rest found
        rw [readFields] at found
        obtain ⟨⟨key, left⟩, _, found⟩ := Option.bind_eq_some_iff.mp found
        obtain ⟨behind, _, found⟩ := Option.bind_eq_some_iff.mp found
        obtain ⟨⟨value, behind⟩, first, found⟩ := Option.bind_eq_some_iff.mp found
        dsimp only at first found
        split_ifs at found with closed separated
        · cases found
          exact ⟨values first, trivial⟩
        · obtain ⟨_, later, returned⟩ := Option.bind_eq_some_iff.mp found
          cases returned
          exact ⟨values first, fields later⟩

/-- What a reader returns can be written. -/
theorem storable_of_load {text : Text} {value : Json} (loaded : load format text = some value) :
    Storable format value := by
  obtain ⟨⟨read, rest⟩, found, returned⟩ := Option.bind_eq_some_iff.mp loaded
  dsimp only at returned
  split_ifs at returned
  cases returned
  exact (storable_of_read _).1 found

end Loaded

end JsonText
