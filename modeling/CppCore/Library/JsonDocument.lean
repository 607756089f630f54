import CppCore.Library.Assignment
import CppCore.Library.JsonNumbers
import CppCore.Library.JsonStrings

/-!
# JSON documents

A writer that puts every value of a container on a line of its own, and a reader
of documents in any layout.  What is written is read back.
-/

namespace JsonText

/-- The floats that are no numbers. -/
def nonfinite : List Text := ["NaN", "Infinity", "-Infinity"]

/-- The text of a float that a reader takes whole. -/
def isFloat (digits : Text) : Bool :=
  nonfinite.contains digits ||
    match readNumeral digits with
    | some (numeral, []) => !numeral.isInteger
    | _ => false

/-- How a writer prints the float that a text denotes.  What is printed is a float that is
printed in the same way. -/
structure FloatFormat where
  print : Text → Text
  isFloat_print : ∀ digits, isFloat digits = true → isFloat (print digits) = true
  print_print : ∀ digits, isFloat digits = true → print (print digits) = print digits

def FloatFormat.verbatim : FloatFormat := ⟨id, fun _ float => float, fun _ _ => rfl⟩

mutual

/-- What a document can hold: keys are distinct, and floats have the digits that are printed. -/
def Storable (format : FloatFormat) : Json → Prop
  | .float digits => isFloat digits = true ∧ format.print digits = digits
  | .arr items => ItemsStorable format items
  | .obj fields => (Assignment.keys fields).Nodup ∧ FieldsStorable format fields
  | _ => True

def ItemsStorable (format : FloatFormat) : List Json → Prop
  | [] => True
  | item :: items => Storable format item ∧ ItemsStorable format items

def FieldsStorable (format : FloatFormat) : List (Text × Json) → Prop
  | [] => True
  | field :: fields => Storable format field.2 ∧ FieldsStorable format fields

end

section Writer

variable (indent : Nat)

def newline (level : Nat) : Text := '\n' :: List.replicate (indent * level) ' '

/-- A container, whose content starts on the next line. -/
def enclose (level : Nat) (opening closing : Char) (content : Text) : Text :=
  if content = [] then [opening, closing]
  else opening :: (newline indent (level + 1) ++ (content ++ (newline indent level ++ [closing])))

mutual

def print (level : Nat) : Json → Text
  | .null => "null"
  | .bool true => "true"
  | .bool false => "false"
  | .int value => (toString value).toList
  | .float digits => digits
  | .str text => quote text
  | .arr items => enclose indent level '[' ']' (printItems (level + 1) items)
  | .obj fields => enclose indent level '{' '}' (printFields (level + 1) fields)

def printItems (level : Nat) : List Json → Text
  | [] => []
  | item :: items => print level item ++ printMoreItems level items

def printMoreItems (level : Nat) : List Json → Text
  | [] => []
  | item :: items => ',' :: (newline indent level ++ (print level item ++ printMoreItems level items))

def printFields (level : Nat) : List (Text × Json) → Text
  | [] => []
  | field :: fields =>
      quote field.1 ++ (':' :: ' ' :: (print level field.2 ++ printMoreFields level fields))

def printMoreFields (level : Nat) : List (Text × Json) → Text
  | [] => []
  | field :: fields =>
      ',' :: (newline indent level ++
        (quote field.1 ++ (':' :: ' ' :: (print level field.2 ++ printMoreFields level fields))))

end

/-- `json.dump` -/
def dump (value : Json) : Text := print indent 0 value

end Writer

section Reader

variable (format : FloatFormat)

def isSpace (char : Char) : Bool := char ∈ [' ', '\t', '\n', '\r']

def skipSpaces (text : Text) : Text := text.dropWhile isSpace

def words : List (Text × Json) := [("null", .null), ("true", .bool true), ("false", .bool false)]

def Numeral.value (numeral : Numeral) : Json :=
  if numeral.isInteger then .int numeral.toInt else .float (format.print numeral.text)

def readScalar (text : Text) : Option (Json × Text) :=
  match words.find? fun word => word.1.isPrefixOf text with
  | some word => some (word.2, text.drop word.1.length)
  | none =>
      match nonfinite.find? fun word => word.isPrefixOf text with
      | some word => some (.float (format.print word), text.drop word.length)
      | none => (readNumeral text).map fun found => (found.1.value format, found.2)

def readText (text : Text) : Option (Text × Text) :=
  if text.head? = some '"' then readString text.length text.tail else none

def expectColon (text : Text) : Option Text :=
  if text.head? = some ':' then some text.tail else none

mutual

/-- The value at the start of the text.  The fuel bounds the number of calls. -/
def readValue : Nat → Text → Option (Json × Text)
  | 0, _ => none
  | fuel + 1, text =>
      if text.head? = some '"' then do
        let (content, rest) ← readText text
        return (.str content, rest)
      else if text.head? = some '[' then
        let inner := skipSpaces text.tail
        if inner.head? = some ']' then
          some (.arr [], inner.tail)
        else do
          let (items, rest) ← readItems fuel inner
          return (.arr items, rest)
      else if text.head? = some '{' then
        let inner := skipSpaces text.tail
        if inner.head? = some '}' then
          some (.obj [], inner.tail)
        else do
          let (fields, rest) ← readFields fuel inner
          return (.obj (Assignment.assignAll [] fields), rest)
      else
        readScalar format text

def readItems : Nat → Text → Option (List Json × Text)
  | 0, _ => none
  | fuel + 1, text => do
      let (item, rest) ← readValue fuel text
      let rest := skipSpaces rest
      if rest.head? = some ']' then
        return ([item], rest.tail)
      else if rest.head? = some ',' then
        let (items, rest) ← readItems fuel (skipSpaces rest.tail)
        return (item :: items, rest)
      else none

def readFields : Nat → Text → Option (List (Text × Json) × Text)
  | 0, _ => none
  | fuel + 1, text => do
      let (key, rest) ← readText text
      let rest ← expectColon (skipSpaces rest)
      let (value, rest) ← readValue fuel (skipSpaces rest)
      let rest := skipSpaces rest
      if rest.head? = some '}' then
        return ([(key, value)], rest.tail)
      else if rest.head? = some ',' then
        let (fields, rest) ← readFields fuel (skipSpaces rest.tail)
        return ((key, value) :: fields, rest)
      else none

end

/-- `json.load`, without its limits on digits and depth.  An escaped surrogate without its partner is
no character, and the text is refused. -/
def load (text : Text) : Option Json := do
  let (value, rest) ← readValue format (2 * text.length + 2) (skipSpaces text)
  if skipSpaces rest = [] then return value else none

end Reader

end JsonText
