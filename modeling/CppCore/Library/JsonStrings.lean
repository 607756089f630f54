import CppCore.Library.Text

/-!
# Strings in a JSON document

A string is written between quotation marks and in ASCII only.  Characters
beyond the basic plane become a pair of surrogates; a surrogate without its
partner is no character.
-/

namespace JsonText

/-- The characters that are written as a backslash and a mark. -/
def marks : List (Char × Char) :=
  [('\\', '\\'), ('"', '"'), ('\x08', 'b'), ('\x0c', 'f'), ('\n', 'n'), ('\r', 'r'), ('\t', 't')]

/-- Behind a backslash the slash can stand for itself. -/
def escapes : List (Char × Char) :=
  [('\\', '\\'), ('"', '"'), ('/', '/'), ('b', '\x08'), ('f', '\x0c'), ('n', '\n'), ('r', '\r'),
    ('t', '\t')]

/-- Four hexadecimal digits. -/
def hex (code : Nat) : Text :=
  [(code / 4096 % 16).digitChar, (code / 256 % 16).digitChar, (code / 16 % 16).digitChar,
    (code % 16).digitChar]

def unicode (code : Nat) : Text := '\\' :: 'u' :: hex code

def escape (char : Char) : Text :=
  match marks.lookup char with
  | some mark => ['\\', mark]
  | none =>
      if 32 ≤ char.toNat ∧ char.toNat ≤ 126 then
        [char]
      else if char.toNat < 0x10000 then
        unicode char.toNat
      else
        unicode (0xD800 + (char.toNat - 0x10000) / 0x400) ++
          unicode (0xDC00 + (char.toNat - 0x10000) % 0x400)

def quote (text : Text) : Text := '"' :: (text.flatMap escape ++ ['"'])

def hexValue (char : Char) : Option Nat :=
  let code := char.toNat
  if 48 ≤ code ∧ code ≤ 57 then some (code - 48)
  else if 97 ≤ code ∧ code ≤ 102 then some (code - 87)
  else if 65 ≤ code ∧ code ≤ 70 then some (code - 55)
  else none

def readHex : Text → Option (Nat × Text)
  | first :: second :: third :: fourth :: rest => do
      let first ← hexValue first
      let second ← hexValue second
      let third ← hexValue third
      let fourth ← hexValue fourth
      return (((first * 16 + second) * 16 + third) * 16 + fourth, rest)
  | _ => none

def isHighSurrogate (code : Nat) : Bool := 0xD800 ≤ code ∧ code ≤ 0xDBFF

def isLowSurrogate (code : Nat) : Bool := 0xDC00 ≤ code ∧ code ≤ 0xDFFF

/-- The second half of a character, written directly behind the first. -/
def readPartner (high : Nat) (text : Text) : Option (Char × Text) := do
  let (low, rest) ← if ['\\', 'u'].isPrefixOf text then readHex (text.drop 2) else none
  if isLowSurrogate low then
    return (Char.ofNat (0x10000 + (high - 0xD800) * 0x400 + (low - 0xDC00)), rest)
  else
    none

/-- The character of an escape, behind its backslash. -/
def readEscape : Text → Option (Char × Text)
  | [] => none
  | mark :: rest =>
      if mark = 'u' then do
        let (code, rest) ← readHex rest
        if isHighSurrogate code then readPartner code rest
        else if isLowSurrogate code then none
        else return (Char.ofNat code, rest)
      else
        (escapes.lookup mark).map fun char => (char, rest)

/-- Control characters have to be escaped. -/
def readChar : Text → Option (Char × Text)
  | [] => none
  | char :: rest =>
      if char = '\\' then readEscape rest
      else if char.toNat < 32 then none
      else some (char, rest)

/-- The string behind its opening quotation mark. -/
def readString : Nat → Text → Option (Text × Text)
  | 0, _ => none
  | fuel + 1, text =>
      if text.head? = some '"' then
        some ([], text.tail)
      else do
        let (char, rest) ← readChar text
        let (chars, rest) ← readString fuel rest
        return (char :: chars, rest)

theorem hexValue_digitChar {digit : Nat} (small : digit < 16) :
    hexValue digit.digitChar = some digit := by
  have all : ∀ digit < 16, hexValue (Nat.digitChar digit) = some digit := by decide
  exact all digit small

theorem readHex_hex {code : Nat} (small : code < 0x10000) (rest : Text) :
    readHex (hex code ++ rest) = some (code, rest) := by
  have below (value : Nat) : value % 16 < 16 := Nat.mod_lt _ (by decide)
  have sum : ((code / 4096 % 16 * 16 + code / 256 % 16) * 16 + code / 16 % 16) * 16 + code % 16 =
      code := by
    omega
  simp [readHex, hex, hexValue_digitChar (below _), sum]

/-- A code point is no surrogate. -/
theorem toNat_valid (char : Char) :
    char.toNat < 0xD800 ∨ 0xDFFF < char.toNat ∧ char.toNat < 0x110000 := char.valid

theorem readEscape_unicode {char : Char} (basic : char.toNat < 0x10000) (rest : Text) :
    readEscape ('u' :: (hex char.toNat ++ rest)) = some (char, rest) := by
  have valid := toNat_valid char
  have notHigh : isHighSurrogate char.toNat = false := by
    simp only [isHighSurrogate, decide_eq_false_iff_not]
    omega
  have notLow : isLowSurrogate char.toNat = false := by
    simp only [isLowSurrogate, decide_eq_false_iff_not]
    omega
  simp [readEscape, readHex_hex basic, notHigh, notLow, Char.ofNat_toNat]

theorem readPartner_unicode {low : Nat} (isLow : isLowSurrogate low = true) (high : Nat)
    (rest : Text) : readPartner high (unicode low ++ rest) =
      some (Char.ofNat (0x10000 + (high - 0xD800) * 0x400 + (low - 0xDC00)), rest) := by
  have bounds := of_decide_eq_true isLow
  have read := readHex_hex (show low < 0x10000 by omega) rest
  simp [readPartner, unicode, read, isLow]

theorem readEscape_surrogates {high low : Nat} (isHigh : isHighSurrogate high = true)
    (isLow : isLowSurrogate low = true) (rest : Text) :
    readEscape ('u' :: (hex high ++ (unicode low ++ rest))) =
      some (Char.ofNat (0x10000 + (high - 0xD800) * 0x400 + (low - 0xDC00)), rest) := by
  have bounds := of_decide_eq_true isHigh
  have read := readHex_hex (show high < 0x10000 by omega) (unicode low ++ rest)
  simp only [readEscape, if_true, read, Option.bind_eq_bind, Option.bind_some, isHigh,
    readPartner_unicode isLow]

/-- The two surrogates of a character beyond the basic plane. -/
theorem surrogates_join {code : Nat} (beyond : ¬ code < 0x10000) (valid : code < 0x110000) :
    isHighSurrogate (0xD800 + (code - 0x10000) / 0x400) = true ∧
      isLowSurrogate (0xDC00 + (code - 0x10000) % 0x400) = true ∧
      0x10000 + (0xD800 + (code - 0x10000) / 0x400 - 0xD800) * 0x400 +
        (0xDC00 + (code - 0x10000) % 0x400 - 0xDC00) = code := by
  simp only [isHighSurrogate, isLowSurrogate, decide_eq_true_eq]
  omega

/-- Every mark stands for its character. -/
theorem escapes_marks : ∀ entry ∈ marks, entry.2 ≠ 'u' ∧ escapes.lookup entry.2 = some entry.1 := by
  decide

theorem mem_of_lookup_marks {char mark : Char} (found : marks.lookup char = some mark) :
    (char, mark) ∈ marks := by
  obtain ⟨before, behind, shape, _⟩ := List.lookup_eq_some_iff.mp found
  rw [shape]
  exact List.mem_append_right _ List.mem_cons_self

theorem readChar_escape (char : Char) (rest : Text) :
    readChar (escape char ++ rest) = some (char, rest) := by
  unfold escape
  cases found : marks.lookup char with
  | some mark =>
      obtain ⟨notUnicode, meaning⟩ := escapes_marks _ (mem_of_lookup_marks found)
      simp [readChar, readEscape, notUnicode, meaning]
  | none =>
      simp only []
      split_ifs with printable basic
      · have notBackslash : char ≠ '\\' := by
          rintro rfl
          cases found
        have notControl : ¬ char.toNat < 32 := by omega
        simp only [List.cons_append, List.nil_append, readChar, if_neg notBackslash,
          if_neg notControl]
      · exact readEscape_unicode basic rest
      · obtain ⟨isHigh, isLow, joined⟩ := surrogates_join basic (by have := toNat_valid char; omega)
        have read := readEscape_surrogates isHigh isLow rest
        rw [joined, Char.ofNat_toNat] at read
        rw [List.append_assoc]
        exact read

theorem head_escape (char : Char) :
    ∃ head tail, escape char = head :: tail ∧ head ≠ '"' := by
  unfold escape
  cases found : marks.lookup char with
  | some mark => exact ⟨'\\', [mark], rfl, by decide⟩
  | none =>
      simp only []
      split_ifs
      · refine ⟨char, [], rfl, ?_⟩
        rintro rfl
        cases found
      · exact ⟨'\\', _, rfl, by decide⟩
      · exact ⟨'\\', _, rfl, by decide⟩

/-- A quoted text is read back, whatever follows. -/
theorem readString_quote {fuel : Nat} {text : Text} (enough : text.length < fuel) (rest : Text) :
    readString fuel (text.flatMap escape ++ '"' :: rest) = some (text, rest) := by
  induction text generalizing fuel with
  | nil =>
      cases fuel with
      | zero => cases enough
      | succ fuel => rfl
  | cons char text inductionHypothesis =>
      cases fuel with
      | zero => cases enough
      | succ fuel =>
          obtain ⟨head, tail, shape, notQuote⟩ := head_escape char
          have unquoted :
              (escape char ++ (text.flatMap escape ++ '"' :: rest)).head? ≠ some '"' := by
            rw [shape]
            simpa using notQuote
          rw [List.flatMap_cons, List.append_assoc, readString, if_neg unquoted, readChar_escape]
          simp [inductionHypothesis (Nat.lt_of_succ_lt_succ enough)]

def isPrintable (char : Char) : Bool := 32 ≤ char.toNat ∧ char.toNat ≤ 126

theorem hex_printable (code : Nat) : ∀ char ∈ hex code, isPrintable char = true := by
  have all : ∀ digit < 16, isPrintable (Nat.digitChar digit) = true := by decide
  have below (value : Nat) : value % 16 < 16 := Nat.mod_lt _ (by decide)
  simp [hex, all, below]

theorem unicode_printable (code : Nat) : ∀ char ∈ unicode code, isPrintable char = true :=
  List.forall_mem_cons.mpr ⟨rfl, List.forall_mem_cons.mpr ⟨rfl, hex_printable code⟩⟩

theorem escape_printable (char : Char) : ∀ written ∈ escape char, isPrintable written = true := by
  have allMarks : ∀ entry ∈ marks, isPrintable entry.2 = true := by decide
  unfold escape
  cases found : marks.lookup char with
  | some mark => simpa [isPrintable] using allMarks _ (mem_of_lookup_marks found)
  | none =>
      simp only []
      split_ifs with printable
      · simpa [isPrintable] using printable
      · exact unicode_printable _
      · exact List.forall_mem_append.mpr ⟨unicode_printable _, unicode_printable _⟩

/-- No character of a text is written outside of ASCII or as a control character. -/
theorem quote_printable (text : Text) : ∀ char ∈ quote text, isPrintable char = true := by
  have inner : ∀ char ∈ text.flatMap escape, isPrintable char = true := by
    intro char membership
    obtain ⟨source, _, written⟩ := List.mem_flatMap.mp membership
    exact escape_printable source char written
  refine List.forall_mem_cons.mpr ⟨rfl, List.forall_mem_append.mpr ⟨inner, ?_⟩⟩
  exact List.forall_mem_singleton.mpr rfl

end JsonText
