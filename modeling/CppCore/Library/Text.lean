import Mathlib.Data.Char
import Mathlib.Data.List.DropRight
import Mathlib.Data.List.Infix
import Mathlib.Data.List.Lex

/-!
# Texts

Texts are lists of characters, with the operations of Python's `str`.  Texts are
ordered by their code points.
-/

abbrev Text := List Char

instance : Coe String Text := ⟨String.toList⟩

namespace Text

instance lawfulBEq : LawfulBEq Text := inferInstance

/-- The characters of `str.isspace`, which `strip` removes and `\s` matches. -/
def isSpace (char : Char) : Bool :=
  let code := char.toNat
  (9 ≤ code && code ≤ 13) || (28 ≤ code && code ≤ 32) || code == 0x85 || code == 0xA0 ||
    code == 0x1680 || (0x2000 ≤ code && code ≤ 0x200A) || code == 0x2028 || code == 0x2029 ||
    code == 0x202F || code == 0x205F || code == 0x3000

def strip (text : Text) : Text :=
  (text.dropWhile isSpace).rdropWhile isSpace

def contains (text part : Text) : Bool :=
  decide (part <:+: text)

def removePrefix (text start : Text) : Text :=
  if start.isPrefixOf text then text.drop start.length else text

/-- What follows the last occurrence of the separator. -/
def afterLast (separator : Text) : Text → Option Text
  | [] => none
  | char :: text =>
      match afterLast separator text with
      | some rest => some rest
      | none =>
          if separator.isPrefixOf (char :: text) then
            some ((char :: text).drop separator.length)
          else
            none

/-- What stands before and behind the first occurrence of the separator. -/
def partition (separator : Text) : Text → Option (Text × Text)
  | [] => none
  | char :: text =>
      if separator.isPrefixOf (char :: text) then
        some ([], (char :: text).drop separator.length)
      else
        (partition separator text).map fun found => (char :: found.1, found.2)

def Trimmed (text : Text) : Prop := strip text = text

instance (text : Text) : Decidable (Trimmed text) :=
  inferInstanceAs (Decidable (_ = _))

theorem strip_cons_space {char : Char} (space : isSpace char = true) (text : Text) :
    strip (char :: text) = strip text := by
  unfold strip
  rw [List.dropWhile_cons_of_pos space]

theorem strip_append_of_space {spaces : Text} (allSpaces : ∀ char ∈ spaces, isSpace char = true)
    (text : Text) : strip (spaces ++ text) = strip text := by
  unfold strip
  rw [List.dropWhile_append_of_pos allSpaces]

/-- What `strip` removes are spaces on both sides. -/
theorem exists_strip (text : Text) : ∃ before behind : Text,
    text = before ++ strip text ++ behind ∧ (∀ char ∈ before, isSpace char = true) ∧
      ∀ char ∈ behind, isSpace char = true := by
  refine ⟨text.takeWhile isSpace, (text.dropWhile isSpace).rtakeWhile isSpace, ?_,
    fun char => List.mem_takeWhile_imp, fun char => List.mem_rtakeWhile_imp⟩
  unfold strip
  rw [List.append_assoc, List.rdropWhile_append_rtakeWhile, List.takeWhile_append_dropWhile]

theorem trimmed_iff {text : Text} :
    Trimmed text ↔ (∀ char ∈ text.head?, isSpace char = false) ∧
      ∀ char ∈ text.getLast?, isSpace char = false := by
  constructor
  · intro trimmed
    have whole : ((text.dropWhile isSpace).rdropWhile isSpace).length = text.length :=
      congrArg List.length trimmed
    have ending := (List.rdropWhile_prefix isSpace (text.dropWhile isSpace)).length_le
    have kept : text.dropWhile isSpace = text :=
      (List.dropWhile_suffix isSpace).eq_of_length_le (whole ▸ ending)
    constructor
    · intro char isFirst
      obtain ⟨rest, rfl⟩ := List.head?_eq_some_iff.mp isFirst
      by_contra space
      rw [List.dropWhile_cons_of_pos (by simpa using space)] at kept
      have shorter : (rest.dropWhile isSpace).length ≤ rest.length :=
        (List.dropWhile_suffix isSpace).length_le
      rw [kept, List.length_cons] at shorter
      omega
    · intro char isLast
      have nonempty : text ≠ [] := List.ne_nil_of_mem (List.mem_of_getLast? isLast)
      have trimmedEnd : text.rdropWhile isSpace = text := by
        have stripped : (text.dropWhile isSpace).rdropWhile isSpace = text := trimmed
        rwa [kept] at stripped
      rw [List.getLast?_eq_some_getLast nonempty] at isLast
      rw [← Option.some.inj isLast]
      simpa using List.rdropWhile_eq_self_iff.mp trimmedEnd nonempty
  · intro ⟨first, last⟩
    have kept : text.dropWhile isSpace = text := by
      cases text with
      | nil => rfl
      | cons char text =>
          have solid : isSpace char = false := first char rfl
          rw [List.dropWhile_cons_of_neg (by rw [solid]; decide)]
    unfold Trimmed strip
    rw [kept, List.rdropWhile_eq_self_iff]
    intro nonempty
    rw [last _ (List.getLast?_eq_some_getLast nonempty)]
    decide

/-- The last character of a nonempty trimmed text is not a space. -/
theorem Trimmed.last_not_space {text : Text} (trimmed : Trimmed text) (nonempty : text ≠ []) :
    isSpace (text.getLast nonempty) = false :=
  (trimmed_iff.mp trimmed).2 _ (List.getLast?_eq_some_getLast nonempty)

/-- What starts and ends in trimmed texts is trimmed. -/
theorem Trimmed.append {first last : Text} (firstTrimmed : Trimmed first)
    (firstNonempty : first ≠ []) (lastTrimmed : Trimmed last) (lastNonempty : last ≠ [])
    (middle : Text) : Trimmed (first ++ middle ++ last) := by
  apply trimmed_iff.mpr
  constructor
  · rw [List.append_assoc, List.head?_append_of_ne_nil _ firstNonempty]
    exact (trimmed_iff.mp firstTrimmed).1
  · rw [List.getLast?_append_of_ne_nil _ lastNonempty]
    exact (trimmed_iff.mp lastTrimmed).2

/-- A text that ends in a character other than a space still does when it is stripped. -/
theorem getLast?_strip_concat {char : Char} (solid : isSpace char = false) (text : Text) :
    (strip (text ++ [char])).getLast? = some char := by
  have kept : ((text ++ [char]).dropWhile isSpace).getLast? = some char := by
    induction text with
    | nil => simp [solid]
    | cons first rest inductionHypothesis =>
        rw [List.cons_append]
        by_cases space : isSpace first = true
        · rw [List.dropWhile_cons_of_pos space]
          exact inductionHypothesis
        · rw [List.dropWhile_cons_of_neg space, ← List.cons_append]
          exact List.getLast?_concat
  rcases List.getLast?_eq_some_iff.mp kept with ⟨before, shape⟩
  unfold strip
  rw [shape, List.rdropWhile_concat_neg _ _ _ (by simpa using solid)]
  simp

theorem last_strip (text : Text) : ∀ last ∈ (strip text).getLast?, isSpace last = false := by
  intro last isLast
  have nonempty : (text.dropWhile isSpace).rdropWhile isSpace ≠ [] :=
    List.ne_nil_of_mem (List.mem_of_getLast? isLast)
  have notSpace := List.rdropWhile_last_not isSpace _ nonempty
  rw [strip, List.getLast?_eq_some_getLast nonempty] at isLast
  cases isLast
  simpa using notSpace

theorem head_dropWhile_space (text : Text) :
    ∀ next ∈ (text.dropWhile isSpace).head?, isSpace next = false := by
  intro next isNext
  have notSpace := List.head?_dropWhile_not isSpace text
  rw [isNext] at notSpace
  exact notSpace

theorem strip_trimmed (text : Text) : Trimmed (strip text) := by
  refine trimmed_iff.mpr ⟨?_, last_strip text⟩
  intro first isFirst
  obtain ⟨rest, shape⟩ := List.head?_eq_some_iff.mp isFirst
  obtain ⟨behind, whole⟩ : strip text <+: text.dropWhile isSpace := List.rdropWhile_prefix _ _
  apply head_dropWhile_space text
  rw [← whole, shape]
  rfl

/-- Behind a solid character only spaces at the end are removed. -/
theorem exists_strip_cons {char : Char} (solid : isSpace char = false) (text : Text) :
    ∃ tail spaces : Text, strip (char :: text) = char :: tail ∧ text = tail ++ spaces ∧
      (∀ space ∈ spaces, isSpace space = true) ∧
        ∀ last ∈ (char :: tail).getLast?, isSpace last = false := by
  obtain ⟨before, spaces, shape, allBefore, allSpaces⟩ := exists_strip (char :: text)
  have noFront : before = [] := by
    cases before with
    | nil => rfl
    | cons first before =>
        have space := allBefore first List.mem_cons_self
        rw [← (List.cons.inj shape).1, solid] at space
        cases space
  rw [noFront, List.nil_append] at shape
  cases stripped : strip (char :: text) with
  | nil =>
      rw [stripped, List.nil_append] at shape
      have space := allSpaces char (shape ▸ List.mem_cons_self)
      rw [solid] at space
      cases space
  | cons first tail =>
      rw [stripped] at shape
      have ⟨same, rest⟩ := List.cons.inj shape
      subst same
      refine ⟨tail, spaces, rfl, rest, allSpaces, ?_⟩
      rw [← stripped]
      exact last_strip (char :: text)

/-- What holds of the parts and is kept when two texts are joined holds of the whole. -/
theorem intercalate_induction (holds : Text → Prop) {separator : Text} {parts : List Text}
    (each : ∀ part ∈ parts, holds part) (empty : parts = [] → holds [])
    (joined : ∀ first rest, holds first → holds rest → holds (first ++ separator ++ rest)) :
    holds (List.intercalate separator parts) := by
  induction parts with
  | nil => exact empty rfl
  | cons part parts inductionHypothesis =>
      have ⟨here, later⟩ := List.forall_mem_cons.mp each
      cases parts with
      | nil =>
          rw [List.intercalate_singleton]
          exact here
      | cons next parts =>
          have rest := inductionHypothesis later fun none => absurd none (List.cons_ne_nil _ _)
          rw [List.intercalate_cons_cons]
          exact joined part _ here rest

theorem contains_iff {text part : Text} : contains text part = true ↔ part <:+: text :=
  decide_eq_true_iff

/-- A character does not occur within a text that it is absent from. -/
theorem length_le_of_notMem {char : Char} {before rest earlier later : Text}
    (absent : char ∉ before) (occurs : before ++ rest = earlier ++ char :: later) :
    before.length ≤ earlier.length := by
  rcases List.append_eq_append_iff.mp occurs with ⟨inner, rfl, _⟩ | ⟨inner, rfl, shape⟩
  · simp
  · cases inner with
    | nil => simp
    | cons next inner =>
        rw [(List.cons.inj shape).1] at absent
        exact absurd (List.mem_append_right _ List.mem_cons_self) absent

/-- An occurrence does not reach across a character that it does not contain. -/
theorem infix_append_cons_iff {part : Text} (nonempty : part ≠ []) {char : Char}
    (absent : char ∉ part) (before after : Text) :
    part <:+: before ++ char :: after ↔ part <:+: before ∨ part <:+: after := by
  have notAtStart : ∀ start : Text, start ≠ [] → (∀ inner ∈ start, inner ∈ part) →
      ¬ start <+: char :: after := by
    intro start startNonempty inPart starts
    cases start with
    | nil => exact startNonempty rfl
    | cons first start =>
        have same : first = char := (List.cons_prefix_cons.mp starts).1
        rw [same] at inPart
        exact absent (inPart char List.mem_cons_self)
  constructor
  · intro occurs
    rcases List.infix_append_iff_ne_nil.mp occurs with inBefore | inRest | across
    · exact .inl inBefore
    · rcases List.infix_cons_iff.mp inRest with starts | inAfter
      · exact absurd starts (notAtStart part nonempty fun _ membership => membership)
      · exact .inr inAfter
    · rcases across with ⟨first, second, _, secondNonempty, rfl, _, starts⟩
      have inPart : ∀ inner ∈ second, inner ∈ first ++ second :=
        fun _ membership => List.mem_append_right _ membership
      exact absurd starts (notAtStart second secondNonempty inPart)
  · intro occurs
    rcases occurs with inBefore | inAfter
    · exact inBefore.trans (List.prefix_append _ _).isInfix
    · exact (inAfter.trans (List.suffix_cons _ _).isInfix).trans (List.suffix_append _ _).isInfix

theorem infix_append_right_iff {part : Text} (nonempty : part ≠ []) {separator : Text}
    (absent : ∀ char ∈ separator, char ∉ part) (after : Text) :
    part <:+: separator ++ after ↔ part <:+: after := by
  induction separator with
  | nil => rfl
  | cons char separator inductionHypothesis =>
      have ⟨absentHere, absentLater⟩ := List.forall_mem_cons.mp absent
      have here := infix_append_cons_iff nonempty absentHere [] (separator ++ after)
      rw [List.nil_append, List.infix_nil, inductionHypothesis absentLater] at here
      rw [List.cons_append, here]
      exact or_iff_right nonempty

theorem infix_append_append_iff {part : Text} (nonempty : part ≠ []) {separator : Text}
    (separates : separator ≠ []) (absent : ∀ char ∈ separator, char ∉ part) (before after : Text) :
    part <:+: before ++ (separator ++ after) ↔ part <:+: before ∨ part <:+: after := by
  cases separator with
  | nil => exact absurd rfl separates
  | cons char separator =>
      have ⟨absentHere, absentLater⟩ := List.forall_mem_cons.mp absent
      rw [List.cons_append, infix_append_cons_iff nonempty absentHere,
        infix_append_right_iff nonempty absentLater]

/-- What occurs in a joined text occurs in one of its parts. -/
theorem infix_intercalate_iff {part : Text} (nonempty : part ≠ []) {separator : Text}
    (separates : separator ≠ []) (absent : ∀ char ∈ separator, char ∉ part) (parts : List Text) :
    part <:+: List.intercalate separator parts ↔ ∃ member ∈ parts, part <:+: member := by
  induction parts with
  | nil => simpa using nonempty
  | cons first parts inductionHypothesis =>
      rw [List.exists_mem_cons_iff, ← inductionHypothesis]
      cases parts with
      | nil => simpa using fun empty => absurd empty nonempty
      | cons next parts =>
          rw [List.intercalate_cons_cons, List.append_assoc,
            infix_append_append_iff nonempty separates absent]

section Partition

variable {separator : Text}

theorem partition_eq_none {text : Text} (nonempty : separator ≠ [])
    (absent : partition separator text = none) : ¬ separator <:+: text := by
  induction text with
  | nil => simpa using nonempty
  | cons char text inductionHypothesis =>
      rw [partition] at absent
      by_cases starts : separator.isPrefixOf (char :: text) = true
      · rw [if_pos starts] at absent
        cases absent
      · rw [if_neg starts, Option.map_eq_none_iff] at absent
        intro occurs
        rcases List.infix_cons_iff.mp occurs with here | later
        · exact starts (List.isPrefixOf_iff_prefix.mpr here)
        · exact inductionHypothesis absent later

/-- The occurrence that is found is the first one. -/
theorem partition_eq_some {text before behind : Text}
    (found : partition separator text = some (before, behind)) :
    text = before ++ (separator ++ behind) ∧
      ∀ earlier later, text = earlier ++ (separator ++ later) → before.length ≤ earlier.length := by
  induction text generalizing before with
  | nil => cases found
  | cons char text inductionHypothesis =>
      rw [partition] at found
      by_cases starts : separator.isPrefixOf (char :: text) = true
      · rw [if_pos starts, Option.some.injEq, Prod.mk.injEq] at found
        obtain ⟨rfl, rfl⟩ := found
        refine ⟨?_, fun earlier _ _ => Nat.zero_le _⟩
        obtain ⟨rest, shape⟩ := List.isPrefixOf_iff_prefix.mp starts
        rw [← shape, List.drop_left]
        rfl
      · rw [if_neg starts] at found
        obtain ⟨⟨front, back⟩, foundLater, same⟩ := Option.map_eq_some_iff.mp found
        cases same
        have ⟨shape, first⟩ := inductionHypothesis foundLater
        refine ⟨by rw [shape]; rfl, ?_⟩
        intro earlier later occurs
        cases earlier with
        | nil => exact absurd (List.isPrefixOf_iff_prefix.mpr ⟨later, occurs.symm⟩) starts
        | cons head earlier =>
            have inText := first earlier later (List.cons.inj occurs).2
            exact Nat.succ_le_succ inText

end Partition

section AfterLast

variable {separator : Text}

/-- Nothing follows a separator that does not occur. -/
theorem afterLast_eq_none {text : Text} (absent : ¬ separator <:+: text) :
    afterLast separator text = none := by
  induction text with
  | nil => rfl
  | cons char text inductionHypothesis =>
      have absentLater : ¬ separator <:+: text :=
        fun occurs => absent (occurs.trans (List.suffix_cons char text).isInfix)
      have absentHere : ¬ separator.isPrefixOf (char :: text) = true := by
        intro starts
        exact absent (List.isPrefixOf_iff_prefix.mp starts).isInfix
      rw [afterLast, inductionHypothesis absentLater]
      exact if_neg absentHere

theorem afterLast_append {text rest : Text} (found : afterLast separator text = some rest)
    (before : Text) : afterLast separator (before ++ text) = some rest := by
  induction before with
  | nil => exact found
  | cons char before inductionHypothesis =>
      rw [List.cons_append, afterLast, inductionHypothesis]

/-- What follows the last occurrence is the end of the text. -/
theorem afterLast_spec {text rest : Text} (found : afterLast separator text = some rest) :
    ∃ before, text = before ++ separator ++ rest := by
  induction text generalizing rest with
  | nil => simp [afterLast] at found
  | cons char text inductionHypothesis =>
      rw [afterLast] at found
      cases later : afterLast separator text with
      | some tail =>
          rw [later] at found
          cases found
          rcases inductionHypothesis later with ⟨before, shape⟩
          exact ⟨char :: before, by rw [shape]; simp⟩
      | none =>
          rw [later] at found
          by_cases starts : separator.isPrefixOf (char :: text) = true
          · rw [if_pos starts, Option.some.injEq] at found
            rcases List.isPrefixOf_iff_prefix.mp starts with ⟨tail, shape⟩
            refine ⟨[], ?_⟩
            rw [← found, ← shape]
            simp
          · rw [if_neg starts] at found
            cases found

/-- The last occurrence is the one after which no other begins. -/
theorem afterLast_of_last {first : Char} {separator rest : Text}
    (last : ¬ first :: separator <:+: separator ++ rest) (before : Text) :
    afterLast (first :: separator) (before ++ first :: (separator ++ rest)) = some rest := by
  apply afterLast_append
  rw [afterLast, afterLast_eq_none last]
  have starts : (first :: separator).isPrefixOf (first :: (separator ++ rest)) = true :=
    List.isPrefixOf_iff_prefix.mpr ⟨rest, rfl⟩
  have left : (first :: (separator ++ rest)).drop (first :: separator).length = rest :=
    List.drop_left
  simp only [starts, if_true, left]

/-- A separator that occurs is found. -/
theorem exists_afterLast (nonempty : separator ≠ []) {text : Text}
    (occurs : separator <:+: text) : ∃ rest, afterLast separator text = some rest := by
  induction text with
  | nil => exact absurd (List.infix_nil.mp occurs) nonempty
  | cons char text inductionHypothesis =>
      rw [afterLast]
      cases later : afterLast separator text with
      | some tail => exact ⟨tail, rfl⟩
      | none =>
          rcases List.infix_cons_iff.mp occurs with starts | inRest
          · exact ⟨_, if_pos (List.isPrefixOf_iff_prefix.mpr starts)⟩
          · rcases inductionHypothesis inRest with ⟨tail, found⟩
            rw [later] at found
            cases found

end AfterLast

end Text
