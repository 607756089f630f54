import CppCore.Library.Spacing

/-!
# Words

A text is read as its words by everyone to whom spaces only separate.
-/

namespace Text

/-- The text goes on with a solid character. -/
def goesOn (text : Text) : Bool := text.head?.any fun next => !isSpace next

def extendFirst (char : Char) : List Text → List Text
  | [] => [[char]]
  | word :: later => (char :: word) :: later

/-- The parts between the spaces. -/
def words : Text → List Text
  | [] => []
  | char :: text =>
      if isSpace char = true then words text
      else if goesOn text = true then extendFirst char (words text)
      else [char] :: words text

variable {char : Char} {text : Text}

theorem words_space (space : isSpace char = true) (text : Text) :
    words (char :: text) = words text :=
  if_pos space

theorem words_solid (solid : isSpace char = false) (text : Text) : words (char :: text) =
    if goesOn text = true then extendFirst char (words text) else [char] :: words text :=
  if_neg (Bool.eq_false_iff.mp solid)

theorem words_ne_nil_of_goesOn (solidNext : goesOn text = true) : words text ≠ [] := by
  cases text with
  | nil => cases solidNext
  | cons next text =>
      have solid : isSpace next = false := by simpa [goesOn] using solidNext
      rw [words_solid solid]
      split_ifs
      · cases words text <;> exact List.cons_ne_nil _ _
      · exact List.cons_ne_nil _ _

theorem extendFirst_append {found : List Text} (nonempty : found ≠ []) (later : List Text) :
    extendFirst char (found ++ later) = extendFirst char found ++ later := by
  cases found with
  | nil => exact absurd rfl nonempty
  | cons word found => rfl

/-- Spaces separate words. -/
theorem words_append_space (space : isSpace char = true) (before behind : Text) :
    words (before ++ char :: behind) = words before ++ words behind := by
  induction before with
  | nil => exact words_space space behind
  | cons first before inductionHypothesis =>
      rw [List.cons_append]
      by_cases spaceFirst : isSpace first = true
      · rw [words_space spaceFirst, words_space spaceFirst, inductionHypothesis]
      · have solid := Bool.eq_false_iff.mpr spaceFirst
        have sameNext : goesOn (before ++ char :: behind) = goesOn before := by
          cases before with
          | nil => simp [goesOn, space]
          | cons next before => rfl
        rw [words_solid solid, words_solid solid, sameNext, inductionHypothesis]
        split_ifs with solidNext
        · exact extendFirst_append (words_ne_nil_of_goesOn solidNext) _
        · rfl

theorem intercalate_cons (word : Text) {later : List Text} (nonempty : later ≠ []) :
    List.intercalate " " (word :: later) = word ++ ' ' :: List.intercalate " " later := by
  cases later with
  | nil => exact absurd rfl nonempty
  | cons next later =>
      rw [List.intercalate_cons_cons, List.append_assoc]
      rfl

theorem words_intercalate (texts : List Text) :
    words (List.intercalate " " texts) = texts.flatMap words := by
  induction texts with
  | nil => rfl
  | cons first texts inductionHypothesis =>
      by_cases none : texts = []
      · rw [none, List.intercalate_singleton, List.flatMap_singleton]
      · rw [intercalate_cons _ none, words_append_space rfl, inductionHypothesis,
          List.flatMap_cons]

theorem intercalate_extendFirst (char : Char) {found : List Text} (nonempty : found ≠ []) :
    List.intercalate " " (extendFirst char found) = char :: List.intercalate " " found := by
  match found with
  | [] => exact absurd rfl nonempty
  | [word] => rw [extendFirst, List.intercalate_singleton, List.intercalate_singleton]
  | word :: next :: later =>
      rw [extendFirst, List.intercalate_cons_cons, List.intercalate_cons_cons]
      rfl

/-- Between the words of a collapsed text there are single spaces. -/
theorem rdropWhile_collapse (text : Text) : (collapse text).rdropWhile isSpace =
    (if text.head?.any isSpace = true ∧ words text ≠ [] then [' '] else []) ++
      List.intercalate " " (words text) := by
  induction text with
  | nil => rfl
  | cons first text inductionHypothesis =>
      by_cases space : isSpace first = true
      · -- Of a run of spaces the last one is kept, if a word follows it.
        have spaceHere : (first :: text).head?.any isSpace = true := space
        rw [collapse, if_pos space, words_space space]
        simp only [spaceHere, true_and]
        by_cases spaceNext : text.head?.any isSpace = true
        · rw [if_pos spaceNext, inductionHypothesis]
          simp only [spaceNext, true_and]
        · rw [if_neg spaceNext]
          cases text with
          | nil => rfl
          | cons next text =>
              have solid : isSpace next = false := Bool.eq_false_iff.mpr spaceNext
              have goes : goesOn (next :: text) = true := by simp [goesOn, solid]
              rw [if_neg fun both => spaceNext both.1, List.nil_append, collapse_solid solid,
                rdropWhile_cons solid] at inductionHypothesis
              rw [collapse_solid solid, if_pos (words_ne_nil_of_goesOn goes), ← inductionHypothesis]
              exact rdropWhile_append_cons solid [' '] _
      · -- A solid character ends its word, or goes in front of the word that goes on.
        have solid := Bool.eq_false_iff.mpr space
        have noSpace : ¬ ((first :: text).head?.any isSpace = true ∧ words (first :: text) ≠ []) :=
          fun both => space both.1
        rw [if_neg noSpace, collapse_solid solid, rdropWhile_cons solid, inductionHypothesis,
          words_solid solid, List.nil_append]
        cases text with
        | nil => rfl
        | cons next text =>
            by_cases spaceNext : isSpace next = true
            · have spaceHere : (next :: text).head?.any isSpace = true := spaceNext
              have stops : goesOn (next :: text) = false := by simp [goesOn, spaceNext]
              simp only [spaceHere, true_and, stops, Bool.false_eq_true, if_false]
              by_cases none : words (next :: text) = []
              · rw [none]
                rfl
              · rw [if_pos none, intercalate_cons _ none]
                rfl
            · have solidNext : ¬ (next :: text).head?.any isSpace = true := spaceNext
              have goes : goesOn (next :: text) = true := by simp [goesOn, spaceNext]
              rw [if_neg fun both => solidNext both.1, if_pos goes, List.nil_append,
                intercalate_extendFirst _ (words_ne_nil_of_goesOn goes)]

theorem strip_collapse (text : Text) :
    strip (collapse text) = List.intercalate " " (words text) := by
  induction text with
  | nil => rfl
  | cons first text inductionHypothesis =>
      by_cases space : isSpace first = true
      · rw [words_space space, ← inductionHypothesis, collapse, if_pos space]
        split_ifs
        · rfl
        · exact strip_cons_space rfl _
      · have solid := Bool.eq_false_iff.mpr space
        have whole := rdropWhile_collapse (first :: text)
        have noSpace : ¬ ((first :: text).head?.any isSpace = true ∧ words (first :: text) ≠ []) :=
          fun both => space both.1
        rw [if_neg noSpace, List.nil_append] at whole
        rw [← whole, strip, collapse_solid solid, List.dropWhile_cons_of_neg space]

end Text
