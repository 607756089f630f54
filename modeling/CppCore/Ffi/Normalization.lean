import CppCore.Ffi.Comments
import CppCore.Library.Spacing

/-!
# Normalised texts

The first and the last of the three substitutions only change spaces.  The one
between them moves a punctuation mark behind the next backtick, in every part
between two backticks that it takes for a code span.
-/

namespace CppCore.Ffi

section Spaces

theorem spacesPattern_head {char : Char} {text : Text} (space : Text.isSpace char = true) :
    (spacesPattern (char :: text)).head? =
      some (char :: text.takeWhile Text.isSpace, text.dropWhile Text.isSpace) := by
  have allSpaces : ∀ inner ∈ char :: text.takeWhile Text.isSpace, Text.isSpace inner = true :=
    List.forall_mem_cons.mpr ⟨space, fun _ => List.mem_takeWhile_imp⟩
  have taken := Pattern.greedySome_head allSpaces (Text.head_dropWhile_space text)
  rw [List.takeWhile_append_dropWhile] at taken
  exact taken

theorem substitute_spaces (text : Text) :
    spacesPattern.substitute (fun _ => " ") text = Text.collapse text := by
  apply Pattern.substitute_eq rfl
  · intro char text unmatched
    by_cases space : Text.isSpace char = true
    · rw [spacesPattern_head space] at unmatched
      cases unmatched
    · exact Text.collapse_solid (Bool.eq_false_iff.mpr space) text
  · intro char text value rest matched
    have found : (value, rest) ∈ spacesPattern (char :: text) := List.mem_of_head? matched
    have ⟨shape, nonempty, allSpaces⟩ := Pattern.mem_greedySome.mp found
    have space : Text.isSpace char = true := by
      cases value with
      | nil => exact absurd rfl nonempty
      | cons first value =>
          rw [(List.cons.inj shape).1]
          exact allSpaces first List.mem_cons_self
    rw [spacesPattern_head space] at matched
    cases matched
    refine ⟨(List.dropWhile_suffix _).length_le, ?_⟩
    rw [shape, Text.collapse_spaces nonempty allSpaces (Text.head_dropWhile_space text)]
    rfl

end Spaces

section SpacedMarks

theorem solid_of_mark {mark : Char} (isMark : mark ∈ ".,;:".toList) :
    Text.isSpace mark = false := by
  have solid : (".,;:".toList.all fun mark => !Text.isSpace mark) = true := rfl
  simpa using List.all_eq_true.mp solid mark isMark

theorem mem_spacedMarkPattern {text left : Text} {mark : Char} :
    (mark, left) ∈ spacedMarkPattern text ↔ ∃ spaces, text = spaces ++ mark :: left ∧
      spaces ≠ [] ∧ (∀ space ∈ spaces, Text.isSpace space = true) ∧ mark ∈ ".,;".toList := by
  simp only [spacedMarkPattern, Pattern.bind_apply, List.mem_flatMap]
  constructor
  · rintro ⟨⟨spaces, rest⟩, inSpaces, inMark⟩
    obtain ⟨rfl, nonempty, allSpaces⟩ := Pattern.mem_greedySome.mp inSpaces
    obtain ⟨rfl, isMark⟩ := Pattern.mem_oneOf.mp inMark
    exact ⟨spaces, rfl, nonempty, allSpaces, of_decide_eq_true isMark⟩
  · rintro ⟨spaces, rfl, nonempty, allSpaces, isMark⟩
    exact ⟨(spaces, mark :: left), Pattern.mem_greedySome.mpr ⟨rfl, nonempty, allSpaces⟩,
      Pattern.mem_oneOf.mpr ⟨rfl, decide_eq_true isMark⟩⟩

theorem substitute_spacedMarks (text : Text) :
    spacedMarkPattern.substitute (fun mark => [mark]) text = Text.closeUp ".,;" text := by
  apply Pattern.substitute_eq rfl
  · intro char text unmatched
    have stays : ¬ (Text.isSpace char = true ∧ Text.MarkNext ".,;" text) := by
      rintro ⟨space, mark, isNext, isMark⟩
      obtain ⟨left, behind⟩ := List.head?_eq_some_iff.mp isNext
      have allSpaces : ∀ inner ∈ char :: text.takeWhile Text.isSpace, Text.isSpace inner = true :=
        List.forall_mem_cons.mpr ⟨space, fun _ => List.mem_takeWhile_imp⟩
      have shape : char :: text = (char :: text.takeWhile Text.isSpace) ++ mark :: left := by
        rw [← behind, List.cons_append, List.takeWhile_append_dropWhile]
      have matched := mem_spacedMarkPattern.mpr
        ⟨_, shape, List.cons_ne_nil _ _, allSpaces, isMark⟩
      rw [List.head?_eq_none_iff.mp unmatched] at matched
      cases matched
    rw [Text.closeUp, if_neg stays]
  · intro char text mark left matched
    obtain ⟨spaces, shape, nonempty, allSpaces, isMark⟩ :=
      mem_spacedMarkPattern.mp (List.mem_of_head? matched)
    have solid := solid_of_mark (List.mem_append_left [':'] isMark)
    constructor
    · have sizes := congrArg List.length shape
      rw [List.length_append, List.length_cons, List.length_cons] at sizes
      have := List.length_pos_iff.mpr nonempty
      omega
    · rw [shape, Text.closeUp_spaces allSpaces solid isMark]
      rfl

end SpacedMarks

abbrev backtick : Char := '\x60'

theorem solid_backtick : Text.isSpace backtick = false := rfl

def EndsInMark (text : Text) : Prop := ∃ mark ∈ text.getLast?, mark ∈ ".,;:".toList

/-- A part between two backticks from which a mark can be moved. -/
def Movable (span : Text) : Prop := 2 ≤ span.length ∧ EndsInMark span

instance (text : Text) : Decidable (EndsInMark text) :=
  decidable_of_iff (text.getLast?.any (· ∈ ".,;:".toList) = true) (by
    simp only [EndsInMark, Option.any_eq_true, decide_eq_true_eq, Option.mem_def])

instance (span : Text) : Decidable (Movable span) :=
  inferInstanceAs (Decidable (_ ∧ _))

def movedMark? (span : Text) : Option Char :=
  if 2 ≤ span.length then span.getLast?.filter (· ∈ ".,;:".toList) else none

/-- The parts behind the backticks of a text.  The backtick that closes a code span does not open
another one. -/
def moveMarks : List Text → List Text
  | [] => []
  | [last] => [last]
  | span :: next :: rest =>
      match movedMark? span with
      | some mark => span.dropLast :: (mark :: next) :: moveMarks rest
      | none => span :: moveMarks (next :: rest)

/-- The whole text with its marks moved. -/
def moveAll (text : Text) : Text :=
  match text.splitOn backtick with
  | [] => []
  | first :: behind => first ++ delimit backtick (moveMarks behind)

section MovedMarks

variable {span : Text} {mark : Char}

theorem movedMark?_concat (code : Text) (last : Char) : movedMark? (code ++ [last]) =
    if code ≠ [] ∧ last ∈ ".,;:".toList then some last else none := by
  have long : 2 ≤ (code ++ [last]).length ↔ code ≠ [] := by
    rw [List.length_append, List.length_singleton, ← List.length_pos_iff]
    omega
  unfold movedMark?
  simp only [long, List.getLast?_concat, Option.filter_some, decide_eq_true_eq]
  split_ifs <;> simp_all

theorem movedMark?_eq_some_iff : movedMark? span = some mark ↔
    ∃ code, span = code ++ [mark] ∧ code ≠ [] ∧ mark ∈ ".,;:".toList := by
  constructor
  · intro moved
    rcases List.eq_nil_or_concat span with rfl | ⟨code, last, rfl⟩
    · cases moved
    · rw [List.concat_eq_append, movedMark?_concat] at moved
      split_ifs at moved with both
      cases moved
      exact ⟨code, List.concat_eq_append, both⟩
  · rintro ⟨code, rfl, both⟩
    rw [movedMark?_concat, if_pos both]

theorem movable_iff : Movable span ↔ ∃ mark, movedMark? span = some mark := by
  constructor
  · rintro ⟨long, mark, isLast, isMark⟩
    have kept : decide (mark ∈ ".,;:".toList) = true := decide_eq_true isMark
    refine ⟨mark, ?_⟩
    rw [movedMark?, if_pos long, isLast, Option.filter_some, if_pos kept]
  · rintro ⟨mark, moved⟩
    obtain ⟨code, rfl, nonempty, isMark⟩ := movedMark?_eq_some_iff.mp moved
    have long := List.length_pos_iff.mpr nonempty
    refine ⟨?_, mark, List.getLast?_concat, isMark⟩
    rw [List.length_append, List.length_singleton]
    omega

theorem movable_iff_exists : Movable span ↔
    ∃ code mark, span = code ++ [mark] ∧ code ≠ [] ∧ mark ∈ ".,;:".toList := by
  simp only [movable_iff, movedMark?_eq_some_iff]
  exact exists_comm

theorem not_movable_iff : ¬ Movable span ↔ movedMark? span = none := by
  rw [movable_iff, not_exists, Option.eq_none_iff_forall_ne_some]

theorem movable_concat_iff {code : Text} {last : Char} :
    Movable (code ++ [last]) ↔ code ≠ [] ∧ last ∈ ".,;:".toList := by
  rw [movable_iff, movedMark?_concat]
  split_ifs with both
  · exact iff_of_true ⟨last, rfl⟩ both
  · exact iff_of_false (fun ⟨_, moved⟩ => nomatch moved) both

theorem not_movable_nil : ¬ Movable [] := fun movable => absurd movable.1 (by decide)

end MovedMarks

theorem mem_codeSpanPattern {text code left : Text} {mark : Char} :
    ((code, mark), left) ∈ codeSpanPattern text ↔
      text = backtick :: (code ++ mark :: backtick :: left) ∧ code ≠ [] ∧ backtick ∉ code ∧
        mark ∈ ".,;:".toList := by
  have noBacktick : (∀ char ∈ code, notBacktick char = true) ↔ backtick ∉ code := by
    constructor
    · intro all membership
      exact absurd (all backtick membership) (by decide)
    · intro absent char membership
      have different : char ≠ backtick := fun same => absent (same ▸ membership)
      exact decide_eq_true different
  simp only [codeSpanPattern, Pattern.bind_apply, List.mem_flatMap, Pattern.pure_apply,
    List.mem_singleton, Prod.mk.injEq]
  constructor
  · rintro ⟨⟨_, afterOpen⟩, inOpen, ⟨taken, afterCode⟩, inCode, ⟨found, afterMark⟩, inMark,
      ⟨_, rest⟩, inClose, ⟨rfl, rfl⟩, rfl⟩
    have shapeOpen : text = [backtick] ++ afterOpen := Pattern.mem_literal.mp inOpen
    have ⟨(shapeCode : afterOpen = code ++ afterCode), nonempty, all⟩ :=
      Pattern.mem_lazySome.mp inCode
    have ⟨(shapeMark : afterCode = mark :: afterMark), isMark⟩ := Pattern.mem_oneOf.mp inMark
    have shapeClose : afterMark = [backtick] ++ left := Pattern.mem_literal.mp inClose
    refine ⟨?_, nonempty, noBacktick.mp all, of_decide_eq_true isMark⟩
    rw [shapeOpen, shapeCode, shapeMark, shapeClose]
    rfl
  · rintro ⟨rfl, nonempty, absent, isMark⟩
    exact ⟨⟨(), code ++ mark :: backtick :: left⟩, Pattern.mem_literal.mpr rfl,
      ⟨code, mark :: backtick :: left⟩,
      Pattern.mem_lazySome.mpr ⟨rfl, nonempty, noBacktick.mpr absent⟩,
      ⟨mark, backtick :: left⟩, Pattern.mem_oneOf.mpr ⟨rfl, decide_eq_true isMark⟩,
      ⟨(), left⟩, Pattern.mem_literal.mpr rfl, ⟨rfl, rfl⟩, rfl⟩

theorem moveAll_delimited {first : Text} {behind : List Text} (absentFirst : backtick ∉ first)
    (absent : ∀ part ∈ behind, backtick ∉ part) :
    moveAll (first ++ delimit backtick behind) =
      first ++ delimit backtick (moveMarks behind) := by
  rw [moveAll, splitOn_delimited absentFirst absent]

theorem moveMarks_movable {code : Text} {mark : Char} (nonempty : code ≠ [])
    (isMark : mark ∈ ".,;:".toList) (next : Text) (rest : List Text) :
    moveMarks ((code ++ [mark]) :: next :: rest) = code :: (mark :: next) :: moveMarks rest := by
  rw [moveMarks, movedMark?_concat, if_pos ⟨nonempty, isMark⟩, List.dropLast_concat]

theorem moveMarks_immovable {span : Text} (stays : movedMark? span = none) (rest : List Text) :
    moveMarks (span :: rest) = span :: moveMarks rest := by
  cases rest with
  | nil => rfl
  | cons next rest => rw [moveMarks, stays]

/-- A part that is no span at a backtick stays. -/
theorem moveMarks_of_unmatched {first : Text} {behind : List Text} (absent : backtick ∉ first)
    (unmatched : codeSpanPattern (backtick :: (first ++ delimit backtick behind)) = []) :
    moveMarks (first :: behind) = first :: moveMarks behind := by
  cases behind with
  | nil => rfl
  | cons next rest =>
      apply moveMarks_immovable
      by_contra movable
      obtain ⟨mark, moved⟩ := Option.ne_none_iff_exists'.mp movable
      obtain ⟨code, rfl, nonempty, isMark⟩ := movedMark?_eq_some_iff.mp moved
      have matched : ((code, mark), next ++ delimit backtick rest) ∈ codeSpanPattern
          (backtick :: (code ++ [mark] ++ delimit backtick (next :: rest))) := by
        apply mem_codeSpanPattern.mpr
        refine ⟨by simp, nonempty, ?_, isMark⟩
        exact fun membership => absent (List.mem_append_left _ membership)
      rw [unmatched] at matched
      cases matched

theorem moveAll_of_unmatched {char : Char} {text : Text}
    (unmatched : codeSpanPattern (char :: text) = []) :
    moveAll (char :: text) = char :: moveAll text := by
  obtain ⟨first, behind, rfl, absentFirst, absent⟩ := exists_delimited backtick text
  rw [moveAll_delimited absentFirst absent]
  by_cases isBacktick : char = backtick
  · subst isBacktick
    have whole := moveAll_delimited (List.not_mem_nil : backtick ∉ [])
      (List.forall_mem_cons.mpr ⟨absentFirst, absent⟩)
    rw [moveMarks_of_unmatched absentFirst unmatched] at whole
    exact whole
  · have absentCons : backtick ∉ char :: first := by
      rintro (_ | ⟨_, membership⟩)
      · exact isBacktick rfl
      · exact absentFirst membership
    exact moveAll_delimited absentCons absent

theorem moveAll_codeSpan {code left : Text} {mark : Char} (nonempty : code ≠ [])
    (absentCode : backtick ∉ code) (isMark : mark ∈ ".,;:".toList) :
    moveAll (backtick :: (code ++ mark :: backtick :: left)) =
      backtick :: (code ++ backtick :: mark :: moveAll left) := by
  obtain ⟨next, rest, rfl, absentNext, absent⟩ := exists_delimited backtick left
  have absentSpan : backtick ∉ code ++ [mark] := by
    rw [List.mem_append, List.mem_singleton]
    rintro (inCode | isBacktick)
    · exact absentCode inCode
    · rw [← isBacktick] at isMark
      exact absurd isMark (by decide)
  have whole := moveAll_delimited (List.not_mem_nil : backtick ∉ [])
    (List.forall_mem_cons.mpr ⟨absentSpan, List.forall_mem_cons.mpr ⟨absentNext, absent⟩⟩)
  rw [moveMarks_movable nonempty isMark] at whole
  rw [moveAll_delimited absentNext absent]
  simpa using whole

theorem substitute_codeSpans (text : Text) :
    codeSpanPattern.substitute
      (fun found => "\x60".toList ++ found.1 ++ "\x60".toList ++ [found.2]) text =
        moveAll text := by
  apply Pattern.substitute_eq rfl
  · intro char text unmatched
    exact moveAll_of_unmatched (List.head?_eq_none_iff.mp unmatched)
  · rintro char text ⟨code, mark⟩ left matched
    obtain ⟨shape, nonempty, absentCode, isMark⟩ :=
      mem_codeSpanPattern.mp (List.mem_of_head? matched)
    constructor
    · have sizes := congrArg List.length shape
      simp only [List.length_cons, List.length_append] at sizes
      omega
    · rw [shape, moveAll_codeSpan nonempty absentCode isMark]
      simp

/-- The three substitutions in other words. -/
theorem normalize_eq_moved (joined : Text) :
    normalize joined = Text.closeUp ".,;" (moveAll (Text.strip (Text.collapse joined))) := by
  unfold normalize
  simp only [substitute_spaces, substitute_codeSpans, substitute_spacedMarks]

section Parts

variable {behind : List Text}

/-- What holds of every part still does when the marks are moved. -/
theorem forall_mem_moveMarks {holds : Text → Prop}
    (shortened : ∀ code : Text, ∀ mark ∈ ".,;:".toList, holds (code ++ [mark]) → holds code)
    (extended : ∀ mark ∈ ".,;:".toList, ∀ next : Text, holds next → holds (mark :: next))
    (every : ∀ part ∈ behind, holds part) : ∀ part ∈ moveMarks behind, holds part := by
  fun_induction moveMarks behind with
  | case1 => exact every
  | case2 last => exact every
  | case3 span next rest mark moved inductionHypothesis =>
      obtain ⟨code, rfl, _, isMark⟩ := movedMark?_eq_some_iff.mp moved
      simp only [List.forall_mem_cons, List.dropLast_concat] at every ⊢
      exact ⟨shortened code mark isMark every.1, extended mark isMark next every.2.1,
        inductionHypothesis every.2.2⟩
  | case4 span next rest stays inductionHypothesis =>
      obtain ⟨here, later⟩ := List.forall_mem_cons.mp every
      exact List.forall_mem_cons.mpr ⟨here, inductionHypothesis later⟩

theorem backtick_notMem_moveMarks (absent : ∀ part ∈ behind, backtick ∉ part) :
    ∀ part ∈ moveMarks behind, backtick ∉ part := by
  apply forall_mem_moveMarks _ _ absent
  · exact fun code mark _ absent inCode => absent (List.mem_append_left _ inCode)
  · rintro mark isMark next absent (_ | ⟨_, inNext⟩)
    · exact absurd isMark (by decide)
    · exact absent inNext

theorem moveMarks_eq_nil_iff : moveMarks behind = [] ↔ behind = [] := by
  fun_cases moveMarks behind <;> simp

theorem moveMarks_cons_ne_nil (part : Text) (later : List Text) :
    moveMarks (part :: later) ≠ [] :=
  mt moveMarks_eq_nil_iff.mp (List.cons_ne_nil part later)

theorem movedMark?_collapse (span : Text) :
    movedMark? (Text.collapse span) = movedMark? span := by
  rcases List.eq_nil_or_concat span with rfl | ⟨code, last, rfl⟩
  · rfl
  · rw [List.concat_eq_append]
    by_cases space : Text.isSpace last = true
    · obtain ⟨front, shape⟩ := Text.collapse_concat_space space code
      have notMark : last ∉ ".,;:".toList := by
        intro isMark
        rw [solid_of_mark isMark] at space
        cases space
      have blankNotMark : ' ' ∉ ".,;:".toList := by decide
      rw [shape, movedMark?_concat, movedMark?_concat, if_neg fun both => blankNotMark both.2,
        if_neg fun both => notMark both.2]
    · have nonempty : Text.collapse code ≠ [] ↔ code ≠ [] := by
        constructor
        · rintro nonempty rfl
          exact nonempty rfl
        · exact Text.collapse_ne_nil
      simp only [Text.collapse_concat (Bool.eq_false_iff.mpr space), movedMark?_concat, nonempty]

theorem movable_collapse_iff {span : Text} : Movable (Text.collapse span) ↔ Movable span := by
  rw [movable_iff, movable_iff, movedMark?_collapse]

/-- The marks can be moved before spaces are collapsed. -/
theorem moveMarks_map_collapse (behind : List Text) :
    moveMarks (behind.map Text.collapse) = (moveMarks behind).map Text.collapse := by
  fun_induction moveMarks behind with
  | case1 => rfl
  | case2 last => rfl
  | case3 span next rest mark moved inductionHypothesis =>
      obtain ⟨code, rfl, nonempty, isMark⟩ := movedMark?_eq_some_iff.mp moved
      have solid := solid_of_mark isMark
      simp only [List.map_cons, Text.collapse_concat solid, List.dropLast_concat,
        Text.collapse_solid solid]
      rw [moveMarks_movable (Text.collapse_ne_nil nonempty) isMark, inductionHypothesis]
  | case4 span next rest stays inductionHypothesis =>
      rw [← movedMark?_collapse] at stays
      rw [List.map_cons, moveMarks_immovable stays, inductionHypothesis]
      rfl

/-- The marks can be moved before the end is stripped. -/
theorem moveMarks_trimLast (behind : List Text) :
    moveMarks (Text.trimLast behind) = Text.trimLast (moveMarks behind) := by
  fun_induction moveMarks behind with
  | case1 => rfl
  | case2 last => rfl
  | case3 span next rest mark moved inductionHypothesis =>
      obtain ⟨code, rfl, nonempty, isMark⟩ := movedMark?_eq_some_iff.mp moved
      cases rest with
      | nil =>
          rw [Text.trimLast, Text.trimLast, moveMarks_movable nonempty isMark,
            ← Text.rdropWhile_cons (solid_of_mark isMark), List.dropLast_concat]
          rfl
      | cons after rest =>
          rw [Text.trimLast, Text.trimLast, moveMarks_movable nonempty isMark,
            inductionHypothesis, List.dropLast_concat,
            Text.trimLast_cons (List.cons_ne_nil _ _),
            Text.trimLast_cons (moveMarks_cons_ne_nil after rest)]
  | case4 span next rest stays inductionHypothesis =>
      rw [Text.trimLast, moveMarks_immovable stays, inductionHypothesis,
        Text.trimLast_cons (moveMarks_cons_ne_nil next rest)]

end Parts

theorem backtick_notMem {droppable : Text → Prop} {original text : Text}
    (respaced : Text.Respaced droppable original text) (absent : backtick ∉ original) :
    backtick ∉ text :=
  fun membership => absent (respaced.mem_solid solid_backtick membership)

theorem moveAll_collapse (text : Text) :
    moveAll (Text.collapse text) = Text.collapse (moveAll text) := by
  obtain ⟨first, behind, rfl, absentFirst, absent⟩ := exists_delimited backtick text
  have absentOpening := backtick_notMem (Text.respaced_collapse first) absentFirst
  have absentCollapsed : ∀ part ∈ behind.map Text.collapse, backtick ∉ part := by
    rw [List.forall_mem_map]
    intro part membership
    exact backtick_notMem (Text.respaced_collapse part) (absent part membership)
  rw [Text.collapse_delimited solid_backtick, moveAll_delimited absentOpening absentCollapsed,
    moveAll_delimited absentFirst absent, Text.collapse_delimited solid_backtick,
    moveMarks_map_collapse]

theorem moveAll_strip (text : Text) : moveAll (Text.strip text) = Text.strip (moveAll text) := by
  obtain ⟨first, behind, rfl, absentFirst, absent⟩ := exists_delimited backtick text
  have absentOpening : backtick ∉
      (if behind = [] then Text.strip first else first.dropWhile Text.isSpace) := by
    split_ifs
    · exact backtick_notMem (Text.respaced_strip first) absentFirst
    · exact backtick_notMem (Text.respaced_dropWhile first) absentFirst
  have absentTrimmed : ∀ part ∈ Text.trimLast behind, backtick ∉ part := by
    intro part membership
    obtain ⟨original, inBehind, starts⟩ := Text.prefix_of_mem_trimLast membership
    exact fun inPart => absent original inBehind (starts.subset inPart)
  rw [Text.strip_delimited solid_backtick, moveAll_delimited absentOpening absentTrimmed,
    moveAll_delimited absentFirst absent, Text.strip_delimited solid_backtick,
    moveMarks_trimLast]
  simp only [moveMarks_eq_nil_iff]

/-- The spaces of a text can be tidied up after its marks are moved. -/
theorem normalize_eq (joined : Text) : normalize joined =
    Text.closeUp ".,;" (Text.strip (Text.collapse (moveAll joined))) := by
  rw [normalize_eq_moved, moveAll_strip, moveAll_collapse]

def tidyPart (part : Text) : Text := Text.closeUp ".,;" (Text.collapse part)

/-- The parts behind the backticks with their spaces tidied up. -/
def tidyParts (behind : List Text) : List Text :=
  (Text.trimLast (behind.map Text.collapse)).map (Text.closeUp ".,;")

theorem normalize_delimited {first : Text} {behind : List Text} (absentFirst : backtick ∉ first)
    (absent : ∀ part ∈ behind, backtick ∉ part) : ∃ opening,
    normalize (first ++ delimit backtick behind) =
      opening ++ delimit backtick (tidyParts (moveMarks behind)) ∧
        Text.Respaced (fun _ => True) first opening := by
  have notMark : backtick ∉ ".,;".toList := by decide
  rw [normalize_eq, moveAll_delimited absentFirst absent, Text.collapse_delimited solid_backtick,
    Text.strip_delimited solid_backtick, Text.closeUp_delimited solid_backtick notMark]
  refine ⟨_, rfl, ?_⟩
  split_ifs
  · exact ((Text.respaced_collapse first).trans (Text.respaced_strip _)).trans
      (Text.respaced_closeUp _ _)
  · exact ((Text.respaced_collapse first).trans (Text.respaced_dropWhile _)).trans
      (Text.respaced_closeUp _ _)

theorem backtick_notMem_tidyParts {behind : List Text} (absent : ∀ part ∈ behind, backtick ∉ part) :
    ∀ part ∈ tidyParts behind, backtick ∉ part := by
  intro part membership
  obtain ⟨trimmed, inTrimmed, rfl⟩ := List.mem_map.mp membership
  obtain ⟨collapsed, inCollapsed, starts⟩ := Text.prefix_of_mem_trimLast inTrimmed
  obtain ⟨original, inBehind, rfl⟩ := List.mem_map.mp inCollapsed
  have absentCollapsed : backtick ∉ Text.collapse original :=
    backtick_notMem (Text.respaced_collapse original) (absent original inBehind)
  apply backtick_notMem (Text.respaced_closeUp _ trimmed)
  exact fun inTrimmed => absentCollapsed (starts.subset inTrimmed)

/-- A text whose spaces are tidied up. -/
structure Tidy (text : Text) : Prop where
  singleSpaced : Text.SingleSpaced (Text.spaceOrMark ".,;") text
  trimmed : Text.Trimmed text

theorem singleSpaced_moveAll {refused : Char → Bool} (accepted : refused backtick = false)
    {text : Text} (singleSpaced : Text.SingleSpaced refused text) :
    Text.SingleSpaced refused (moveAll text) := by
  obtain ⟨first, behind, rfl, absentFirst, absent⟩ := exists_delimited backtick text
  rw [moveAll_delimited absentFirst absent]
  have ⟨firstSpaced, behindSpaced⟩ :=
    (Text.singleSpaced_delimited_iff solid_backtick accepted).mp singleSpaced
  refine (Text.singleSpaced_delimited_iff solid_backtick accepted).mpr ⟨firstSpaced, ?_⟩
  apply forall_mem_moveMarks _ _ behindSpaced
  · exact fun code mark _ spanSpaced => spanSpaced.of_append.1
  · exact fun mark isMark next nextSpaced => nextSpaced.cons (solid_of_mark isMark)

theorem tidy_normalize (joined : Text) : Tidy (normalize joined) := by
  constructor
  · rw [normalize_eq_moved]
    apply Text.singleSpaced_closeUp
    apply singleSpaced_moveAll rfl
    obtain ⟨before, behind, shape, _⟩ := Text.exists_strip (Text.collapse joined)
    have whole := Text.singleSpaced_collapse joined
    rw [shape] at whole
    exact whole.of_append.1.of_append.2
  · rw [normalize_eq]
    exact Text.trimmed_closeUp (Text.strip_trimmed _)

/-- In a tidy text only the marks are moved. -/
theorem normalize_of_tidy {text : Text} (tidy : Tidy text) : normalize text = moveAll text := by
  have onlySpaces : ∀ char, Text.spaceOrMark ".,;" char = false → Text.isSpace char = false := by
    intro char accepted
    exact (Bool.or_eq_false_iff.mp accepted).1
  rw [normalize_eq_moved, Text.collapse_of_singleSpaced (tidy.singleSpaced.mono onlySpaces),
    tidy.trimmed]
  exact Text.closeUp_of_singleSpaced (singleSpaced_moveAll rfl tidy.singleSpaced)

end CppCore.Ffi
