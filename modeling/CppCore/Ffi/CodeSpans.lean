import CppCore.Ffi.Nesting
import Mathlib.Algebra.Ring.Parity

/-!
# Code spans

What becomes of the code spans of a comment.  A mark moves from the end of a
span behind it, and a text between two spans can be taken for a span itself.
-/

namespace CppCore.Ffi

/-- A code span and the text up to the next one. -/
structure CodeSpan where
  code : Text
  behind : Text
  deriving DecidableEq

/-- The parts of a text behind each backtick. -/
def spanParts (spans : List CodeSpan) : List Text :=
  spans.flatMap fun span => [span.code, span.behind]

/-- A text that is read as texts and code spans in turn. -/
structure SpannedText where
  opening : Text
  spans : List CodeSpan
  absentOpening : backtick ∉ opening
  absentParts : ∀ part ∈ spanParts spans, backtick ∉ part

def SpannedText.text (spanned : SpannedText) : Text :=
  spanned.opening ++ delimit backtick (spanParts spanned.spans)

/-- A span with at most one mark moved behind it, up to spaces. -/
def KeptSpan (original rendered : CodeSpan) : Prop :=
  ∃ kept moved rest : Text, original.code = kept ++ moved ∧ rendered.behind = moved ++ rest ∧
    (moved = [] ∨ ∃ mark ∈ ".,;:".toList, moved = [mark]) ∧
      Text.Respaced (Text.SpaceOrMarkNext ".,;") kept rendered.code ∧
        Text.Respaced (fun _ => True) original.behind rest

/-- The text has the spans of the original one, each of them kept. -/
def Intact (original : SpannedText) (text : Text) : Prop :=
  ∃ rendered : SpannedText, rendered.text = text ∧
    Text.Respaced (fun _ => True) original.opening rendered.opening ∧
      List.Forall₂ KeptSpan original.spans rendered.spans

/-- No text between two spans is taken for a span. -/
def Separated (spans : List CodeSpan) : Prop :=
  ∀ span ∈ spans.dropLast, Movable span.code ∨ ¬ Movable span.behind

instance (spans : List CodeSpan) : Decidable (Separated spans) :=
  inferInstanceAs (Decidable (∀ span ∈ spans.dropLast, _))

section Parity

theorem length_spanParts (spans : List CodeSpan) :
    (spanParts spans).length = 2 * spans.length := by
  induction spans with
  | nil => rfl
  | cons span spans inductionHypothesis =>
      change (span.code :: span.behind :: spanParts spans).length = _
      simp only [List.length_cons, inductionHypothesis]
      omega

theorem exists_spanParts {behind : List Text} (even : Even behind.length) :
    ∃ spans, spanParts spans = behind := by
  induction behind using List.twoStepInduction with
  | nil => exact ⟨[], rfl⟩
  | singleton part => exact absurd even Nat.not_even_one
  | cons_cons code behind later inductionHypothesis =>
      have evenLater : Even later.length := by
        rw [List.length_cons, List.length_cons, Nat.even_add_one, Nat.even_add_one] at even
        exact not_not.mp even
      obtain ⟨spans, shape⟩ := inductionHypothesis evenLater
      exact ⟨⟨code, behind⟩ :: spans, congrArg (fun parts => code :: behind :: parts) shape⟩

theorem count_delimited {first : Text} {behind : List Text} (absentFirst : backtick ∉ first)
    (absent : ∀ part ∈ behind, backtick ∉ part) :
    (first ++ delimit backtick behind).count backtick = behind.length := by
  induction behind generalizing first with
  | nil => simpa using List.count_eq_zero.mpr absentFirst
  | cons part behind inductionHypothesis =>
      have ⟨absentHere, absentLater⟩ := List.forall_mem_cons.mp absent
      rw [delimit_cons, List.count_append, List.count_eq_zero.mpr absentFirst,
        List.count_cons_self, inductionHypothesis absentHere absentLater]
      simp

/-- The texts with an even number of backticks are those that are read so. -/
theorem exists_spannedText_iff {text : Text} :
    (∃ spanned : SpannedText, spanned.text = text) ↔ Even (text.count backtick) := by
  constructor
  · rintro ⟨spanned, rfl⟩
    rw [SpannedText.text, count_delimited spanned.absentOpening spanned.absentParts,
      length_spanParts]
    exact even_two_mul _
  · intro even
    obtain ⟨first, behind, rfl, absentFirst, absent⟩ := exists_delimited backtick text
    rw [count_delimited absentFirst absent] at even
    obtain ⟨spans, rfl⟩ := exists_spanParts even
    exact ⟨⟨first, spans, absentFirst, absent⟩, rfl⟩

end Parity

section Rendering

/-- A part that is the last one is stripped, too. -/
def tidyEnd (later : List Text) (part : Text) : Text :=
  if later = [] then Text.closeUp ".,;" ((Text.collapse part).rdropWhile Text.isSpace)
  else tidyPart part

theorem tidyParts_cons_cons (code behind : Text) (later : List Text) :
    tidyParts (code :: behind :: later) =
      tidyPart code :: tidyEnd later behind :: tidyParts later := by
  cases later with
  | nil => rfl
  | cons part later => rfl

theorem respaced_tidyPart (part : Text) :
    Text.Respaced (Text.SpaceOrMarkNext ".,;") part (tidyPart part) :=
  Text.respaced_closeUp_collapse _ _

theorem respaced_tidyEnd (later : List Text) (part : Text) :
    Text.Respaced (fun _ => True) part (tidyEnd later part) := by
  unfold tidyEnd
  split_ifs
  · exact ((Text.respaced_collapse part).trans (Text.respaced_rdropWhile _)).trans
      (Text.respaced_closeUp _ _)
  · exact (respaced_tidyPart part).mono fun _ _ => trivial

theorem tidyPart_mark {mark : Char} (isMark : mark ∈ ".,;:".toList) (part : Text) :
    tidyPart (mark :: part) = mark :: tidyPart part := by
  have solid := solid_of_mark isMark
  rw [tidyPart, Text.collapse_solid solid, Text.closeUp_solid solid]
  rfl

theorem tidyEnd_mark {mark : Char} (isMark : mark ∈ ".,;:".toList) (later : List Text)
    (part : Text) : tidyEnd later (mark :: part) = mark :: tidyEnd later part := by
  have solid := solid_of_mark isMark
  unfold tidyEnd
  split_ifs
  · rw [Text.collapse_solid solid, Text.rdropWhile_cons solid, Text.closeUp_solid solid]
  · exact tidyPart_mark isMark part

/-- A span that stands where one is looked for. -/
theorem keptSpan_unmoved (span : CodeSpan) (later : List Text) :
    KeptSpan span ⟨tidyPart span.code, tidyEnd later span.behind⟩ :=
  ⟨span.code, [], tidyEnd later span.behind, (List.append_nil _).symm, rfl, .inl rfl,
    respaced_tidyPart _, respaced_tidyEnd _ _⟩

theorem keptSpan_moved {mark : Char} (isMark : mark ∈ ".,;:".toList) (code behind : Text)
    (later : List Text) :
    KeptSpan ⟨code ++ [mark], behind⟩ ⟨tidyPart code, tidyEnd later (mark :: behind)⟩ :=
  ⟨code, [mark], tidyEnd later behind, rfl, tidyEnd_mark isMark _ _, .inr ⟨mark, isMark, rfl⟩,
    respaced_tidyPart _, respaced_tidyEnd _ _⟩

/-- A span does not get another mark in front of it. -/
theorem not_keptSpan_of_mark {mark : Char} (isMark : mark ∈ ".,;:".toList)
    {original rendered : CodeSpan} (marked : rendered.code = tidyPart (mark :: original.code)) :
    ¬ KeptSpan original rendered := by
  rintro ⟨kept, moved, rest, shape, _, _, respaced, _⟩
  rw [marked] at respaced
  have shorter : (kept.filter (!Text.isSpace ·)).length ≤
      (original.code.filter (!Text.isSpace ·)).length := by
    rw [shape, List.filter_append, List.length_append]
    omega
  have longer := congrArg List.length respaced.solids
  rw [tidyPart_mark isMark, List.filter_cons_of_pos (by simp [solid_of_mark isMark]),
    List.length_cons, (respaced_tidyPart original.code).solids] at longer
  omega

/-- The spans of a rendered text, where the parts behind its backticks are given. -/
def KeptIn (spans : List CodeSpan) (behind : List Text) : Prop :=
  ∃ rendered, spanParts rendered = tidyParts behind ∧ List.Forall₂ KeptSpan spans rendered

theorem keptIn_cons_iff {span : CodeSpan} {spans : List CodeSpan} {code behind : Text}
    {later : List Text} (kept : KeptSpan span ⟨tidyPart code, tidyEnd later behind⟩) :
    KeptIn (span :: spans) (code :: behind :: later) ↔ KeptIn spans later := by
  unfold KeptIn
  rw [tidyParts_cons_cons]
  constructor
  · rintro ⟨rendered, shape, every⟩
    obtain ⟨first, renderedLater, _, keptLater, rfl⟩ := List.forall₂_cons_left_iff.mp every
    change first.code :: first.behind :: spanParts renderedLater = _ at shape
    exact ⟨renderedLater, (List.cons.inj (List.cons.inj shape).2).2, keptLater⟩
  · rintro ⟨rendered, shape, keptLater⟩
    exact ⟨⟨tidyPart code, tidyEnd later behind⟩ :: rendered,
      congrArg (fun parts => tidyPart code :: tidyEnd later behind :: parts) shape,
      .cons kept keptLater⟩

/-- The mark of a text that is taken for a span is put in front of the next span. -/
theorem not_keptIn_of_taken {first second : CodeSpan} {spans : List CodeSpan} {code behind : Text}
    (taken : Movable behind) : ¬ KeptIn (first :: second :: spans)
      (code :: moveMarks (behind :: spanParts (second :: spans))) := by
  obtain ⟨kept, mark, rfl, nonempty, isMark⟩ := movable_iff_exists.mp taken
  obtain ⟨next, later, shape⟩ :=
    List.exists_cons_of_ne_nil (moveMarks_cons_ne_nil second.behind (spanParts spans))
  have whole : moveMarks ((kept ++ [mark]) :: spanParts (second :: spans)) =
      kept :: (mark :: second.code) :: next :: later := by
    rw [← shape]
    exact moveMarks_movable nonempty isMark _ _
  rw [whole]
  rintro ⟨rendered, parts, every⟩
  obtain ⟨renderedFirst, renderedLater, _, everyLater, rfl⟩ :=
    List.forall₂_cons_left_iff.mp every
  obtain ⟨renderedSecond, renderedRest, keptSecond, _, rfl⟩ :=
    List.forall₂_cons_left_iff.mp everyLater
  rw [tidyParts_cons_cons, tidyParts_cons_cons] at parts
  have third := (List.cons.inj (List.cons.inj parts).2).2
  exact not_keptSpan_of_mark isMark (List.cons.inj third).1 keptSecond

theorem separated_cons_iff {first second : CodeSpan} {rest : List CodeSpan} :
    Separated (first :: second :: rest) ↔
      (Movable first.code ∨ ¬ Movable first.behind) ∧ Separated (second :: rest) :=
  List.forall_mem_cons

theorem keptIn_moveMarks_iff (spans : List CodeSpan) :
    KeptIn spans (moveMarks (spanParts spans)) ↔ Separated spans := by
  induction spans with
  | nil => exact iff_of_true ⟨[], rfl, .nil⟩ (List.forall_mem_nil _)
  | cons span spans inductionHypothesis =>
      obtain ⟨code, behind⟩ := span
      change KeptIn _ (moveMarks (code :: behind :: spanParts spans)) ↔ _
      by_cases movable : Movable code
      · obtain ⟨kept, mark, rfl, nonempty, isMark⟩ := movable_iff_exists.mp movable
        rw [moveMarks_movable nonempty isMark, keptIn_cons_iff (keptSpan_moved isMark _ _ _),
          inductionHypothesis]
        cases spans with
        | nil => rfl
        | cons second rest => exact (separated_cons_iff.trans (and_iff_right (.inl movable))).symm
      · rw [moveMarks_immovable (not_movable_iff.mp movable)]
        cases spans with
        | nil =>
            have kept : KeptIn [⟨code, behind⟩] [code, behind] :=
              (keptIn_cons_iff (keptSpan_unmoved _ _)).mpr ⟨[], rfl, .nil⟩
            exact iff_of_true kept (List.forall_mem_nil _)
        | cons second rest =>
            by_cases taken : Movable behind
            · refine iff_of_false (not_keptIn_of_taken taken) fun separated => ?_
              exact (separated_cons_iff.mp separated).1.elim movable fun stays => stays taken
            · rw [moveMarks_immovable (not_movable_iff.mp taken),
                keptIn_cons_iff (keptSpan_unmoved ⟨code, behind⟩ _), inductionHypothesis]
              exact (separated_cons_iff.trans (and_iff_right (.inr taken))).symm

theorem intact_normalize_iff {comment : SpannedText} :
    Intact comment (normalize comment.text) ↔ Separated comment.spans := by
  obtain ⟨opening, shape, respaced⟩ :=
    normalize_delimited comment.absentOpening comment.absentParts
  have absentOpening := backtick_notMem respaced comment.absentOpening
  have absentParts := backtick_notMem_tidyParts (backtick_notMem_moveMarks comment.absentParts)
  rw [SpannedText.text, shape, ← keptIn_moveMarks_iff]
  constructor
  · rintro ⟨rendered, same, _, every⟩
    have parts := delimited_injective rendered.absentOpening rendered.absentParts
      absentOpening absentParts same
    exact ⟨rendered.spans, parts.2, every⟩
  · rintro ⟨spans, parts, every⟩
    exact ⟨⟨opening, spans, absentOpening, parts ▸ absentParts⟩,
      congrArg (fun behind => opening ++ delimit backtick behind) parts, respaced, every⟩

end Rendering

/-- When a node keeps the code spans of the text that it holds. -/
theorem textFromComment_intact_iff {node : Dict} (container : IsContainer node)
    {comment : SpannedText} (holds : joinedText node = .ok comment.text) :
    (∃ text, textFromComment node = .ok text ∧ Intact comment text) ↔
      Separated comment.spans := by
  have rendered : textFromComment node = .ok (normalize comment.text) := by
    rw [textFromComment_eq_normalize container, holds]
    rfl
  rw [← intact_normalize_iff]
  constructor
  · rintro ⟨text, same, intact⟩
    rw [rendered] at same
    cases same
    exact intact
  · exact fun intact => ⟨_, rendered, intact⟩

def versionComment : SpannedText :=
  ⟨"Fills ", [⟨"out", ", see "⟩, ⟨"getVersion().", ""⟩], by decide, by decide⟩

theorem textFromComment_intact_versionComment : ∃ text,
    textFromComment (paragraph versionComment.text) = .ok text ∧ Intact versionComment text :=
  (textFromComment_intact_iff (isContainer_paragraph _) (joinedText_paragraph _)).mpr (by decide)

/-- The text between the two spans is taken for a span: it is rendered with the second mark in
front of `last`. -/
def rangeComment : SpannedText :=
  ⟨"", [⟨"first", ".."⟩, ⟨"last", ""⟩], by decide, by decide⟩

theorem not_textFromComment_intact : ¬ ∀ (node : Dict) (comment : SpannedText),
    IsContainer node → joinedText node = .ok comment.text →
      (∀ span ∈ comment.spans, span.code ≠ []) →
        ∃ text, textFromComment node = .ok text ∧ Intact comment text := by
  intro everyKept
  have ⟨text, same, intact⟩ := everyKept (paragraph rangeComment.text) rangeComment
    (isContainer_paragraph _) (joinedText_paragraph _) (by decide)
  rw [textFromComment_eq_normalize (isContainer_paragraph _), joinedText_paragraph] at same
  cases same
  exact absurd (intact_normalize_iff.mp intact) (by decide)

end CppCore.Ffi
