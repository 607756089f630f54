import CppCore.Ffi.Splitting

/-!
# Splitting is lossless

`split_top_level` cuts every text, whether its brackets match or not, at the
commas where all depths are zero.  At each of them it starts anew, so that its
parts, alone or joined again, are split in the same way.
-/

namespace CppCore.Ffi

/-- The depths behind a text. -/
def Depths.ofText (text : Text) : Depths := text.foldl Depths.after .zero

/-- The text is joined from the segments, and the commas between them are those at which all depths
are zero. -/
structure CutAtZero (text : Text) (segments : List Text) : Prop where
  nonempty : segments ≠ []
  joined : List.intercalate "," segments = text
  commas : ∀ before behind : Text, text = before ++ ',' :: behind →
    (Depths.ofText before = .zero ↔ ∃ left right : List Text, segments = left ++ right ∧
      (left ≠ [] ∧ List.intercalate "," left = before) ∧
      right ≠ [] ∧ List.intercalate "," right = behind)

theorem comma_of_cut {depths : Depths} {char : Char} (cut : topLevel.cuts depths char = true) :
    char = ',' :=
  (of_decide_eq_true cut).1

/-- A comma leaves the depths as they are. -/
theorem cut_at_comma_iff {depths : Depths} :
    topLevel.cuts (topLevel.next depths ',') ',' = true ↔ depths = .zero :=
  decide_eq_true_iff.trans (and_iff_right rfl)

theorem cutAtZero_segments (text : Text) : CutAtZero text (topLevel.segments .zero [] text) where
  nonempty := Scanner.segments_ne_nil _ _
  joined := Scanner.intercalate_segments (fun _ _ => comma_of_cut) [] text
  commas := by
    rintro before behind rfl
    constructor
    · intro atZero
      have cut := cut_at_comma_iff.mpr atZero
      refine ⟨topLevel.segments .zero [] before, _, Scanner.segments_append_cut cut [] behind,
        ⟨Scanner.segments_ne_nil _ _, ?_⟩, Scanner.segments_ne_nil _ _, ?_⟩
      · exact Scanner.intercalate_segments (fun _ _ => comma_of_cut) [] before
      · exact Scanner.intercalate_segments (fun _ _ => comma_of_cut) [] behind
    · rintro ⟨left, right, parted, ⟨leftNonempty, rfl⟩, rightNonempty, _⟩
      obtain ⟨first, item, second, _, cut, rfl, _⟩ :=
        Scanner.exists_cut parted leftNonempty rightNonempty
      have joined : List.intercalate ",".toList (topLevel.segments .zero [] first) = first :=
        Scanner.intercalate_segments (fun _ _ => comma_of_cut) [] first
      have isComma := comma_of_cut cut
      subst isComma
      rw [joined]
      exact cut_at_comma_iff.mp cut

theorem flatMap_nonemptyPart (segments : List Text) :
    segments.flatMap nonemptyPart = (segments.map Text.strip).filter (· ≠ []) := by
  induction segments with
  | nil => rfl
  | cons segment segments inductionHypothesis =>
      rw [List.flatMap_cons, inductionHypothesis, List.map_cons, List.filter_cons, nonemptyPart]
      by_cases empty : Text.strip segment = [] <;> simp [empty]

/-- The splitter passes over a segment as it does over the segment without the spaces around it. -/
theorem passes_strip {segment : Text} (uncut : topLevel.Uncut .zero segment) :
    topLevel.Uncut .zero (Text.strip segment) ∧
      topLevel.run .zero (Text.strip segment) = topLevel.run .zero segment := by
  obtain ⟨before, behind, shape, allBefore, allBehind⟩ := Text.exists_strip segment
  have passes : ∀ {spaces : Text}, (∀ char ∈ spaces, Text.isSpace char = true) → ∀ depths,
      topLevel.run depths spaces = depths := by
    intro spaces allSpaces depths
    exact (Scanner.run_and_uncut_of_neutral fun char membership =>
      neutral_of_space (allSpaces char membership) depths).1
  have whole := uncut
  rw [shape, Scanner.uncut_append, Scanner.uncut_append, passes allBefore] at whole
  refine ⟨whole.1.2, ?_⟩
  calc topLevel.run .zero (Text.strip segment)
      = topLevel.run .zero (before ++ Text.strip segment ++ behind) := by
        rw [Scanner.run_append, Scanner.run_append, passes allBefore, passes allBehind]
    _ = topLevel.run .zero segment := by rw [← shape]

/-- At every cut the segment so far was read from depth zero without a cut. -/
def FromZero (depths : Depths) (current : Text) : Prop :=
  topLevel.Uncut .zero current ∧ topLevel.run .zero current = depths

theorem FromZero.step {depths : Depths} {current : Text} {char : Char}
    (fromZero : FromZero depths current)
    (uncut : topLevel.cuts (topLevel.next depths char) char = false) :
    FromZero (topLevel.next depths char) (current ++ [char]) := by
  obtain ⟨before, reached⟩ := fromZero
  constructor
  · rw [Scanner.uncut_append, reached]
    exact ⟨before, uncut, trivial⟩
  · rw [Scanner.run_append, reached]
    rfl

theorem fromZero_segments {text : Text} :
    ∀ segment ∈ topLevel.segments .zero [] text, topLevel.Uncut .zero segment := by
  refine Scanner.forall_mem_segments (fun depths current _ => FromZero depths current) ?_ ?_ ?_
    ⟨trivial, rfl⟩
  · exact fun fromZero => fromZero.1
  · intro depths current char rest fromZero cut
    have ⟨_, atZero⟩ : char = ',' ∧ topLevel.next depths char = .zero := of_decide_eq_true cut
    rw [atZero]
    exact ⟨fromZero.1, trivial, rfl⟩
  · exact fun fromZero uncut => fromZero.step uncut

/-- Only the last segment can leave a bracket open. -/
theorem closed_segments {text : Text} :
    ∀ segment ∈ (topLevel.segments .zero [] text).dropLast,
      topLevel.run .zero segment = .zero := by
  refine Scanner.forall_mem_dropLast_segments
    (fun depths current => topLevel.run .zero current = depths) ?_ ?_ rfl
  · intro depths current char reached cut
    have isComma := comma_of_cut cut
    subst isComma
    have atZero := cut_at_comma_iff.mp cut
    exact ⟨reached.trans atZero, atZero.symm⟩
  · intro depths current char reached
    rw [Scanner.run_append, reached]
    rfl

theorem standalone_of_mem_splitTopLevel {text part : Text}
    (membership : part ∈ splitTopLevel text) : Standalone part := by
  rw [splitTopLevel_eq] at membership
  obtain ⟨segment, inSegments, inPart⟩ := List.mem_flatMap.mp membership
  obtain ⟨rfl, nonempty⟩ := mem_nonemptyPart.mp inPart
  have uncut := fromZero_segments segment inSegments
  exact ⟨nonempty, Text.strip_trimmed segment, (passes_strip uncut).1⟩

theorem dropLast_flatMap_nonemptyPart {segments : List Text} {part : Text}
    (membership : part ∈ (segments.flatMap nonemptyPart).dropLast) :
    ∃ segment ∈ segments.dropLast, part ∈ nonemptyPart segment := by
  rcases List.eq_nil_or_concat segments with rfl | ⟨before, last, rfl⟩
  · cases membership
  · rw [List.concat_eq_append] at membership ⊢
    rw [List.flatMap_append, List.flatMap_singleton] at membership
    rw [List.dropLast_concat]
    have inBefore : part ∈ before.flatMap nonemptyPart := by
      rw [nonemptyPart] at membership
      split_ifs at membership
      · rw [List.append_nil] at membership
        exact List.mem_of_mem_dropLast membership
      · rwa [List.dropLast_concat] at membership
    exact List.mem_flatMap.mp inBefore

theorem closed_of_mem_dropLast {text part : Text}
    (membership : part ∈ (splitTopLevel text).dropLast) :
    topLevel.run .zero part = .zero := by
  rw [splitTopLevel_eq] at membership
  obtain ⟨segment, inSegments, inPart⟩ := dropLast_flatMap_nonemptyPart membership
  have uncut := fromZero_segments segment (List.mem_of_mem_dropLast inSegments)
  rw [(mem_nonemptyPart.mp inPart).1, (passes_strip uncut).2]
  exact closed_segments segment inSegments

/-- Every text is cut at the commas at depth zero and nowhere else, and what comes out is not split
any further, neither part by part nor joined again. -/
theorem splitTopLevel_lossless (text : Text) :
    (∃ segments, CutAtZero text segments ∧
      splitTopLevel text = (segments.map Text.strip).filter (· ≠ [])) ∧
    (∀ part ∈ splitTopLevel text, splitTopLevel part = [part]) ∧
    splitTopLevel (List.intercalate ", " (splitTopLevel text)) = splitTopLevel text := by
  have noSpaces : ∀ char ∈ [], Text.isSpace char = true := List.forall_mem_nil _
  refine ⟨⟨_, cutAtZero_segments text, ?_⟩, ?_, ?_⟩
  · rw [splitTopLevel_eq, flatMap_nonemptyPart]
  · intro part membership
    have standalone := standalone_of_mem_splitTopLevel membership
    rw [splitTopLevel, splitLoop_eq_of_uncut standalone.uncut]
    exact standalone.nonemptyPart noSpaces
  · exact splitLoop_intercalate (fun _ => standalone_of_mem_splitTopLevel)
      (fun _ => closed_of_mem_dropLast) noSpaces

/-- Brackets that match nothing, and one that stays open. -/
example : splitTopLevel "a), b<c, d>,, [e, f" =
    ["a)".toList, "b<c, d>".toList, "[e, f".toList] := by
  decide

end CppCore.Ffi
