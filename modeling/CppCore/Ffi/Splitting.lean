import CppCore.Ffi.Types
import CppCore.Library.Scanner

/-!
# Splitting at the top level

`split_top_level` cuts a text at the commas outside of all brackets, and keeps
the stripped segments that are not empty.
-/

namespace CppCore.Ffi

def topLevel : Scanner Depths Char where
  next := Depths.after
  cuts := fun depths char => char = ',' ∧ depths = .zero

/-- All characters but the brackets and the comma are passed over. -/
theorem neutral_of_plain {char : Char} (plain : char ∉ "()[]<>,".toList) (depths : Depths) :
    topLevel.next depths char = depths ∧ topLevel.cuts depths char = false := by
  have listed : "()[]<>,".toList = ['(', ')', '[', ']', '<', '>', ','] := by decide
  simp only [listed, List.mem_cons, List.not_mem_nil, or_false, not_or] at plain
  constructor
  · simp only [topLevel, Depths.after, plain, if_false]
  · simp only [topLevel, plain, false_and, decide_false]

theorem neutral_of_space {char : Char} (space : Text.isSpace char = true) (depths : Depths) :
    topLevel.next depths char = depths ∧ topLevel.cuts depths char = false := by
  apply neutral_of_plain
  intro cutting
  have solid : ("()[]<>,".toList.all fun char => !Text.isSpace char) = true := rfl
  have notSpace := List.all_eq_true.mp solid char cutting
  rw [space] at notSpace
  cases notSpace

theorem splitLoop_eq (depths : Depths) (current text : Text) :
    splitLoop depths current text = (topLevel.segments depths current text).flatMap nonemptyPart := by
  induction text generalizing depths current with
  | nil => rw [splitLoop, Scanner.segments, List.flatMap_singleton]
  | cons char text inductionHypothesis =>
      by_cases cut : char = ',' ∧ depths.after char = .zero
      · have cutHere : topLevel.cuts (topLevel.next depths char) char = true := decide_eq_true cut
        rw [splitLoop, if_pos cut, Scanner.segments_cut cutHere, List.flatMap_cons,
          inductionHypothesis]
        rfl
      · have uncutHere : ¬ topLevel.cuts (topLevel.next depths char) char = true := by
          intro cutHere
          exact cut (of_decide_eq_true cutHere)
        rw [splitLoop, if_neg cut, Scanner.segments, if_neg uncutHere, inductionHypothesis]
        rfl

theorem splitTopLevel_eq (text : Text) :
    splitTopLevel text = (topLevel.segments .zero [] text).flatMap nonemptyPart :=
  splitLoop_eq .zero [] text

theorem mem_nonemptyPart {part current : Text} :
    part ∈ nonemptyPart current ↔ part = Text.strip current ∧ part ≠ [] := by
  unfold nonemptyPart
  by_cases empty : Text.strip current = []
  · rw [if_pos empty, empty]
    simp
  · rw [if_neg empty, List.mem_singleton]
    constructor
    · rintro rfl
      exact ⟨rfl, empty⟩
    · exact And.left

theorem splitLoop_eq_of_uncut {text : Text} (uncut : topLevel.Uncut .zero text) (current : Text) :
    splitLoop .zero current text = nonemptyPart (current ++ text) := by
  rw [splitLoop_eq, Scanner.segments_of_uncut uncut, List.flatMap_singleton]

/-- A part that is left as it is when it is split on its own. -/
structure Standalone (part : Text) : Prop where
  nonempty : part ≠ []
  trimmed : Text.Trimmed part
  uncut : topLevel.Uncut .zero part

theorem Standalone.nonemptyPart {part : Text} (standalone : Standalone part) {spaces : Text}
    (allSpaces : ∀ char ∈ spaces, Text.isSpace char = true) :
    nonemptyPart (spaces ++ part) = [part] := by
  have stripped : Text.strip (spaces ++ part) = part :=
    (Text.strip_append_of_space allSpaces part).trans standalone.trimmed
  rw [Ffi.nonemptyPart, stripped, if_neg standalone.nonempty]

/-- Parts that stand alone are found again in their list, when only the last one leaves a bracket
open. -/
theorem splitLoop_intercalate {parts : List Text} (standalone : ∀ part ∈ parts, Standalone part)
    (closed : ∀ part ∈ parts.dropLast, topLevel.run .zero part = .zero) {spaces : Text}
    (allSpaces : ∀ char ∈ spaces, Text.isSpace char = true) :
    splitLoop .zero spaces (List.intercalate ", " parts) = parts := by
  induction parts generalizing spaces with
  | nil =>
      have stripped : Text.strip spaces = [] := by
        have all := Text.strip_append_of_space allSpaces []
        rwa [List.append_nil] at all
      rw [List.intercalate_nil, splitLoop, nonemptyPart, stripped]
      rfl
  | cons part parts inductionHypothesis =>
      have ⟨here, later⟩ := List.forall_mem_cons.mp standalone
      have found := here.nonemptyPart allSpaces
      cases parts with
      | nil => rw [List.intercalate_singleton, splitLoop_eq_of_uncut here.uncut, found]
      | cons next parts =>
          rw [List.dropLast_cons_of_ne_nil (List.cons_ne_nil _ _)] at closed
          have ⟨closedHere, closedLater⟩ := List.forall_mem_cons.mp closed
          have separated : ", ".toList ++ List.intercalate ", ".toList (next :: parts) =
              ',' :: (' ' :: List.intercalate ", ".toList (next :: parts)) := rfl
          have space : ∀ char ∈ [' '], Text.isSpace char = true := List.forall_mem_singleton.mpr rfl
          have split := inductionHypothesis later closedLater space
          rw [splitLoop_eq] at split ⊢
          rw [List.intercalate_cons_cons, List.append_assoc, Scanner.segments_append here.uncut,
            closedHere, separated, Scanner.segments_cut rfl, List.flatMap_cons, found]
          exact congrArg (part :: ·) split

end CppCore.Ffi
