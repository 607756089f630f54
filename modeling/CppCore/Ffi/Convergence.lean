import CppCore.Ffi.Conservation
import CppCore.Ffi.CodeSpans
import CppCore.Library.Convergence

/-!
# Comments come to rest

Each node around a comment normalises its text again.  A mark that is moved has
one code span less in front of it to leave, so that the text of a comment that is
nested deeply enough does not change any more.
-/

namespace CppCore.Ffi

open Dict

def isMark (char : Char) : Bool := decide (char ∈ ".,;:".toList)

theorem not_isMark_backtick : isMark backtick = false := rfl

def Selection.marks : Selection where
  selects := isMark
  noSpace char space := by
    rw [isMark, decide_eq_false_iff_not]
    intro isMark
    rw [solid_of_mark isMark] at space
    cases space
  apart isSelected := by
    rw [not_isMark_backtick] at isSelected
    cases isSelected

def Selection.backticks : Selection where
  selects char := char == backtick
  noSpace char space := by
    rw [beq_eq_false_iff_ne]
    rintro rfl
    rw [solid_backtick] at space
    cases space
  apart _ mark isMark := by
    rw [beq_eq_false_iff_ne]
    rintro rfl
    exact absurd isMark (by decide)

/-- How often the marks of the parts can move. -/
def pending : List Text → Nat
  | [] => 0
  | part :: behind => part.countP isMark * behind.length + pending behind

def pendingIn (text : Text) : Nat := pending (text.splitOn backtick).tail

section Parts

variable {behind : List Text}

@[simp]
theorem length_moveMarks (behind : List Text) : (moveMarks behind).length = behind.length := by
  fun_induction moveMarks behind with
  | case1 => rfl
  | case2 last => rfl
  | case3 span next rest mark moved inductionHypothesis =>
      simp only [List.length_cons, inductionHypothesis]
  | case4 span next rest stays inductionHypothesis =>
      rw [List.length_cons, inductionHypothesis]
      rfl

theorem pending_moveMarks (behind : List Text) :
    moveMarks behind = behind ∨ pending (moveMarks behind) < pending behind := by
  fun_induction moveMarks behind with
  | case1 => exact .inl rfl
  | case2 last => exact .inl rfl
  | case3 span next rest mark moved inductionHypothesis =>
      right
      obtain ⟨code, rfl, _, inMarks⟩ := movedMark?_eq_some_iff.mp moved
      have marked : isMark mark = true := decide_eq_true inMarks
      have later : pending (moveMarks rest) ≤ pending rest := by
        rcases inductionHypothesis with same | lower
        · rw [same]
        · exact lower.le
      simp only [pending, List.dropLast_concat, List.length_cons, length_moveMarks,
        List.countP_append, List.countP_cons, List.countP_nil, marked]
      simp only [if_true, Nat.zero_add, Nat.succ_mul]
      omega
  | case4 span next rest stays inductionHypothesis =>
      rcases inductionHypothesis with same | lower
      · exact .inl (congrArg (span :: ·) same)
      · right
        rw [pending, pending, length_moveMarks]
        omega

theorem pending_le (behind : List Text) :
    pending behind ≤ (delimit backtick behind).countP isMark * behind.length := by
  induction behind with
  | nil => exact Nat.le_refl 0
  | cons part behind inductionHypothesis =>
      rw [delimit_cons, List.countP_cons_of_neg (by simp [not_isMark_backtick]),
        List.countP_append, pending, List.length_cons]
      calc part.countP isMark * behind.length + pending behind
          ≤ part.countP isMark * behind.length +
              (delimit backtick behind).countP isMark * behind.length :=
            Nat.add_le_add_left inductionHypothesis _
        _ = (part.countP isMark + (delimit backtick behind).countP isMark) * behind.length :=
            (Nat.add_mul _ _ _).symm
        _ ≤ _ := Nat.mul_le_mul_left _ (Nat.le_succ _)

end Parts

section Texts

theorem pendingIn_moveAll (text : Text) :
    moveAll text = text ∨ pendingIn (moveAll text) < pendingIn text := by
  obtain ⟨first, behind, rfl, absentFirst, absent⟩ := exists_delimited backtick text
  rw [pendingIn, pendingIn, moveAll_delimited absentFirst absent,
    splitOn_delimited absentFirst absent,
    splitOn_delimited absentFirst (backtick_notMem_moveMarks absent)]
  rcases pending_moveMarks behind with same | lower
  · exact .inl (congrArg (fun behind => first ++ delimit backtick behind) same)
  · exact .inr lower

theorem pendingIn_le (text : Text) :
    pendingIn text ≤ text.countP isMark * text.count backtick := by
  obtain ⟨first, behind, rfl, absentFirst, absent⟩ := exists_delimited backtick text
  rw [pendingIn, splitOn_delimited absentFirst absent, count_delimited absentFirst absent,
    List.countP_append]
  exact (pending_le behind).trans (Nat.mul_le_mul_right _ (Nat.le_add_left _ _))

theorem tidy_progress (text : Text) (tidy : Tidy text) :
    normalize text = text ∨ pendingIn (normalize text) < pendingIn text := by
  rw [normalize_of_tidy tidy]
  exact pendingIn_moveAll text

theorem countP_isMark_normalize (joined : Text) :
    (normalize joined).countP isMark = joined.countP isMark := by
  have same := congrArg List.length (Selection.marks.of_normalize joined)
  simpa only [Selection.of, Selection.marks, ← List.countP_eq_length_filter] using same

theorem count_backtick_normalize (joined : Text) :
    (normalize joined).count backtick = joined.count backtick := by
  have same := congrArg List.length (Selection.backticks.of_normalize joined)
  simp only [Selection.of, Selection.backticks, ← List.countP_eq_length_filter] at same
  exact same

/-- After how many normalisations a text is at rest. -/
def restingDepth (text : Text) : Nat := text.countP isMark * text.count backtick + 1

/-- What a text is normalised to in the end. -/
def restingText (text : Text) : Text := normalize^[restingDepth text] text

theorem pendingIn_normalize_le (text : Text) :
    pendingIn (normalize text) ≤ text.countP isMark * text.count backtick := by
  rw [← countP_isMark_normalize, ← count_backtick_normalize]
  exact pendingIn_le _

theorem isFixedPt_restingText (text : Text) :
    Function.IsFixedPt normalize (restingText text) :=
  Convergence.isFixedPt_iterate (fun state _ => tidy_normalize state) tidy_progress
    (tidy_normalize text) (pendingIn_normalize_le text)

theorem iterate_normalize {text : Text} {depth : Nat} (deep : restingDepth text ≤ depth) :
    normalize^[depth] text = restingText text := by
  obtain ⟨more, rfl⟩ := Nat.exists_eq_add_of_le' deep
  exact Convergence.iterate_eq_of_le (fun state _ => tidy_normalize state) tidy_progress
    (tidy_normalize text) (pendingIn_normalize_le text) (Nat.le_add_left _ more)

theorem of_iterate_normalize (selection : Selection) (depth : Nat) (text : Text) :
    selection.of (normalize^[depth] text) = selection.of text := by
  induction depth with
  | zero => rfl
  | succ depth inductionHypothesis =>
      rw [Function.iterate_succ_apply', selection.of_normalize, inductionHypothesis]

theorem tidy_restingText (text : Text) : Tidy (restingText text) := by
  rw [← (isFixedPt_restingText text).eq]
  exact tidy_normalize _

/-- At rest no span ends in a mark. -/
theorem not_movable_restingText (text : Text) :
    ∀ span ∈ ((restingText text).splitOn backtick).tail.dropLast, ¬ Movable span := by
  have rest := (isFixedPt_restingText text).eq
  rw [normalize_of_tidy (tidy_restingText text)] at rest
  obtain ⟨first, behind, shape, absentFirst, absent⟩ := exists_delimited backtick (restingText text)
  rw [shape, moveAll_delimited absentFirst absent] at rest
  rw [shape, splitOn_delimited absentFirst absent]
  exact moveMarks_eq_self_iff.mp (delimited_injective absentFirst
    (backtick_notMem_moveMarks absent) absentFirst absent rest).2

end Texts

section Nodes

/-- A node inside of so many containers, each with one child. -/
inductive NestedIn (node : Dict) : Nat → Dict → Prop where
  | here : NestedIn node 0 node
  | wrap {depth : Nat} {inner outer : Dict} : NestedIn node depth inner → IsContainer outer →
      outer.getList "inner" = .ok [.obj inner] → NestedIn node (depth + 1) outer

theorem textFromComment_nestedIn {node outer : Dict} {depth : Nat} {text : Text}
    (rendered : textFromComment node = .ok text) (nested : NestedIn node depth outer) :
    textFromComment outer = .ok (normalize^[depth] text) := by
  induction nested with
  | here => exact rendered
  | wrap _ container onlyChild inductionHypothesis =>
      rw [textFromComment_of_only_child container onlyChild, inductionHypothesis,
        Function.iterate_succ_apply']
      rfl

/-- However deeply a comment is nested, its text comes to rest: it is the same at every depth
from a bound on, no span of it ends in a mark, and it has the letters that it had. -/
theorem textFromComment_comesToRest {node : Dict} {text : Text}
    (rendered : textFromComment node = .ok text) :
    (∀ depth outer, restingDepth text ≤ depth → NestedIn node depth outer →
      textFromComment outer = .ok (restingText text)) ∧
    (∀ span ∈ ((restingText text).splitOn backtick).tail.dropLast, ¬ Movable span) ∧
    Tidy (restingText text) ∧
    ∀ selection : Selection, selection.of (restingText text) = selection.of text := by
  refine ⟨?_, not_movable_restingText text, tidy_restingText text, ?_⟩
  · intro depth outer deep nested
    rw [textFromComment_nestedIn rendered nested, iterate_normalize deep]
  · exact fun selection => of_iterate_normalize selection _ text

theorem nestedIn_blockCommands (node : Dict) (depth : Nat) :
    NestedIn node depth (blockCommand^[depth] node) := by
  induction depth with
  | zero => exact .here
  | succ depth inductionHypothesis =>
      rw [Function.iterate_succ_apply']
      exact .wrap inductionHypothesis (isContainer_blockCommand _) rfl

/-- Two marks leave their span, one at each of the first two nodes. -/
theorem textFromComment_comesToRest_blockCommands :
    textFromComment (blockCommand^[7] (textNode "\x60e.g.,\x60")) =
      .ok (restingText "\x60e.g.,\x60") :=
  (textFromComment_comesToRest (textFromComment_textNode "\x60e.g.,\x60")).1 7 _ (by decide)
    (nestedIn_blockCommands _ 7)

example : restingText "\x60e.g.,\x60" = "\x60e.g\x60.,".toList := by
  have settled : Function.IsFixedPt normalize "\x60e.g\x60.," := by
    rw [Function.IsFixedPt, normalize_eq_moved]
    rfl
  have twice : normalize (normalize "\x60e.g.,\x60") = "\x60e.g\x60.,".toList := by
    rw [normalize_eq_moved, normalize_eq_moved]
    rfl
  change normalize^[5] (normalize (normalize "\x60e.g.,\x60")) = _
  rw [twice]
  exact (settled.iterate 5).eq

end Nodes

end CppCore.Ffi
