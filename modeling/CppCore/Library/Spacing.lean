import CppCore.Library.Delimited
import CppCore.Library.Text

/-!
# Spacing

Texts in which spaces are collapsed, or dropped in front of punctuation marks.
-/

namespace Text

/-- Every run of spaces becomes a single one. -/
def collapse : Text → Text
  | [] => []
  | char :: text =>
      if isSpace char = true then
        if text.head?.any isSpace = true then collapse text else ' ' :: collapse text
      else
        char :: collapse text

/-- A mark stands behind the spaces at the start of the text. -/
def MarkNext (marks text : Text) : Prop := ∃ mark ∈ (text.dropWhile isSpace).head?, mark ∈ marks

instance (marks text : Text) : Decidable (MarkNext marks text) :=
  decidable_of_iff ((text.dropWhile isSpace).head?.any (· ∈ marks) = true) (by
    simp [MarkNext, Option.any_eq_true])

/-- The runs of spaces in front of a mark are dropped. -/
def closeUp (marks : Text) : Text → Text
  | [] => []
  | char :: text =>
      if isSpace char = true ∧ MarkNext marks text then closeUp marks text
      else char :: closeUp marks text

/-- The spaces at the end of the last text are removed. -/
def trimLast : List Text → List Text
  | [] => []
  | [last] => [last.rdropWhile isSpace]
  | part :: next :: parts => part :: trimLast (next :: parts)

/-- The second text is the first one with spaces written as `' '`, or dropped in front of certain
texts. -/
inductive Respaced (droppable : Text → Prop) : Text → Text → Prop where
  | nil : Respaced droppable [] []
  | keep {char : Char} {original text : Text} :
      Respaced droppable original text → Respaced droppable (char :: original) (char :: text)
  | blank {char : Char} {original text : Text} : isSpace char = true →
      Respaced droppable original text → Respaced droppable (char :: original) (' ' :: text)
  | drop {char : Char} {original text : Text} : isSpace char = true → droppable original →
      Respaced droppable original text → Respaced droppable (char :: original) text

variable {char : Char} {text : Text}

section Collapse

theorem collapse_solid (solid : isSpace char = false) (text : Text) :
    collapse (char :: text) = char :: collapse text := by
  rw [collapse, if_neg (Bool.eq_false_iff.mp solid)]

theorem collapse_append_cons (solid : isSpace char = false) (before behind : Text) :
    collapse (before ++ char :: behind) = collapse before ++ char :: collapse behind := by
  induction before with
  | nil => exact collapse_solid solid behind
  | cons first before inductionHypothesis =>
      have sameNext : (before ++ char :: behind).head?.any isSpace = before.head?.any isSpace := by
        cases before with
        | nil => exact solid
        | cons next before => rfl
      rw [List.cons_append, collapse, collapse, sameNext, inductionHypothesis]
      split_ifs <;> rfl

theorem collapse_delimited {delimiter : Char} (solid : isSpace delimiter = false) (first : Text)
    (behind : List Text) : collapse (first ++ delimit delimiter behind) =
      collapse first ++ delimit delimiter (behind.map collapse) := by
  induction behind generalizing first with
  | nil => simp
  | cons part behind inductionHypothesis =>
      rw [delimit_cons, collapse_append_cons solid, inductionHypothesis]
      rfl

theorem collapse_concat (solid : isSpace char = false) (text : Text) :
    collapse (text ++ [char]) = collapse text ++ [char] :=
  collapse_append_cons solid text []

/-- A run of spaces in front of a solid character. -/
theorem collapse_spaces {spaces : Text} (nonempty : spaces ≠ [])
    (allSpaces : ∀ space ∈ spaces, isSpace space = true)
    (ends : ∀ next ∈ text.head?, isSpace next = false) :
    collapse (spaces ++ text) = ' ' :: collapse text := by
  induction spaces with
  | nil => exact absurd rfl nonempty
  | cons space spaces inductionHypothesis =>
      have ⟨here, later⟩ := List.forall_mem_cons.mp allSpaces
      rw [List.cons_append, collapse, if_pos here]
      cases spaces with
      | nil =>
          have solidNext : ¬ text.head?.any isSpace = true := by
            rw [Option.any_eq_true]
            rintro ⟨next, isNext, space⟩
            rw [ends next isNext] at space
            cases space
          exact if_neg solidNext
      | cons next spaces =>
          have spaceNext : (next :: spaces ++ text).head?.any isSpace = true :=
            later next List.mem_cons_self
          rw [if_pos spaceNext]
          exact inductionHypothesis (List.cons_ne_nil _ _) later

theorem collapse_concat_space (space : isSpace char = true) (text : Text) :
    ∃ front, collapse (text ++ [char]) = front ++ [' '] := by
  induction text with
  | nil => exact ⟨[], by simp [collapse, space]⟩
  | cons first text inductionHypothesis =>
      obtain ⟨front, shape⟩ := inductionHypothesis
      rw [List.cons_append, collapse, shape]
      split_ifs
      · exact ⟨front, rfl⟩
      · exact ⟨' ' :: front, rfl⟩
      · exact ⟨first :: front, rfl⟩

theorem collapse_ne_nil (nonempty : text ≠ []) : collapse text ≠ [] := by
  induction text with
  | nil => exact absurd rfl nonempty
  | cons first text inductionHypothesis =>
      rw [collapse]
      split_ifs with space next
      · apply inductionHypothesis
        rintro rfl
        cases next
      · exact List.cons_ne_nil _ _
      · exact List.cons_ne_nil _ _

end Collapse

section CloseUp

variable {marks : Text}

theorem closeUp_solid (solid : isSpace char = false) (text : Text) :
    closeUp marks (char :: text) = char :: closeUp marks text := by
  rw [closeUp, if_neg fun dropped => Bool.eq_false_iff.mp solid dropped.1]

theorem markNext_cons_iff (solid : isSpace char = false) :
    MarkNext marks (char :: text) ↔ char ∈ marks := by
  unfold MarkNext
  rw [List.dropWhile_cons_of_neg (Bool.eq_false_iff.mp solid)]
  simp

theorem markNext_append_cons_iff (solid : isSpace char = false) (notMark : char ∉ marks)
    {before behind : Text} : MarkNext marks (before ++ char :: behind) ↔ MarkNext marks before := by
  unfold MarkNext
  rw [List.dropWhile_append]
  by_cases onlySpaces : before.dropWhile isSpace = []
  · simp [onlySpaces, solid, notMark]
  · obtain ⟨next, rest, shape⟩ := List.exists_cons_of_ne_nil onlySpaces
    simp [shape]

theorem closeUp_append_cons (solid : isSpace char = false) (notMark : char ∉ marks)
    (before behind : Text) : closeUp marks (before ++ char :: behind) =
      closeUp marks before ++ char :: closeUp marks behind := by
  induction before with
  | nil => exact closeUp_solid solid behind
  | cons first before inductionHypothesis =>
      rw [List.cons_append, closeUp, closeUp, inductionHypothesis]
      simp only [markNext_append_cons_iff solid notMark]
      split_ifs <;> rfl

theorem closeUp_delimited {delimiter : Char} (solid : isSpace delimiter = false)
    (notMark : delimiter ∉ marks) (first : Text) (behind : List Text) :
    closeUp marks (first ++ delimit delimiter behind) =
      closeUp marks first ++ delimit delimiter (behind.map (closeUp marks)) := by
  induction behind generalizing first with
  | nil => simp
  | cons part behind inductionHypothesis =>
      rw [delimit_cons, closeUp_append_cons solid notMark, inductionHypothesis]
      rfl

/-- A run of spaces in front of a mark. -/
theorem closeUp_spaces {spaces : Text} (allSpaces : ∀ space ∈ spaces, isSpace space = true)
    (solid : isSpace char = false) (isMark : char ∈ marks) (behind : Text) :
    closeUp marks (spaces ++ char :: behind) = char :: closeUp marks behind := by
  induction spaces with
  | nil => exact closeUp_solid solid behind
  | cons space spaces inductionHypothesis =>
      have ⟨here, later⟩ := List.forall_mem_cons.mp allSpaces
      have markNext : MarkNext marks (spaces ++ char :: behind) := by
        unfold MarkNext
        rw [List.dropWhile_append_of_pos later]
        exact (markNext_cons_iff solid).mpr isMark
      rw [List.cons_append, closeUp, if_pos ⟨here, markNext⟩]
      exact inductionHypothesis later

/-- The last character stays. -/
theorem closeUp_concat (text : Text) (char : Char) :
    ∃ front, closeUp marks (text ++ [char]) = front ++ [char] := by
  induction text with
  | nil =>
      refine ⟨[], ?_⟩
      have nothingNext : ¬ MarkNext marks [] := by
        rintro ⟨_, ⟨⟩, _⟩
      rw [List.nil_append, closeUp, if_neg fun dropped => nothingNext dropped.2]
      rfl
  | cons first text inductionHypothesis =>
      obtain ⟨front, shape⟩ := inductionHypothesis
      rw [List.cons_append, closeUp, shape]
      split_ifs
      · exact ⟨front, rfl⟩
      · exact ⟨first :: front, rfl⟩

theorem closeUp_eq_nil_iff : closeUp marks text = [] ↔ text = [] := by
  constructor
  · intro nothing
    rcases List.eq_nil_or_concat text with rfl | ⟨front, last, rfl⟩
    · rfl
    · obtain ⟨kept, shape⟩ : ∃ kept, closeUp marks (front ++ [last]) = kept ++ [last] :=
        closeUp_concat front last
      rw [List.concat_eq_append, shape] at nothing
      simp at nothing
  · rintro rfl
    rfl

end CloseUp

section Ends

theorem rdropWhile_append_cons (solid : isSpace char = false) (before behind : Text) :
    (before ++ char :: behind).rdropWhile isSpace =
      before ++ char :: behind.rdropWhile isSpace := by
  induction behind using List.reverseRecOn with
  | nil => rw [List.rdropWhile_concat_neg _ _ _ (Bool.eq_false_iff.mp solid)]; rfl
  | append_singleton behind last inductionHypothesis =>
      rw [← List.cons_append, ← List.append_assoc]
      by_cases space : isSpace last = true
      · rw [List.rdropWhile_concat_pos _ _ _ space, List.rdropWhile_concat_pos _ _ _ space]
        exact inductionHypothesis
      · rw [List.rdropWhile_concat_neg _ _ _ space, List.rdropWhile_concat_neg _ _ _ space]
        simp

theorem rdropWhile_cons (solid : isSpace char = false) (text : Text) :
    (char :: text).rdropWhile isSpace = char :: text.rdropWhile isSpace :=
  rdropWhile_append_cons solid [] text

theorem strip_delimited {delimiter : Char} (solid : isSpace delimiter = false) (first : Text)
    (behind : List Text) : strip (first ++ delimit delimiter behind) =
      (if behind = [] then strip first else first.dropWhile isSpace) ++
        delimit delimiter (trimLast behind) := by
  have trimmedEnd : ∀ (front : Text) (part : Text) (parts : List Text),
      (front ++ delimit delimiter (part :: parts)).rdropWhile isSpace =
        front ++ delimit delimiter (trimLast (part :: parts)) := by
    intro front part parts
    induction parts generalizing front part with
    | nil => simp [rdropWhile_append_cons solid, trimLast]
    | cons next parts inductionHypothesis =>
        rw [delimit_cons, rdropWhile_append_cons solid, inductionHypothesis]
        rfl
  cases behind with
  | nil => simp [trimLast]
  | cons part parts =>
      have kept : (first ++ delimit delimiter (part :: parts)).dropWhile isSpace =
          first.dropWhile isSpace ++ delimit delimiter (part :: parts) := by
        rw [List.dropWhile_append]
        split_ifs with onlySpaces
        · rw [List.isEmpty_iff.mp onlySpaces, delimit_cons,
            List.dropWhile_cons_of_neg (Bool.eq_false_iff.mp solid)]
          rfl
        · rfl
      rw [strip, kept, trimmedEnd, if_neg (List.cons_ne_nil _ _)]

theorem trimLast_cons {parts : List Text} (nonempty : parts ≠ []) (part : Text) :
    trimLast (part :: parts) = part :: trimLast parts := by
  obtain ⟨next, parts, rfl⟩ := List.exists_cons_of_ne_nil nonempty
  rfl

theorem prefix_of_mem_trimLast {parts : List Text} {part : Text}
    (membership : part ∈ trimLast parts) : ∃ original ∈ parts, part <+: original := by
  fun_induction trimLast parts with
  | case1 => cases membership
  | case2 last =>
      rw [List.mem_singleton.mp membership]
      exact ⟨last, List.mem_cons_self, List.rdropWhile_prefix _ _⟩
  | case3 first next parts inductionHypothesis =>
      rcases List.mem_cons.mp membership with rfl | later
      · exact ⟨part, List.mem_cons_self, List.prefix_rfl⟩
      · obtain ⟨original, inParts, starts⟩ := inductionHypothesis later
        exact ⟨original, List.mem_cons_of_mem _ inParts, starts⟩

@[simp]
theorem dropLast_trimLast (parts : List Text) : (trimLast parts).dropLast = parts.dropLast := by
  fun_induction trimLast parts with
  | case1 => rfl
  | case2 last => rfl
  | case3 part next parts inductionHypothesis =>
      have nonempty : trimLast (next :: parts) ≠ [] := by
        cases parts <;> simp [trimLast]
      rw [List.dropLast_cons_of_ne_nil nonempty, inductionHypothesis]
      rfl

theorem trimmed_closeUp {marks : Text} (trimmed : Trimmed text) : Trimmed (closeUp marks text) := by
  have ⟨solidFirst, solidLast⟩ := trimmed_iff.mp trimmed
  apply trimmed_iff.mpr
  constructor
  · cases text with
    | nil => exact solidFirst
    | cons first text =>
        have solid := solidFirst first rfl
        rw [closeUp_solid solid]
        exact solidFirst
  · rcases List.eq_nil_or_concat text with rfl | ⟨front, last, rfl⟩
    · exact solidLast
    · rw [List.concat_eq_append] at *
      obtain ⟨tail, shape⟩ : ∃ tail, closeUp marks (front ++ [last]) = tail ++ [last] :=
        closeUp_concat front last
      rw [shape, List.getLast?_concat]
      rwa [List.getLast?_concat] at solidLast

end Ends

section Respaced

variable {droppable : Text → Prop} {original : Text}

theorem Respaced.mono {wider : Text → Prop} (implies : ∀ text, droppable text → wider text)
    (respaced : Respaced droppable original text) : Respaced wider original text := by
  induction respaced with
  | nil => exact .nil
  | keep _ inductionHypothesis => exact .keep inductionHypothesis
  | blank space _ inductionHypothesis => exact .blank space inductionHypothesis
  | drop space dropped _ inductionHypothesis =>
      exact .drop space (implies _ dropped) inductionHypothesis

/-- The solid characters are the same in the same order. -/
theorem Respaced.solids (respaced : Respaced droppable original text) :
    text.filter (!isSpace ·) = original.filter (!isSpace ·) := by
  have blankIsSpace : isSpace ' ' = true := rfl
  induction respaced with
  | nil => rfl
  | keep _ inductionHypothesis => rw [List.filter_cons, List.filter_cons, inductionHypothesis]
  | blank space _ inductionHypothesis => simp [space, blankIsSpace, inductionHypothesis]
  | drop space _ _ inductionHypothesis => simp [space, inductionHypothesis]

/-- No other solid character occurs. -/
theorem Respaced.mem_solid (respaced : Respaced droppable original text)
    (solid : isSpace char = false) (membership : char ∈ text) : char ∈ original := by
  have kept : char ∈ text.filter (!isSpace ·) := List.mem_filter.mpr ⟨membership, by simp [solid]⟩
  rw [respaced.solids] at kept
  exact (List.mem_filter.mp kept).1

/-- A text can be respaced again, where spaces can be dropped anywhere. -/
theorem Respaced.trans {last : Text} (first : Respaced (fun _ => True) original text)
    (second : Respaced (fun _ => True) text last) : Respaced (fun _ => True) original last := by
  induction first generalizing last with
  | nil => exact second
  | keep _ inductionHypothesis =>
      cases second with
      | keep later => exact .keep (inductionHypothesis later)
      | blank space later => exact .blank space (inductionHypothesis later)
      | drop space _ later => exact .drop space trivial (inductionHypothesis later)
  | blank space _ inductionHypothesis =>
      cases second with
      | keep later => exact .blank space (inductionHypothesis later)
      | blank _ later => exact .blank space (inductionHypothesis later)
      | drop _ _ later => exact .drop space trivial (inductionHypothesis later)
  | drop space _ _ inductionHypothesis => exact .drop space trivial (inductionHypothesis second)

theorem Respaced.refl (text : Text) : Respaced droppable text text := by
  induction text with
  | nil => exact .nil
  | cons char text inductionHypothesis => exact .keep inductionHypothesis

/-- What a dropped space stands in front of: another space, or spaces and a mark. -/
def SpaceOrMarkNext (marks text : Text) : Prop :=
  text.head?.any isSpace = true ∨ MarkNext marks text

theorem respaced_closeUp_collapse (marks text : Text) :
    Respaced (SpaceOrMarkNext marks) text (closeUp marks (collapse text)) := by
  induction text with
  | nil => exact .nil
  | cons char text inductionHypothesis =>
      by_cases space : isSpace char = true
      · rw [collapse, if_pos space]
        by_cases spaceNext : text.head?.any isSpace = true
        · rw [if_pos spaceNext]
          exact .drop space (.inl spaceNext) inductionHypothesis
        · rw [if_neg spaceNext, closeUp]
          split_ifs with dropped
          · refine .drop space (.inr ?_) inductionHypothesis
            have markNext := dropped.2
            cases text with
            | nil => exact markNext
            | cons next text =>
                have solid : isSpace next = false := Bool.eq_false_iff.mpr spaceNext
                rw [collapse_solid solid, markNext_cons_iff solid] at markNext
                exact (markNext_cons_iff solid).mpr markNext
          · exact .blank space inductionHypothesis
      · have solid : isSpace char = false := Bool.eq_false_iff.mpr space
        rw [collapse_solid solid, closeUp_solid solid]
        exact .keep inductionHypothesis

theorem respaced_collapse (text : Text) : Respaced (fun _ => True) text (collapse text) := by
  induction text with
  | nil => exact .nil
  | cons char text inductionHypothesis =>
      rw [collapse]
      split_ifs with space
      · exact .drop space trivial inductionHypothesis
      · exact .blank space inductionHypothesis
      · exact .keep inductionHypothesis

theorem respaced_closeUp (marks text : Text) :
    Respaced (fun _ => True) text (closeUp marks text) := by
  induction text with
  | nil => exact .nil
  | cons char text inductionHypothesis =>
      rw [closeUp]
      split_ifs with dropped
      · exact .drop dropped.1 trivial inductionHypothesis
      · exact .keep inductionHypothesis

theorem respaced_dropWhile (text : Text) :
    Respaced (fun _ => True) text (text.dropWhile isSpace) := by
  induction text with
  | nil => exact .nil
  | cons char text inductionHypothesis =>
      by_cases space : isSpace char = true
      · rw [List.dropWhile_cons_of_pos space]
        exact .drop space trivial inductionHypothesis
      · rw [List.dropWhile_cons_of_neg space]
        exact .refl _

theorem respaced_spaces {spaces : Text} (allSpaces : ∀ space ∈ spaces, isSpace space = true) :
    Respaced (fun _ => True) spaces [] := by
  induction spaces with
  | nil => exact .nil
  | cons space spaces inductionHypothesis =>
      have ⟨here, later⟩ := List.forall_mem_cons.mp allSpaces
      exact .drop here trivial (inductionHypothesis later)

theorem respaced_rdropWhile (text : Text) :
    Respaced (fun _ => True) text (text.rdropWhile isSpace) := by
  have shape : text.rdropWhile isSpace ++ text.rtakeWhile isSpace = text :=
    List.rdropWhile_append_rtakeWhile
  have allSpaces : ∀ space ∈ text.rtakeWhile isSpace, isSpace space = true :=
    fun _ => List.mem_rtakeWhile_imp
  have kept : ∀ front : Text,
      Respaced (fun _ => True) (front ++ text.rtakeWhile isSpace) front := by
    intro front
    induction front with
    | nil => exact respaced_spaces allSpaces
    | cons char front inductionHypothesis => exact .keep inductionHypothesis
  have whole := kept (text.rdropWhile isSpace)
  rwa [shape] at whole

theorem respaced_strip (text : Text) : Respaced (fun _ => True) text (strip text) :=
  (respaced_dropWhile text).trans (respaced_rdropWhile _)

end Respaced

/-- Every space is `' '`, and what stands behind it is not refused. -/
def SingleSpaced (refused : Char → Bool) : Text → Prop
  | [] => True
  | char :: text =>
      (isSpace char = true → char = ' ' ∧ ∀ next ∈ text.head?, refused next = false) ∧
        SingleSpaced refused text

section SingleSpaced

variable {refused : Char → Bool}

theorem SingleSpaced.mono {fewer : Char → Bool}
    (implies : ∀ char, refused char = false → fewer char = false)
    (singleSpaced : SingleSpaced refused text) : SingleSpaced fewer text := by
  induction text with
  | nil => trivial
  | cons char text inductionHypothesis =>
      refine ⟨fun space => ?_, inductionHypothesis singleSpaced.2⟩
      have ⟨isBlank, accepted⟩ := singleSpaced.1 space
      exact ⟨isBlank, fun next isNext => implies next (accepted next isNext)⟩

theorem SingleSpaced.cons (solid : isSpace char = false)
    (singleSpaced : SingleSpaced refused text) : SingleSpaced refused (char :: text) := by
  refine ⟨fun space => ?_, singleSpaced⟩
  rw [solid] at space
  cases space

theorem singleSpaced_append_cons_iff (accepted : refused char = false) {before behind : Text} :
    SingleSpaced refused (before ++ char :: behind) ↔
      SingleSpaced refused before ∧ SingleSpaced refused (char :: behind) := by
  induction before with
  | nil => exact (and_iff_right trivial).symm
  | cons first before inductionHypothesis =>
      have sameNext : (∀ next ∈ (before ++ char :: behind).head?, refused next = false) ↔
          ∀ next ∈ before.head?, refused next = false := by
        cases before with
        | nil => simp [accepted]
        | cons next before => simp
      rw [List.cons_append, SingleSpaced, SingleSpaced, inductionHypothesis, sameNext, and_assoc]

theorem SingleSpaced.of_append {before behind : Text}
    (singleSpaced : SingleSpaced refused (before ++ behind)) :
    SingleSpaced refused before ∧ SingleSpaced refused behind := by
  induction before with
  | nil => exact ⟨trivial, singleSpaced⟩
  | cons first before inductionHypothesis =>
      have ⟨beforeSpaced, behindSpaced⟩ := inductionHypothesis singleSpaced.2
      refine ⟨⟨fun space => ?_, beforeSpaced⟩, behindSpaced⟩
      have ⟨isBlank, accepted⟩ := singleSpaced.1 space
      refine ⟨isBlank, fun next isNext => accepted next ?_⟩
      have isHead : (before ++ behind).head? = some next := by
        rw [List.head?_append, isNext]
        rfl
      exact isHead

theorem singleSpaced_delimited_iff {delimiter : Char} (solid : isSpace delimiter = false)
    (accepted : refused delimiter = false) {first : Text} {behind : List Text} :
    SingleSpaced refused (first ++ delimit delimiter behind) ↔
      SingleSpaced refused first ∧ ∀ part ∈ behind, SingleSpaced refused part := by
  induction behind generalizing first with
  | nil => simp
  | cons part behind inductionHypothesis =>
      have start : SingleSpaced refused (delimiter :: (part ++ delimit delimiter behind)) ↔
          SingleSpaced refused (part ++ delimit delimiter behind) :=
        ⟨fun singleSpaced => singleSpaced.2, SingleSpaced.cons solid⟩
      rw [delimit_cons, singleSpaced_append_cons_iff accepted, start, inductionHypothesis,
        List.forall_mem_cons]

theorem singleSpaced_collapse (text : Text) : SingleSpaced isSpace (collapse text) := by
  induction text with
  | nil => trivial
  | cons char text inductionHypothesis =>
      by_cases space : isSpace char = true
      · rw [collapse, if_pos space]
        split_ifs with spaceNext
        · exact inductionHypothesis
        · refine ⟨fun _ => ⟨rfl, ?_⟩, inductionHypothesis⟩
          cases text with
          | nil =>
              rintro next ⟨⟩
          | cons next text =>
              have solid : isSpace next = false := Bool.eq_false_iff.mpr spaceNext
              rw [collapse_solid solid]
              rintro _ ⟨⟩
              exact solid
      · have solid : isSpace char = false := Bool.eq_false_iff.mpr space
        rw [collapse_solid solid]
        exact inductionHypothesis.cons solid

theorem collapse_of_singleSpaced (singleSpaced : SingleSpaced isSpace text) :
    collapse text = text := by
  induction text with
  | nil => rfl
  | cons char text inductionHypothesis =>
      rw [collapse, inductionHypothesis singleSpaced.2]
      split_ifs with space spaceNext
      · obtain ⟨next, isNext, isSpaceNext⟩ := (Option.any_eq_true ..).mp spaceNext
        rw [(singleSpaced.1 space).2 next isNext] at isSpaceNext
        cases isSpaceNext
      · rw [(singleSpaced.1 space).1]
      · rfl

/-- What a space is not followed by in a text that is single spaced and closed up. -/
def spaceOrMark (marks : Text) (char : Char) : Bool := isSpace char || decide (char ∈ marks)

theorem singleSpaced_closeUp {marks : Text} (singleSpaced : SingleSpaced isSpace text) :
    SingleSpaced (spaceOrMark marks) (closeUp marks text) := by
  induction text with
  | nil => trivial
  | cons char text inductionHypothesis =>
      have later := inductionHypothesis singleSpaced.2
      rw [closeUp]
      split_ifs with dropped
      · exact later
      · refine ⟨fun space => ?_, later⟩
        have ⟨isBlank, solidNext⟩ := singleSpaced.1 space
        refine ⟨isBlank, ?_⟩
        cases text with
        | nil => rintro next ⟨⟩
        | cons next text =>
            have solid := solidNext next rfl
            have notMark : next ∉ marks := fun isMark =>
              dropped ⟨space, (markNext_cons_iff solid).mpr isMark⟩
            rw [closeUp_solid solid]
            rintro _ ⟨⟩
            simp [spaceOrMark, solid, notMark]

theorem closeUp_of_singleSpaced {marks : Text}
    (singleSpaced : SingleSpaced (spaceOrMark marks) text) : closeUp marks text = text := by
  induction text with
  | nil => rfl
  | cons char text inductionHypothesis =>
      have stays : ¬ (isSpace char = true ∧ MarkNext marks text) := by
        rintro ⟨space, markNext⟩
        have accepted := (singleSpaced.1 space).2
        cases text with
        | nil =>
            obtain ⟨_, ⟨⟩, _⟩ := markNext
        | cons next text =>
            have neither : isSpace next = false ∧ next ∉ marks := by
              simpa [spaceOrMark] using accepted next rfl
            exact neither.2 ((markNext_cons_iff neither.1).mp markNext)
      rw [closeUp, if_neg stays, inductionHypothesis singleSpaced.2]

end SingleSpaced

end Text
