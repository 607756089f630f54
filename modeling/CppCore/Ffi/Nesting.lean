import CppCore.Ffi.Normalization

/-!
# Nested comments

A node around another one normalises its text again.  The text stays the same
when no mark is left to be moved.
-/

namespace CppCore.Ffi

open Dict

/-- A span from which a mark can be moved when its spaces are tidied up.  Spaces in front of `:`
stay. -/
def StillMovable (span : Text) : Prop :=
  Movable span ∧ (span.getLast? = some ':' ∨ ∃ char ∈ span.dropLast, Text.isSpace char = false)

instance (span : Text) : Decidable (StillMovable span) :=
  inferInstanceAs (Decidable (_ ∧ _))

/-- No mark can be moved from a span that lost one, nor from what stands behind it. -/
def Settled : List Text → Prop
  | [] => True
  | [_] => True
  | span :: next :: rest =>
      if Movable span then
        ¬ StillMovable span.dropLast ∧ (rest = [] ∨ ¬ EndsInMark next) ∧ Settled rest
      else
        Settled (next :: rest)

section Texts

variable {behind : List Text}

theorem moveMarks_eq_self_iff :
    moveMarks behind = behind ↔ ∀ span ∈ behind.dropLast, ¬ Movable span := by
  fun_induction moveMarks behind with
  | case1 => simp
  | case2 last => simp
  | case3 span next rest mark moved inductionHypothesis =>
      have movable : Movable span := movable_iff.mpr ⟨mark, moved⟩
      constructor
      · intro same
        have sizes := congrArg List.length (List.cons.inj same).1
        have long := movable.1
        rw [List.length_dropLast] at sizes
        omega
      · intro settled
        exact absurd movable (settled span List.mem_cons_self)
  | case4 span next rest stays inductionHypothesis =>
      have immovable : ¬ Movable span := not_movable_iff.mpr stays
      rw [List.dropLast_cons_of_ne_nil (List.cons_ne_nil _ _), List.forall_mem_cons,
        and_iff_right immovable, ← inductionHypothesis]
      simp

theorem movable_closeUp_iff {span : Text} :
    Movable (Text.closeUp ".,;" span) ↔ StillMovable span := by
  rcases List.eq_nil_or_concat span with rfl | ⟨code, last, rfl⟩
  · exact iff_of_false not_movable_nil fun still => not_movable_nil still.1
  rw [List.concat_eq_append]
  obtain ⟨front, shape⟩ : ∃ front, Text.closeUp ".,;" (code ++ [last]) = front ++ [last] :=
    Text.closeUp_concat code last
  rw [StillMovable, shape, movable_concat_iff, movable_concat_iff, List.getLast?_concat,
    List.dropLast_concat, Option.some_inj]
  by_cases isColon : last = ':'
  · subst isColon
    have kept : Text.closeUp ".,;" (code ++ [':']) = Text.closeUp ".,;" code ++ [':'] :=
      Text.closeUp_append_cons rfl (by decide) code []
    rw [kept] at shape
    have same := List.append_cancel_right shape
    rw [← same, Ne, Text.closeUp_eq_nil_iff]
    simp
  · have solids : front.filter (!Text.isSpace ·) = code.filter (!Text.isSpace ·) := by
      have whole := (Text.respaced_closeUp ".,;" (code ++ [last])).solids
      rw [shape, List.filter_append, List.filter_append] at whole
      exact List.append_cancel_right whole
    constructor
    · rintro ⟨nonempty, isMark⟩
      have hasSolid : ∃ char ∈ code, Text.isSpace char = false := by
        by_contra noSolid
        have allSpaces : ∀ char ∈ code, Text.isSpace char = true := by simpa using noSolid
        have closing : last ∈ ".,;".toList := by simpa [isColon] using isMark
        rw [Text.closeUp_spaces allSpaces (solid_of_mark isMark) closing] at shape
        exact nonempty (List.append_cancel_right shape).symm
      obtain ⟨char, inCode, _⟩ := id hasSolid
      exact ⟨⟨List.ne_nil_of_mem inCode, isMark⟩, .inr hasSolid⟩
    · rintro ⟨⟨_, isMark⟩, isLast | ⟨char, inCode, solid⟩⟩
      · exact absurd isLast isColon
      · have kept : char ∈ front.filter (!Text.isSpace ·) := by
          rw [solids]
          exact List.mem_filter.mpr ⟨inCode, by simp [solid]⟩
        exact ⟨List.ne_nil_of_mem (List.mem_filter.mp kept).1, isMark⟩

theorem movable_tidyPart_iff {span : Text} : Movable (tidyPart span) ↔ StillMovable span := by
  rw [tidyPart, movable_closeUp_iff, StillMovable, StillMovable, movable_collapse_iff]
  apply and_congr_right
  intro movable
  obtain ⟨code, mark, rfl, _, isMark⟩ := movable_iff_exists.mp movable
  have sameSolids : (∃ char ∈ Text.collapse code, Text.isSpace char = false) ↔
      ∃ char ∈ code, Text.isSpace char = false := by
    have solids := (Text.respaced_collapse code).solids
    have same := congrArg (· = []) solids
    simpa [List.filter_eq_nil_iff] using not_congr (Iff.of_eq same)
  rw [Text.collapse_concat (solid_of_mark isMark), List.getLast?_concat, List.getLast?_concat,
    List.dropLast_concat, List.dropLast_concat, sameSolids]

theorem stillMovable_cons_iff {mark : Char} (isMark : mark ∈ ".,;:".toList) {next : Text} :
    StillMovable (mark :: next) ↔ EndsInMark next := by
  constructor
  · rintro ⟨⟨long, last, isLast, isLastMark⟩, _⟩
    refine ⟨last, ?_, isLastMark⟩
    cases next with
    | nil => exact absurd long (Nat.not_succ_le_self 1)
    | cons char next => exact isLast
  · rintro ⟨last, isLast, isLastMark⟩
    cases next with
    | nil => cases isLast
    | cons char next =>
        refine ⟨⟨by simp, last, isLast, isLastMark⟩, .inr ⟨mark, ?_, solid_of_mark isMark⟩⟩
        exact List.mem_cons_self

theorem settled_iff :
    Settled behind ↔ ∀ part ∈ (moveMarks behind).dropLast, ¬ StillMovable part := by
  fun_induction moveMarks behind with
  | case1 => simp [Settled]
  | case2 last => simp [Settled]
  | case3 span next rest mark moved inductionHypothesis =>
      obtain ⟨code, rfl, nonempty, isMark⟩ := movedMark?_eq_some_iff.mp moved
      have movable : Movable (code ++ [mark]) := movable_iff.mpr ⟨mark, moved⟩
      rw [Settled, if_pos movable, inductionHypothesis, List.dropLast_concat]
      by_cases ends : rest = []
      · simp [ends, moveMarks]
      · have remaining : moveMarks rest ≠ [] := mt moveMarks_eq_nil_iff.mp ends
        rw [List.dropLast_cons_of_ne_nil (List.cons_ne_nil _ _),
          List.dropLast_cons_of_ne_nil remaining, List.forall_mem_cons, List.forall_mem_cons,
          stillMovable_cons_iff isMark, or_iff_right ends]
  | case4 span next rest stays inductionHypothesis =>
      have immovable : ¬ Movable span := not_movable_iff.mpr stays
      rw [Settled, if_neg immovable, inductionHypothesis,
        List.dropLast_cons_of_ne_nil (moveMarks_cons_ne_nil next rest), List.forall_mem_cons,
        and_iff_right fun still : StillMovable span => immovable still.1]

instance (behind : List Text) : Decidable (Settled behind) :=
  decidable_of_iff _ settled_iff.symm

theorem dropLast_tidyParts (behind : List Text) :
    (tidyParts behind).dropLast = behind.dropLast.map tidyPart := by
  rw [tidyParts, ← List.map_dropLast, Text.dropLast_trimLast, ← List.map_dropLast, List.map_map]
  rfl

/-- When a second normalisation changes nothing. -/
theorem normalize_idempotent_iff (joined : Text) :
    normalize (normalize joined) = normalize joined ↔
      Settled (joined.splitOn backtick).tail := by
  obtain ⟨first, behind, rfl, absentFirst, absent⟩ := exists_delimited backtick joined
  have tidy := tidy_normalize (first ++ delimit backtick behind)
  obtain ⟨opening, shape, respaced⟩ := normalize_delimited absentFirst absent
  have absentOpening := backtick_notMem respaced absentFirst
  have absentParts := backtick_notMem_tidyParts (backtick_notMem_moveMarks absent)
  have sameParts : opening ++ delimit backtick (moveMarks (tidyParts (moveMarks behind))) =
      opening ++ delimit backtick (tidyParts (moveMarks behind)) ↔
        moveMarks (tidyParts (moveMarks behind)) = tidyParts (moveMarks behind) := by
    constructor
    · intro same
      exact (delimited_injective absentOpening (backtick_notMem_moveMarks absentParts)
        absentOpening absentParts same).2
    · intro same
      rw [same]
  rw [normalize_of_tidy tidy, shape, moveAll_delimited absentOpening absentParts, sameParts,
    moveMarks_eq_self_iff, dropLast_tidyParts, List.forall_mem_map,
    splitOn_delimited absentFirst absent, List.tail_cons, settled_iff]
  simp only [movable_tidyPart_iff]

end Texts

section Nodes

/-- The nodes whose text is put together from their children. -/
def IsContainer (node : Dict) : Prop :=
  ¬ node.hasKind "TextComment" = true ∧ ¬ node.hasKind "InlineCommandComment" = true

/-- The text that a node normalises. -/
def joinedText (node : Dict) : Except Fault Text := do
  let chunks ← commentChunks (← node.getList "inner")
  return List.intercalate " " chunks

/-- What a leaf says: its text, or its arguments, each between backticks if they are monospaced. -/
inductive LeafText (node : Dict) : Text → Prop where
  | text {text : Text} : node.hasKind "TextComment" = true → node.get "text" = .str text →
      LeafText node text
  | command {args : List Text} : node.hasKind "InlineCommandComment" = true →
      node.get "args" = .arr (args.map .str) →
      (node.get "renderKind").isText "monospaced" = false →
      LeafText node (List.intercalate " " args)
  | monospaced {args : List Text} : node.hasKind "InlineCommandComment" = true →
      node.get "args" = .arr (args.map .str) →
      (node.get "renderKind").isText "monospaced" = true →
      LeafText node
        (List.intercalate " " (args.map fun arg => "\x60".toList ++ arg ++ "\x60".toList))

/-- A node inside of any number of containers, each with one child. -/
inductive Wraps (node : Dict) : Dict → Prop where
  | refl : Wraps node node
  | wrap {inner outer : Dict} : Wraps node inner → IsContainer outer →
      outer.getList "inner" = .ok [.obj inner] → Wraps node outer

def blockCommand (child : Dict) : Dict :=
  [("kind", .str "BlockCommandComment"), ("inner", .arr [.obj child])]

theorem isContainer_blockCommand (child : Dict) : IsContainer (blockCommand child) :=
  ⟨Bool.false_ne_true, Bool.false_ne_true⟩

theorem wraps_blockCommand (node : Dict) : Wraps node (blockCommand node) :=
  .wrap .refl (isContainer_blockCommand node) rfl

theorem textFromComment_eq_normalize {node : Dict} (container : IsContainer node) :
    textFromComment node = normalize <$> joinedText node := by
  rw [textFromComment_container container.1 container.2, joinedText]
  simp only [map_bind, map_pure]

theorem joinedText_of_only_child {inner outer : Dict}
    (onlyChild : outer.getList "inner" = .ok [.obj inner]) :
    joinedText outer = textFromComment inner := by
  rw [joinedText, onlyChild]
  change (do
    let chunks ← commentChunks [.obj inner]
    return List.intercalate " ".toList chunks : Except Fault Text) = _
  rw [commentChunks, commentChunks]
  cases rendered : textFromComment inner with
  | error fault => rfl
  | ok text =>
      by_cases empty : text = []
      · subst empty
        rfl
      · simp [empty]

theorem lookup_of_get {node : Dict} {key : Text} {value : Json} (read : node.get key = value)
    (present : value ≠ .null) : node.lookup key = some value := by
  unfold Dict.get at read
  cases found : node.lookup key with
  | none =>
      rw [found] at read
      exact absurd read.symm present
  | some other =>
      rw [found] at read
      exact congrArg some read

theorem commandArgs_texts (args : List Text) : commandArgs (args.map .str) = .ok args := by
  induction args with
  | nil => rfl
  | cons arg args inductionHypothesis =>
      rw [List.map_cons, commandArgs, inductionHypothesis]
      rfl

theorem LeafText.rendered {node : Dict} {text : Text} (leaf : LeafText node text) :
    textFromComment node = .ok text := by
  cases leaf with
  | text isText read =>
      rw [textFromComment, if_pos isText, getText, lookup_of_get read nofun]
  | command isCommand read plain =>
      have notText : ¬ node.hasKind "TextComment" = true := by
        rw [hasKind_eq isCommand]
        decide
      rw [textFromComment, if_neg notText, if_pos isCommand, getList, lookup_of_get read nofun]
      simp only [Fallible.ok_bind, commandArgs_texts, plain, Bool.false_eq_true, if_false]
      rfl
  | monospaced isCommand read monospaced =>
      have notText : ¬ node.hasKind "TextComment" = true := by
        rw [hasKind_eq isCommand]
        decide
      rw [textFromComment, if_neg notText, if_pos isCommand, getList, lookup_of_get read nofun]
      simp only [Fallible.ok_bind, commandArgs_texts, monospaced, if_true]
      rfl

/-- A node whose children are leaves joins what they say. -/
theorem joinedText_of_leaves {node : Dict} {children : List Dict} {texts : List Text}
    (read : node.getList "inner" = .ok (children.map .obj))
    (leaves : List.Forall₂ LeafText children texts) :
    joinedText node = .ok (List.intercalate " " (texts.filter (· ≠ []))) := by
  have chunks : commentChunks (children.map .obj) = .ok (texts.filter (· ≠ [])) := by
    clear read
    induction leaves with
    | nil =>
        rw [List.map_nil, commentChunks]
        rfl
    | @cons child text _ texts leaf _ inductionHypothesis =>
        rw [List.map_cons, commentChunks, leaf.rendered, inductionHypothesis, Fallible.ok_bind,
          Fallible.ok_bind]
        by_cases empty : text = []
        · rw [if_pos empty, List.filter_cons_of_neg (by simp [empty])]
          rfl
        · rw [if_neg empty, List.filter_cons_of_pos (by simp [empty])]
          rfl
  rw [joinedText, read, Fallible.ok_bind, chunks]
  rfl

/-- A container around a node normalises the text of the node. -/
theorem textFromComment_of_only_child {inner outer : Dict} (container : IsContainer outer)
    (onlyChild : outer.getList "inner" = .ok [.obj inner]) :
    textFromComment outer = normalize <$> textFromComment inner := by
  rw [textFromComment_eq_normalize container, joinedText_of_only_child onlyChild]

/-- When the text of a node does not depend on how deep the node is nested. -/
theorem textFromComment_nested_iff {node : Dict} (container : IsContainer node) :
    (∀ outer, Wraps node outer → textFromComment outer = textFromComment node) ↔
      ∀ joined, joinedText node = .ok joined → Settled (joined.splitOn backtick).tail := by
  constructor
  · intro independent joined isJoined
    have same := independent _ (wraps_blockCommand node)
    rw [textFromComment_of_only_child (isContainer_blockCommand node) rfl,
      textFromComment_eq_normalize container, isJoined] at same
    exact (normalize_idempotent_iff joined).mp (Except.ok.inj same)
  · intro settled outer wraps
    have fixed : normalize <$> textFromComment node = textFromComment node := by
      rw [textFromComment_eq_normalize container]
      cases isJoined : joinedText node with
      | error fault => rfl
      | ok joined =>
          exact congrArg Except.ok ((normalize_idempotent_iff joined).mpr (settled joined isJoined))
    induction wraps with
    | refl => rfl
    | wrap _ outerContainer onlyChild inductionHypothesis =>
        rw [textFromComment_of_only_child outerContainer onlyChild, inductionHypothesis, fixed]

/-- A paragraph around a text, which is how clang writes the argument of a block command. -/
def paragraph (text : Text) : Dict :=
  [("kind", .str "ParagraphComment"),
    ("inner", .arr [.obj [("kind", .str "TextComment"), ("text", .str text)]])]

theorem isContainer_paragraph (text : Text) : IsContainer (paragraph text) :=
  ⟨Bool.false_ne_true, Bool.false_ne_true⟩

theorem joinedText_paragraph (text : Text) : joinedText (paragraph text) = .ok text := by
  have leaves : List.Forall₂ LeafText [[("kind", .str "TextComment"), ("text", .str text)]] [text] :=
    .cons (.text rfl rfl) .nil
  rw [joinedText_of_leaves rfl leaves]
  by_cases empty : text = []
  · rw [empty]
    rfl
  · rw [List.filter_cons_of_pos (by simp [empty]), List.filter_nil, List.intercalate_singleton]

def closeParagraph : Dict := paragraph "See \x60open(),\x60 or \x60close()\x60."

theorem textFromComment_nested_closeParagraph :
    textFromComment (blockCommand closeParagraph) = textFromComment closeParagraph := by
  refine (textFromComment_nested_iff (isContainer_paragraph _)).mpr ?_ _ (wraps_blockCommand _)
  intro joined isJoined
  rw [joinedText_paragraph] at isJoined
  cases isJoined
  decide

/-- A span that ends in two marks loses one of them at every node. -/
theorem not_textFromComment_nested : ¬ ∀ node outer : Dict, IsContainer node →
    Wraps node outer → textFromComment outer = textFromComment node := by
  intro independent
  have same := independent _ _ (isContainer_paragraph "\x60e.g.,\x60") (wraps_blockCommand _)
  have once : normalize "\x60e.g.,\x60" = "\x60e.g.\x60,".toList := by
    rw [normalize_eq_moved]
    rfl
  have twice : normalize "\x60e.g.\x60," = "\x60e.g\x60.,".toList := by
    rw [normalize_eq_moved]
    rfl
  rw [textFromComment_of_only_child (isContainer_blockCommand _) rfl,
    textFromComment_eq_normalize (isContainer_paragraph _), joinedText_paragraph] at same
  have changed : normalize (normalize "\x60e.g.,\x60") = normalize "\x60e.g.,\x60" :=
    Except.ok.inj same
  rw [once, twice] at changed
  exact absurd changed (by decide)

end Nodes

end CppCore.Ffi
