import CppCore.Ffi.Normalization

/-!
# Conserved letters

What rendering keeps of a comment.  Spaces are respaced and a mark can change
places with a backtick; every other character of the leaves stays, and stays in
its place.
-/

namespace CppCore.Ffi

open Dict

mutual

/-- What the leaves of a comment hold, in their order: the text of a text node, the arguments of
an inline command. -/
def leafTexts (node : Dict) : Except Fault (List Text) :=
  if node.hasKind "TextComment" then do
    return [← node.getText "text" ""]
  else if node.hasKind "InlineCommandComment" then do
    commandArgs (← node.getList "args")
  else
    match _read : node.getList "inner" with
    | .error fault => .error fault
    | .ok children => leafTextsOfAll children
termination_by (sizeOf node, 1)
decreasing_by exact lex_of_getList _read

def leafTextsOfAll : List Json → Except Fault (List Text)
  | [] => return []
  | .obj child :: children => do
      let leaves ← leafTexts child
      return leaves ++ (← leafTextsOfAll children)
  | _ :: children => leafTextsOfAll children
termination_by children => (sizeOf children, 0)

end

/-- Characters whose order rendering cannot change: no spaces, and not both a mark and the
backtick that it moves over. -/
structure Selection where
  selects : Char → Bool
  noSpace : ∀ char, Text.isSpace char = true → selects char = false
  apart : selects backtick = true → ∀ mark ∈ ".,;:".toList, selects mark = false

namespace Selection

def of (selection : Selection) (text : Text) : Text := text.filter selection.selects

/-- Everything but spaces and backticks. -/
def letters : Selection where
  selects char := !Text.isSpace char && char != backtick
  noSpace char space := by simp [space]
  apart isSelected := by simp at isSelected

variable (selection : Selection)

theorem of_append (text other : Text) :
    selection.of (text ++ other) = selection.of text ++ selection.of other :=
  List.filter_append text other

theorem of_respaced {droppable : Text → Prop} {original text : Text}
    (respaced : Text.Respaced droppable original text) :
    selection.of text = selection.of original := by
  have onlySolid : ∀ text : Text,
      (text.filter (!Text.isSpace ·)).filter selection.selects = selection.of text := by
    intro text
    rw [List.filter_filter]
    apply List.filter_congr
    intro char _
    cases space : Text.isSpace char with
    | true => simp [selection.noSpace char space]
    | false => simp
  rw [← onlySolid, respaced.solids, onlySolid]

/-- A mark and a backtick can be written in either order. -/
theorem of_swapped {mark : Char} (isMark : mark ∈ ".,;:".toList) :
    selection.of [mark, backtick] = selection.of [backtick, mark] := by
  cases selected : selection.selects backtick with
  | true => simp [of, selected, selection.apart selected mark isMark]
  | false => simp [of, List.filter_cons, selected]

theorem of_delimit_cons (part : Text) (parts : List Text) :
    selection.of (delimit backtick (part :: parts)) =
      selection.of [backtick] ++ selection.of part ++ selection.of (delimit backtick parts) := by
  rw [delimit_cons, ← List.singleton_append, of_append, of_append, List.append_assoc]

theorem of_moveMarks (behind : List Text) :
    selection.of (delimit backtick (moveMarks behind)) =
      selection.of (delimit backtick behind) := by
  fun_induction moveMarks behind with
  | case1 => rfl
  | case2 last => rfl
  | case3 span next rest mark moved inductionHypothesis =>
      obtain ⟨code, rfl, _, isMark⟩ := movedMark?_eq_some_iff.mp moved
      have swapped : selection.of [backtick] ++ selection.of [mark] =
          selection.of [mark] ++ selection.of [backtick] := by
        rw [← of_append, ← of_append]
        exact (selection.of_swapped isMark).symm
      have moved : selection.of (mark :: next) = selection.of [mark] ++ selection.of next :=
        selection.of_append [mark] next
      calc selection.of (delimit backtick
            ((code ++ [mark]).dropLast :: (mark :: next) :: moveMarks rest))
          = selection.of [backtick] ++ selection.of code ++
              (selection.of [backtick] ++ selection.of [mark]) ++ selection.of next ++
                selection.of (delimit backtick (moveMarks rest)) := by
            rw [List.dropLast_concat, of_delimit_cons, of_delimit_cons, moved]
            simp only [List.append_assoc]
        _ = selection.of [backtick] ++ selection.of code ++
              (selection.of [mark] ++ selection.of [backtick]) ++ selection.of next ++
                selection.of (delimit backtick rest) := by
            rw [swapped, inductionHypothesis]
        _ = selection.of (delimit backtick ((code ++ [mark]) :: next :: rest)) := by
            rw [of_delimit_cons, of_delimit_cons, of_append]
            simp only [List.append_assoc]
  | case4 span next rest stays inductionHypothesis =>
      rw [of_delimit_cons, of_delimit_cons, inductionHypothesis]

theorem of_moveAll (text : Text) : selection.of (moveAll text) = selection.of text := by
  obtain ⟨first, behind, rfl, absentFirst, absent⟩ := exists_delimited backtick text
  rw [moveAll_delimited absentFirst absent, of_append, of_append, of_moveMarks]

theorem of_normalize (joined : Text) : selection.of (normalize joined) = selection.of joined := by
  rw [normalize_eq, selection.of_respaced (Text.respaced_closeUp ".,;" _),
    selection.of_respaced (Text.respaced_strip _),
    selection.of_respaced (Text.respaced_collapse _), of_moveAll]

/-- The spaces between joined texts are not selected. -/
theorem of_intercalate (texts : List Text) :
    selection.of (List.intercalate " " texts) = selection.of texts.flatten := by
  have noBlank : selection.of " ".toList = [] := by
    simp [of, selection.noSpace ' ' rfl]
  induction texts with
  | nil => rfl
  | cons text texts inductionHypothesis =>
      cases texts with
      | nil => simp
      | cons next texts =>
          rw [List.intercalate_cons_of_ne_nil (List.cons_ne_nil next texts), of_append, of_append,
            inductionHypothesis, noBlank, List.append_nil, ← of_append]
          rfl

/-- The backticks around a text are not selected with it. -/
theorem of_quoted {selection : Selection} (noBacktick : selection.selects backtick = false)
    (texts : List Text) :
    selection.of (texts.map fun text => "\x60".toList ++ text ++ "\x60".toList).flatten =
      selection.of texts.flatten := by
  have noQuote : selection.of "\x60".toList = [] := by
    have single : selection.of [backtick] = [] := by simp [of, noBacktick]
    exact single
  induction texts with
  | nil => rfl
  | cons text texts inductionHypothesis =>
      rw [List.map_cons, List.flatten_cons, List.flatten_cons, of_append, of_append, of_append,
        of_append, inductionHypothesis, noQuote, List.append_nil, List.nil_append]

end Selection

section Rendering

theorem leafTexts_container {node : Dict} (notText : ¬ node.hasKind "TextComment" = true)
    (notCommand : ¬ node.hasKind "InlineCommandComment" = true) :
    leafTexts node = node.getList "inner" >>= leafTextsOfAll := by
  rw [leafTexts, if_neg notText, if_neg notCommand]
  split
  · rename_i read
    rw [read]
    rfl
  · rename_i read
    rw [read]
    rfl

variable (selection : Selection)

/-- What is selected of the texts, or the fault that stands for them. -/
def Selection.ofAll (texts : Except Fault (List Text)) : Except Fault Text :=
  (fun texts => selection.of texts.flatten) <$> texts

namespace Selection

theorem ofAll_append (leaves later : Except Fault (List Text)) :
    selection.ofAll (do return (← leaves) ++ (← later)) =
      (do return (← selection.ofAll leaves) ++ (← selection.ofAll later)) := by
  cases leaves with
  | error fault => rfl
  | ok leaves =>
      cases later with
      | error fault => rfl
      | ok later =>
          have whole := selection.of_append leaves.flatten later.flatten
          rw [← List.flatten_append] at whole
          exact congrArg Except.ok whole

/-- An empty text that is left out is not missed. -/
theorem ofAll_nonempty (text : Except Fault Text) (later : Except Fault (List Text)) :
    (selection.ofAll do
      let text ← text
      let chunks ← later
      return if text = [] then chunks else text :: chunks) =
      (do return (← selection.of <$> text) ++ (← selection.ofAll later)) := by
  cases text with
  | error fault => rfl
  | ok text =>
      cases later with
      | error fault => rfl
      | ok chunks =>
          have whole : selection.of (if text = [] then chunks else text :: chunks).flatten =
              selection.of text ++ selection.of chunks.flatten := by
            split_ifs with empty
            · rw [empty]
              rfl
            · exact selection.of_append text chunks.flatten
          exact congrArg Except.ok whole

end Selection

open Selection

variable {selection}

mutual

theorem of_textFromComment (noBacktick : selection.selects backtick = false) (node : Dict) :
    selection.of <$> textFromComment node = selection.ofAll (leafTexts node) := by
  by_cases isText : node.hasKind "TextComment" = true
  · rw [textFromComment, leafTexts, if_pos isText, if_pos isText]
    cases node.getText "text" "" with
    | error fault => rfl
    | ok text => exact congrArg Except.ok (congrArg selection.of (List.append_nil text).symm)
  by_cases isCommand : node.hasKind "InlineCommandComment" = true
  · rw [textFromComment, leafTexts, if_neg isText, if_neg isText, if_pos isCommand,
      if_pos isCommand]
    cases node.getList "args" with
    | error fault => rfl
    | ok args =>
        simp only [Fallible.ok_bind]
        cases commandArgs args with
        | error fault => rfl
        | ok args =>
            simp only [Fallible.ok_bind]
            split_ifs with monospaced
            · exact congrArg Except.ok
                ((selection.of_intercalate _).trans (of_quoted noBacktick args))
            · exact congrArg Except.ok (selection.of_intercalate args)
  rw [textFromComment_container isText isCommand, leafTexts_container isText isCommand]
  cases read : node.getList "inner" with
  | error fault => rfl
  | ok children =>
      simp only [Fallible.ok_bind]
      rw [← of_commentChunks noBacktick children]
      cases commentChunks children with
      | error fault => rfl
      | ok chunks =>
          have joined : selection.of (normalize (List.intercalate " " chunks)) =
              selection.of chunks.flatten := by
            rw [of_normalize, of_intercalate]
          exact congrArg Except.ok joined
termination_by (sizeOf node, 1)
decreasing_by exact lex_of_getList ‹_›

theorem of_commentChunks (noBacktick : selection.selects backtick = false)
    (children : List Json) :
    selection.ofAll (commentChunks children) = selection.ofAll (leafTextsOfAll children) := by
  cases children with
  | nil => rw [commentChunks, leafTextsOfAll]
  | cons child children =>
      have later := of_commentChunks noBacktick children
      cases child with
      | obj child =>
          rw [commentChunks, leafTextsOfAll, ofAll_append, ofAll_nonempty,
            of_textFromComment noBacktick child, later]
      | _ =>
          rw [commentChunks, leafTextsOfAll]
          · exact later
          · exact nofun
          · exact nofun
termination_by (sizeOf children, 0)

end

end Rendering

section Witness

def textNode (text : Text) : Dict := [("kind", .str "TextComment"), ("text", .str text)]

def codeNode (arg : Text) : Dict :=
  [("kind", .str "InlineCommandComment"), ("renderKind", .str "monospaced"),
    ("args", .arr [.str arg])]

def timeoutNodes : List Json :=
  [.obj (textNode " Negative  values mean"), .obj (codeNode "never,"),
    .obj (textNode " zero means \x60now\x60 .")]

def timeoutParagraph : Dict := [("kind", .str "ParagraphComment"), ("inner", .arr timeoutNodes)]

theorem textFromComment_textNode (text : Text) : textFromComment (textNode text) = .ok text := by
  rw [textFromComment]
  rfl

theorem textFromComment_codeNode (arg : Text) :
    textFromComment (codeNode arg) = .ok ("\x60".toList ++ arg ++ "\x60".toList) := by
  rw [textFromComment]
  exact congrArg Except.ok (List.append_nil _)

theorem leafTexts_textNode (text : Text) : leafTexts (textNode text) = .ok [text] := by
  rw [leafTexts]
  rfl

theorem leafTexts_codeNode (arg : Text) : leafTexts (codeNode arg) = .ok [arg] := by
  rw [leafTexts]
  rfl

theorem textFromComment_timeoutParagraph : textFromComment timeoutParagraph =
    .ok "Negative values mean \x60never\x60, zero means \x60now\x60." := by
  have read : getList timeoutParagraph "inner" = .ok timeoutNodes := rfl
  have chunks : commentChunks timeoutNodes = .ok [" Negative  values mean".toList,
      "\x60never,\x60".toList, " zero means \x60now\x60 .".toList] := by
    simp only [timeoutNodes, commentChunks, textFromComment_textNode, textFromComment_codeNode]
    rfl
  rw [textFromComment_container (by decide) (by decide), read, Fallible.ok_bind, chunks,
    Fallible.ok_bind, normalize_eq_moved]
  rfl

theorem leafTexts_timeoutParagraph : leafTexts timeoutParagraph =
    .ok [" Negative  values mean", "never,", " zero means \x60now\x60 ."] := by
  have read : getList timeoutParagraph "inner" = .ok timeoutNodes := rfl
  rw [leafTexts_container (by decide) (by decide), read, Fallible.ok_bind]
  simp only [timeoutNodes, leafTextsOfAll, leafTexts_textNode, leafTexts_codeNode]
  rfl

end Witness

/-- A rendered comment is made of what its leaves hold: with spaces and backticks set aside, it
shows the same characters in the same order. -/
theorem textFromComment_conserves {node : Dict} {text : Text}
    (rendered : textFromComment node = .ok text) :
    ∃ leaves, leafTexts node = .ok leaves ∧
      ∀ selection : Selection, selection.selects backtick = false →
        selection.of text = selection.of leaves.flatten := by
  have hidden : Selection.letters.selects backtick = false := by decide
  have whole := of_textFromComment hidden node
  rw [rendered] at whole
  cases read : leafTexts node with
  | error fault =>
      rw [read] at whole
      cases whole
  | ok leaves =>
      refine ⟨leaves, rfl, ?_⟩
      intro selection noBacktick
      have same := of_textFromComment noBacktick node
      rw [rendered, read] at same
      exact Except.ok.inj same

/-- The comma has left its code span, whose backticks are not in the leaf. -/
theorem textFromComment_conserves_timeoutParagraph :
    leafTexts timeoutParagraph =
        .ok [" Negative  values mean", "never,", " zero means \x60now\x60 ."] ∧
      ∀ selection : Selection, selection.selects backtick = false →
        selection.of "Negative values mean \x60never\x60, zero means \x60now\x60." =
          selection.of " Negative  values meannever, zero means \x60now\x60 ." := by
  obtain ⟨leaves, read, same⟩ := textFromComment_conserves textFromComment_timeoutParagraph
  rw [leafTexts_timeoutParagraph] at read
  cases read
  exact ⟨leafTexts_timeoutParagraph, same⟩

end CppCore.Ffi
