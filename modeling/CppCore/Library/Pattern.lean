import CppCore.Library.Text

/-!
# Backtracking patterns

A pattern lists its matches at the start of a text in the order in which a
backtracking engine tries them, each with the text that is left.  The match of
the pattern is the first of the list.
-/

def Pattern (α : Type) := Text → List (α × Text)

namespace Pattern

variable {α β : Type}

def bind (first : Pattern α) (next : α → Pattern β) : Pattern β := fun text =>
  (first text).flatMap fun found => next found.1 found.2

instance : Monad Pattern where
  pure value := fun text => [(value, text)]
  bind := bind

def literal (expected : Text) : Pattern Unit := fun text =>
  if expected.isPrefixOf text then [((), text.drop expected.length)] else []

/-- `$`: the end of the text, or the newline that ends it. -/
def endOfText : Pattern Unit := fun text =>
  if text = [] ∨ text = ['\n'] then [((), text)] else []

def oneOf (accepts : Char → Bool) : Pattern Char
  | [] => []
  | char :: text => if accepts char then [(char, text)] else []

/-- The ways to take accepted characters from the start, shortest first. -/
def spans (accepts : Char → Bool) : Text → List (Text × Text)
  | [] => [([], [])]
  | char :: text =>
      ([], char :: text) ::
        if accepts char then
          (spans accepts text).map fun found => (char :: found.1, found.2)
        else
          []

/-- `*?` -/
def lazyMany (accepts : Char → Bool) : Pattern Text := spans accepts

/-- `*` -/
def greedyMany (accepts : Char → Bool) : Pattern Text := fun text =>
  (spans accepts text).reverse

/-- `+?` -/
def lazySome (accepts : Char → Bool) : Pattern Text := do
  let char ← oneOf accepts
  let rest ← lazyMany accepts
  return char :: rest

/-- `+` -/
def greedySome (accepts : Char → Bool) : Pattern Text := do
  let char ← oneOf accepts
  let rest ← greedyMany accepts
  return char :: rest

/-- `re.match` -/
def first (pattern : Pattern α) (text : Text) : Option α :=
  (pattern text).head?.map Prod.fst

/-- `re.sub`, for patterns that never match the empty text. -/
def substitute (pattern : Pattern α) (replacement : α → Text) : Text → Text
  | [] => []
  | char :: text =>
      match (pattern (char :: text)).head? with
      | some (value, rest) =>
          if rest.length ≤ text.length then
            replacement value ++ substitute pattern replacement rest
          else
            char :: substitute pattern replacement text
      | none => char :: substitute pattern replacement text
termination_by text => text.length
decreasing_by all_goals (simp only [List.length_cons]; omega)

@[simp]
theorem bind_apply (start : Pattern α) (next : α → Pattern β) (text : Text) :
    (start >>= next) text = (start text).flatMap fun found => next found.1 found.2 := rfl

@[simp]
theorem pure_apply (value : α) (text : Text) : (pure value : Pattern α) text = [(value, text)] :=
  rfl

theorem mem_literal {expected text rest : Text} :
    ((), rest) ∈ literal expected text ↔ text = expected ++ rest := by
  unfold literal
  by_cases starts : expected.isPrefixOf text = true
  · rcases List.isPrefixOf_iff_prefix.mp starts with ⟨tail, rfl⟩
    rw [if_pos starts, List.drop_left, List.mem_singleton, Prod.mk.injEq, List.append_cancel_left_eq]
    exact ⟨fun found => found.2.symm, fun same => ⟨rfl, same.symm⟩⟩
  · rw [if_neg starts]
    constructor
    · intro found
      cases found
    · intro shape
      exact absurd (List.isPrefixOf_iff_prefix.mpr ⟨rest, shape.symm⟩) starts

theorem literal_bind_append (expected : Text) (next : Unit → Pattern β) (text : Text) :
    (literal expected >>= next) (expected ++ text) = next () text := by
  have starts : expected.isPrefixOf (expected ++ text) = true :=
    List.isPrefixOf_iff_prefix.mpr (List.prefix_append _ _)
  rw [bind_apply, literal, if_pos starts, List.drop_left]
  exact List.append_nil _

theorem mem_oneOf {accepts : Char → Bool} {text rest : Text} {char : Char} :
    (char, rest) ∈ oneOf accepts text ↔ text = char :: rest ∧ accepts char = true := by
  cases text with
  | nil => simp [oneOf]
  | cons first text =>
      rw [oneOf]
      split_ifs with accepted
      · rw [List.mem_singleton, Prod.mk.injEq, List.cons.injEq]
        constructor
        · rintro ⟨rfl, rfl⟩
          exact ⟨⟨rfl, rfl⟩, accepted⟩
        · rintro ⟨⟨rfl, rfl⟩, _⟩
          exact ⟨rfl, rfl⟩
      · constructor
        · intro found
          cases found
        · rintro ⟨shape, acceptedChar⟩
          cases shape
          exact absurd acceptedChar accepted

theorem mem_endOfText {text rest : Text} :
    ((), rest) ∈ endOfText text ↔ rest = text ∧ (text = [] ∨ text = ['\n']) := by
  unfold endOfText
  by_cases ended : text = [] ∨ text = ['\n']
  · rw [if_pos ended]
    simp [ended]
  · rw [if_neg ended]
    simp [ended]

theorem mem_spans {accepts : Char → Bool} {text taken rest : Text} :
    (taken, rest) ∈ spans accepts text ↔
      text = taken ++ rest ∧ ∀ char ∈ taken, accepts char = true := by
  induction text generalizing taken with
  | nil =>
      rw [spans, List.mem_singleton, Prod.mk.injEq]
      constructor
      · rintro ⟨rfl, rfl⟩
        simp
      · intro shape
        have empty := List.append_eq_nil_iff.mp shape.1.symm
        exact empty
  | cons char text inductionHypothesis =>
      rw [spans, List.mem_cons]
      cases taken with
      | nil =>
          constructor
          · intro found
            rcases found with isNil | inRest
            · cases isNil
              simp
            · by_cases accepted : accepts char = true
              · simp [accepted] at inRest
              · simp [accepted] at inRest
          · intro shape
            rw [shape.1]
            exact .inl rfl
      | cons head tail =>
          by_cases accepted : accepts char = true
          · simp only [accepted, if_true, List.mem_map, Prod.mk.injEq, List.cons.injEq,
              reduceCtorEq, false_and, false_or, List.cons_append]
            constructor
            · intro found
              rcases found with ⟨⟨taken, left⟩, found, ⟨rfl, rfl⟩, rfl⟩
              have ⟨shape, all⟩ := inductionHypothesis.mp found
              exact ⟨⟨rfl, shape⟩, List.forall_mem_cons.mpr ⟨accepted, all⟩⟩
            · intro ⟨⟨sameHead, shape⟩, all⟩
              subst sameHead
              have found := inductionHypothesis.mpr ⟨shape, (List.forall_mem_cons.mp all).2⟩
              exact ⟨(tail, rest), found, ⟨rfl, rfl⟩, rfl⟩
          · simp only [accepted, if_false, List.not_mem_nil, or_false, Prod.mk.injEq, reduceCtorEq,
              false_and, false_iff, List.cons_append, List.cons.injEq, Bool.false_eq_true]
            intro ⟨⟨sameHead, _⟩, all⟩
            subst sameHead
            exact accepted (all char List.mem_cons_self)

theorem mem_greedyMany {accepts : Char → Bool} {text taken rest : Text} :
    (taken, rest) ∈ greedyMany accepts text ↔
      text = taken ++ rest ∧ ∀ char ∈ taken, accepts char = true := by
  rw [greedyMany, List.mem_reverse, mem_spans]

theorem mem_lazySome {accepts : Char → Bool} {text taken rest : Text} :
    (taken, rest) ∈ lazySome accepts text ↔
      text = taken ++ rest ∧ taken ≠ [] ∧ ∀ char ∈ taken, accepts char = true := by
  cases text with
  | nil =>
      constructor
      · intro found
        cases found
      · intro shape
        exact absurd (List.append_eq_nil_iff.mp shape.1.symm).1 shape.2.1
  | cons char text =>
      by_cases accepted : accepts char = true
      · simp only [lazySome, bind_apply, oneOf, if_pos accepted, List.flatMap_cons, List.flatMap_nil,
          List.append_nil, List.mem_flatMap, pure_apply, List.mem_singleton, Prod.mk.injEq]
        constructor
        · intro ⟨⟨tail, left⟩, found, sameTaken, sameRest⟩
          have ⟨shape, all⟩ := mem_spans.mp found
          rw [sameTaken, sameRest, shape]
          exact ⟨rfl, List.cons_ne_nil _ _, List.forall_mem_cons.mpr ⟨accepted, all⟩⟩
        · intro ⟨shape, nonempty, all⟩
          cases taken with
          | nil => exact absurd rfl nonempty
          | cons head tail =>
              rw [List.cons_append, List.cons.injEq] at shape
              refine ⟨(tail, rest), mem_spans.mpr ⟨shape.2, ?_⟩, by rw [shape.1], rfl⟩
              exact (List.forall_mem_cons.mp all).2
      · simp only [lazySome, bind_apply, oneOf, if_neg accepted, List.flatMap_nil,
          List.not_mem_nil, false_iff]
        intro ⟨shape, nonempty, all⟩
        cases taken with
        | nil => exact nonempty rfl
        | cons head tail =>
            rw [List.cons_append, List.cons.injEq] at shape
            rw [shape.1] at accepted
            exact accepted (all head List.mem_cons_self)

/-- A lazy repetition takes what is accepted until the rest of the pattern can match. -/
theorem lazyMany_bind_append {accepts : Char → Bool} (next : Text → Pattern β) {before : Text}
    (after : Text) (accepted : ∀ char ∈ before, accepts char = true)
    (fails : ∀ taken tail, before = taken ++ tail → tail ≠ [] → next taken (tail ++ after) = []) :
    (lazyMany accepts >>= next) (before ++ after) =
      (lazyMany accepts >>= fun taken => next (before ++ taken)) after := by
  induction before generalizing next with
  | nil => rfl
  | cons char before inductionHypothesis =>
      have failsHere : next [] (char :: (before ++ after)) = [] :=
        fails [] (char :: before) rfl (by simp)
      have acceptedHere : accepts char = true := accepted char List.mem_cons_self
      have later := inductionHypothesis (fun taken => next (char :: taken))
        (fun inner membership => accepted inner (List.mem_cons_of_mem _ membership))
        (fun taken tail shape nonempty => fails (char :: taken) tail (by simp [shape]) nonempty)
      rw [bind_apply, lazyMany, List.cons_append, spans, List.flatMap_cons, failsHere,
        List.nil_append, if_pos acceptedHere, List.flatMap_map]
      exact later

/-- A lazy repetition can stop at once. -/
theorem lazyMany_bind_head {accepts : Char → Bool} {next : Text → Pattern β} {text : Text}
    {found : β × Text} (stops : (next [] text).head? = some found) :
    ((lazyMany accepts >>= next) text).head? = some found := by
  rw [bind_apply, lazyMany]
  cases text <;> simp [spans, stops]

theorem lazySome_bind {accepts : Char → Bool} (next : Text → Pattern β) {char : Char}
    (accepted : accepts char = true) (text : Text) :
    (lazySome accepts >>= next) (char :: text) =
      (lazyMany accepts >>= fun taken => next (char :: taken)) text := by
  simp only [lazySome, oneOf, bind_apply, if_pos accepted, List.flatMap_cons, List.flatMap_nil,
    List.append_nil, pure_apply, List.flatMap_assoc]

/-- A lazy repetition ends where the rest of the pattern first matches. -/
theorem lazySome_bind_head {accepts : Char → Bool} {next : Text → Pattern β} {char : Char}
    {before after : Text} {found : β × Text}
    (accepted : ∀ inner ∈ char :: before, accepts inner = true)
    (fails : ∀ taken tail, before = taken ++ tail → tail ≠ [] →
      next (char :: taken) (tail ++ after) = [])
    (continues : (next (char :: before) after).head? = some found) :
    ((lazySome accepts >>= next) (char :: (before ++ after))).head? = some found := by
  have ⟨acceptedHere, acceptedLater⟩ := List.forall_mem_cons.mp accepted
  rw [lazySome_bind next acceptedHere,
    lazyMany_bind_append (fun taken => next (char :: taken)) after acceptedLater fails]
  apply lazyMany_bind_head
  rw [List.append_nil]
  exact continues

theorem spans_maximal {accepts : Char → Bool} {before after : Text}
    (accepted : ∀ char ∈ before, accepts char = true)
    (ends : ∀ char ∈ after.head?, accepts char = false) :
    ∃ shorter, spans accepts (before ++ after) = shorter ++ [(before, after)] := by
  induction before with
  | nil =>
      cases after with
      | nil => exact ⟨[], rfl⟩
      | cons char after =>
          have rejected : accepts char = false := ends char rfl
          exact ⟨[], by simp [spans, rejected]⟩
  | cons char before inductionHypothesis =>
      have acceptedHere : accepts char = true := accepted char List.mem_cons_self
      rcases inductionHypothesis
        (fun inner membership => accepted inner (List.mem_cons_of_mem _ membership)) with
        ⟨shorter, shape⟩
      refine ⟨([], char :: (before ++ after)) ::
        shorter.map fun found => (char :: found.1, found.2), ?_⟩
      rw [List.cons_append, spans, if_pos acceptedHere, shape, List.map_append]
      rfl

/-- A greedy repetition takes all that is accepted. -/
theorem greedyMany_bind_head {accepts : Char → Bool} {next : Text → Pattern β}
    {before after : Text} {found : β × Text} (accepted : ∀ char ∈ before, accepts char = true)
    (ends : ∀ char ∈ after.head?, accepts char = false)
    (continues : (next before after).head? = some found) :
    ((greedyMany accepts >>= next) (before ++ after)).head? = some found := by
  rcases spans_maximal accepted ends with ⟨shorter, shape⟩
  simp [greedyMany, shape, continues]

theorem spans_concat {accepts : Char → Bool} {before : Text} {char : Char}
    (accepted : ∀ inner ∈ before ++ [char], accepts inner = true) :
    ∃ shorter, spans accepts (before ++ [char]) =
      shorter ++ [(before, [char]), (before ++ [char], [])] := by
  induction before with
  | nil =>
      have acceptedHere : accepts char = true := accepted char List.mem_cons_self
      exact ⟨[], by simp [spans, acceptedHere]⟩
  | cons first before inductionHypothesis =>
      have ⟨acceptedHere, acceptedLater⟩ := List.forall_mem_cons.mp accepted
      obtain ⟨shorter, shape⟩ := inductionHypothesis acceptedLater
      refine ⟨([], first :: (before ++ [char])) ::
        shorter.map fun found => (first :: found.1, found.2), ?_⟩
      rw [List.cons_append, spans, if_pos acceptedHere, shape, List.map_append]
      rfl

/-- A greedy repetition gives the last character back when the rest of the pattern needs it. -/
theorem greedyMany_bind_concat {accepts : Char → Bool} {next : Text → Pattern β}
    {before : Text} {char : Char} {found : β × Text}
    (accepted : ∀ inner ∈ before ++ [char], accepts inner = true)
    (fails : next (before ++ [char]) [] = [])
    (continues : (next before [char]).head? = some found) :
    ((greedyMany accepts >>= next) (before ++ [char])).head? = some found := by
  obtain ⟨shorter, shape⟩ := spans_concat accepted
  simp [greedyMany, shape, fails, continues]

theorem mem_greedySome {accepts : Char → Bool} {text taken rest : Text} :
    (taken, rest) ∈ greedySome accepts text ↔
      text = taken ++ rest ∧ taken ≠ [] ∧ ∀ char ∈ taken, accepts char = true := by
  have reversed : (taken, rest) ∈ greedySome accepts text ↔ (taken, rest) ∈ lazySome accepts text := by
    simp only [greedySome, lazySome, bind_apply, List.mem_flatMap, greedyMany, List.mem_reverse]
    rfl
  rw [reversed, mem_lazySome]

theorem greedySome_head {accepts : Char → Bool} {char : Char} {before after : Text}
    (accepted : ∀ inner ∈ char :: before, accepts inner = true)
    (ends : ∀ next ∈ after.head?, accepts next = false) :
    (greedySome accepts (char :: (before ++ after))).head? = some (char :: before, after) := by
  have ⟨acceptedHere, acceptedLater⟩ := List.forall_mem_cons.mp accepted
  have taken : ((greedyMany accepts >>= fun rest => (pure (char :: rest) : Pattern Text))
      (before ++ after)).head? = some (char :: before, after) :=
    greedyMany_bind_head acceptedLater ends rfl
  simp only [greedySome, oneOf, bind_apply, if_pos acceptedHere, List.flatMap_cons,
    List.flatMap_nil, List.append_nil]
  exact taken

section Substitute

variable {pattern : Pattern α} {replacement : α → Text} {char : Char} {text : Text}

theorem substitute_unmatched (unmatched : (pattern (char :: text)).head? = none) :
    substitute pattern replacement (char :: text) =
      char :: substitute pattern replacement text := by
  rw [substitute]
  split
  · rename_i matched
    rw [unmatched] at matched
    cases matched
  · rfl

theorem substitute_matched {value : α} {rest : Text}
    (matched : (pattern (char :: text)).head? = some (value, rest))
    (shorter : rest.length ≤ text.length) :
    substitute pattern replacement (char :: text) =
      replacement value ++ substitute pattern replacement rest := by
  rw [substitute]
  split
  · rename_i found
    rw [matched] at found
    cases found
    rw [if_pos shorter]
  · rename_i unmatched
    rw [matched] at unmatched
    cases unmatched

/-- A function that does what the pattern says at every position is the substitution. -/
theorem substitute_eq {rewrites : Text → Text} (empty : rewrites [] = [])
    (unmatched : ∀ {char text}, (pattern (char :: text)).head? = none →
      rewrites (char :: text) = char :: rewrites text)
    (matched : ∀ {char text value rest}, (pattern (char :: text)).head? = some (value, rest) →
      rest.length ≤ text.length ∧
        rewrites (char :: text) = replacement value ++ rewrites rest) (text : Text) :
    substitute pattern replacement text = rewrites text := by
  induction size : text.length using Nat.strong_induction_on generalizing text with
  | _ size inductionHypothesis =>
      cases text with
      | nil => rw [substitute, empty]
      | cons char text =>
          rw [List.length_cons] at size
          cases found : (pattern (char :: text)).head? with
          | none =>
              rw [substitute_unmatched found, unmatched found,
                inductionHypothesis text.length (by omega) text rfl]
          | some parts =>
              obtain ⟨value, rest⟩ := parts
              have ⟨shorter, same⟩ := matched found
              rw [substitute_matched found shorter, same,
                inductionHypothesis rest.length (by omega) rest rfl]

end Substitute

end Pattern
