import CppCore.Library.Text

/-!
# Round brackets

Texts whose round brackets are properly nested, and the counter that recognises
them.
-/

namespace Brackets

/-- The round brackets are properly nested and balanced. -/
inductive Nested : Text → Prop where
  | nil : Nested []
  | plain {char : Char} {text : Text} :
      char ≠ '(' → char ≠ ')' → Nested text → Nested (char :: text)
  | enclosed {inner text : Text} :
      Nested inner → Nested text → Nested ('(' :: (inner ++ ')' :: text))

/-- The number of open brackets after a character, `none` if one closes that is not open. -/
def after? (depth : Nat) (char : Char) : Option Nat :=
  if char = '(' then some (depth + 1)
  else if char = ')' then if depth = 0 then none else some (depth - 1)
  else some depth

def depth? : Nat → Text → Option Nat
  | depth, [] => some depth
  | depth, char :: text => (after? depth char).bind fun depth => depth? depth text

/-- What stands before and behind the bracket that closes the last one opened. -/
def closing? : Nat → Text → Option (Text × Text)
  | _, [] => none
  | depth, char :: text =>
      if depth = 0 ∧ char = ')' then
        some ([], text)
      else
        (after? depth char).bind fun depth =>
          (closing? depth text).map fun found => (char :: found.1, found.2)

variable {depth : Nat} {char : Char} {text : Text}

theorem after?_plain (notOpen : char ≠ '(') (notClose : char ≠ ')') :
    after? depth char = some depth := by
  rw [after?, if_neg notOpen, if_neg notClose]

theorem after?_add {next : Nat} (read : after? depth char = some next) (more : Nat) :
    after? (depth + more) char = some (next + more) := by
  unfold after? at read ⊢
  split_ifs at read ⊢ <;> simp_all <;> omega

theorem depth?_append (first second : Text) :
    depth? depth (first ++ second) = (depth? depth first).bind fun inner => depth? inner second := by
  induction first generalizing depth with
  | nil => rfl
  | cons char first inductionHypothesis =>
      rw [List.cons_append, depth?, depth?, Option.bind_assoc]
      simp only [inductionHypothesis]

/-- A text without brackets opens none. -/
theorem depth?_of_plain (plain : ∀ char ∈ text, char ≠ '(' ∧ char ≠ ')') :
    depth? depth text = some depth := by
  induction text with
  | nil => rfl
  | cons char text inductionHypothesis =>
      have ⟨⟨notOpen, notClose⟩, later⟩ := List.forall_mem_cons.mp plain
      rw [depth?, after?_plain notOpen notClose, Option.bind_some, inductionHypothesis later]

/-- Further open brackets do not matter. -/
theorem depth?_add {last : Nat} (ended : depth? depth text = some last) (more : Nat) :
    depth? (depth + more) text = some (last + more) := by
  induction text generalizing depth with
  | nil =>
      cases ended
      rfl
  | cons char text inductionHypothesis =>
      obtain ⟨next, read, later⟩ := Option.bind_eq_some_iff.mp ended
      rw [depth?, after?_add read, Option.bind_some, inductionHypothesis later]

/-- The closing bracket is found where the brackets before it are nested. -/
theorem closing?_eq_some_iff {inner rest : Text} :
    closing? depth text = some (inner, rest) ↔
      text = inner ++ ')' :: rest ∧ depth? depth inner = some 0 := by
  induction text generalizing depth inner with
  | nil => simp [closing?]
  | cons char text inductionHypothesis =>
      rw [closing?]
      by_cases closes : depth = 0 ∧ char = ')'
      · obtain ⟨rfl, rfl⟩ := closes
        rw [if_pos ⟨rfl, rfl⟩, Option.some.injEq, Prod.mk.injEq]
        constructor
        · rintro ⟨rfl, rfl⟩
          exact ⟨rfl, rfl⟩
        · rintro ⟨shape, nested⟩
          cases inner with
          | nil => exact ⟨rfl, (List.cons.inj shape).2⟩
          | cons head inner =>
              rw [← (List.cons.inj shape).1] at nested
              cases nested
      · rw [if_neg closes, Option.bind_eq_some_iff]
        constructor
        · rintro ⟨next, read, found⟩
          obtain ⟨⟨before, behind⟩, foundLater, same⟩ := Option.map_eq_some_iff.mp found
          cases same
          have ⟨shape, nested⟩ := inductionHypothesis.mp foundLater
          refine ⟨by rw [shape]; rfl, ?_⟩
          rw [depth?, read]
          exact nested
        · rintro ⟨shape, nested⟩
          cases inner with
          | nil =>
              have same := List.cons.inj shape
              cases nested
              exact absurd ⟨rfl, same.1⟩ closes
          | cons head inner =>
              have ⟨sameHead, sameTail⟩ := List.cons.inj shape
              subst sameHead
              obtain ⟨next, read, nestedLater⟩ := Option.bind_eq_some_iff.mp nested
              refine ⟨next, read, ?_⟩
              rw [inductionHypothesis.mpr ⟨sameTail, nestedLater⟩]
              rfl

/-- An open bracket is closed somewhere in a text that leaves none open. -/
theorem exists_closing? (ended : depth? (depth + 1) text = some 0) :
    ∃ found, closing? depth text = some found := by
  induction text generalizing depth with
  | nil => cases ended
  | cons char text inductionHypothesis =>
      rw [closing?]
      by_cases closes : depth = 0 ∧ char = ')'
      · exact ⟨_, if_pos closes⟩
      · obtain ⟨next, read, later⟩ := Option.bind_eq_some_iff.mp ended
        have ⟨before, readBefore, same⟩ : ∃ before, after? depth char = some before ∧
            next = before + 1 := by
          unfold after? at read ⊢
          split_ifs at read ⊢ <;> simp_all
          omega
        rw [same] at later
        obtain ⟨found, closed⟩ := inductionHypothesis later
        rw [if_neg closes, readBefore, Option.bind_some, closed]
        exact ⟨_, rfl⟩

/-- Reading a pair of brackets is reading what follows it. -/
theorem depth?_enclosed {inner : Text} (nested : depth? 0 inner = some 0) (rest : Text) :
    depth? depth ('(' :: (inner ++ ')' :: rest)) = depth? depth rest := by
  have opened : depth? (depth + 1) inner = some (depth + 1) := by
    have more := depth?_add nested (depth + 1)
    rwa [Nat.zero_add] at more
  have read : depth? depth ('(' :: (inner ++ ')' :: rest)) =
      depth? (depth + 1) (inner ++ ')' :: rest) := rfl
  rw [read, depth?_append, opened]
  rfl

theorem Nested.depth? (nested : Nested text) : depth? 0 text = some 0 := by
  induction nested with
  | nil => rfl
  | plain notOpen notClose _ inductionHypothesis =>
      rw [Brackets.depth?, after?_plain notOpen notClose]
      exact inductionHypothesis
  | enclosed _ _ innerHypothesis inductionHypothesis =>
      rw [depth?_enclosed innerHypothesis, inductionHypothesis]

theorem nested_of_depth? {text : Text} (ended : depth? 0 text = some 0) : Nested text := by
  -- Strong induction: both the inside of a pair of brackets and the rest behind it are shorter.
  induction size : text.length using Nat.strong_induction_on generalizing text with
  | _ size inductionHypothesis =>
      cases text with
      | nil => exact .nil
      | cons char text =>
          rw [List.length_cons] at size
          by_cases opens : char = '('
          · subst opens
            obtain ⟨⟨inner, rest⟩, closed⟩ := exists_closing? ended
            have ⟨shape, nested⟩ := closing?_eq_some_iff.mp closed
            rw [shape, depth?_enclosed nested] at ended
            rw [shape, List.length_append, List.length_cons] at size
            rw [shape]
            exact .enclosed (inductionHypothesis inner.length (by omega) nested rfl)
              (inductionHypothesis rest.length (by omega) ended rfl)
          · by_cases closes : char = ')'
            · subst closes
              cases ended
            · rw [depth?, after?_plain opens closes] at ended
              exact .plain opens closes (inductionHypothesis text.length (by omega) ended rfl)

/-- The counter recognises the properly nested texts. -/
theorem nested_iff : Nested text ↔ depth? 0 text = some 0 :=
  ⟨Nested.depth?, nested_of_depth?⟩

instance : DecidablePred Nested := fun _ => decidable_of_iff _ nested_iff.symm

theorem Nested.append {first second : Text} (firstNested : Nested first)
    (secondNested : Nested second) : Nested (first ++ second) := by
  rw [nested_iff, depth?_append, nested_iff.mp firstNested]
  exact nested_iff.mp secondNested

theorem nested_intercalate {separator : Text} (separates : Nested separator) {parts : List Text}
    (nested : ∀ part ∈ parts, Nested part) : Nested (List.intercalate separator parts) :=
  Text.intercalate_induction Nested nested (fun _ => .nil) fun _ _ firstNested restNested =>
    (firstNested.append separates).append restNested

/-- Spaces around a text are no brackets. -/
theorem nested_strip_iff : Nested (Text.strip text) ↔ Nested text := by
  have plain : ∀ char, Text.isSpace char = true → char ≠ '(' ∧ char ≠ ')' := by
    rintro char space
    constructor <;> rintro rfl <;> exact absurd space (by decide)
  obtain ⟨before, behind, shape, allBefore, allBehind⟩ := Text.exists_strip text
  have readBefore : depth? 0 before = some 0 :=
    depth?_of_plain fun char membership => plain char (allBefore char membership)
  have readBehind : ∀ depth, depth? depth behind = some depth := fun depth =>
    depth?_of_plain fun char membership => plain char (allBehind char membership)
  have read : depth? 0 text = depth? 0 (Text.strip text) := by
    calc depth? 0 text = depth? 0 (before ++ Text.strip text ++ behind) := congrArg _ shape
      _ = (depth? 0 (Text.strip text)).bind fun inner => depth? inner behind := by
          rw [depth?_append, depth?_append, readBefore]
          rfl
      _ = depth? 0 (Text.strip text) := by
          simp only [readBehind]
          exact Option.bind_fun_some _
  rw [nested_iff, nested_iff, read]

end Brackets
