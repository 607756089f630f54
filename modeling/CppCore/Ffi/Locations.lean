import CppCore.Ffi.Reducer

/-!
# Declaring headers

clang names a file only where it changes from one written location to the next.
The reducer reads each node alone and falls back to the includer.
-/

namespace CppCore.Ffi

open Dict Fallible

abbrev FileName := { name : Text // name ≠ [] }

structure Position where
  file : FileName
  includer : Option FileName

inductive Location where
  | bare (position : Position)
  | inMacro (spelling expansion : Position)

/-- The position that is written last. -/
def Location.final : Location → Position
  | .bare position => position
  | .inMacro _ expansion => expansion

structure Child where
  kind : Text
  fields : Dict
  range : Option (Location × Location)

structure Declaration where
  name : Text
  loc : Location
  rangeBegin : Location
  rangeEnd : Location
  fields : Dict
  children : List Child

namespace Declaration

/-- The file in which the declaration appears. -/
def file (declaration : Declaration) : FileName := declaration.rangeBegin.final.file

end Declaration

/-! ## The writer -/

/-- The `file` key is left out in the file of the last written location. -/
def writeFile (last : Option FileName) (file : FileName) : Dict :=
  if last = some file then [] else [("file", .str file)]

def writeBare (last : Option FileName) (position : Position) : Dict :=
  writeFile last position.file ++
    match position.includer with
    | none => []
    | some includer => [("includedFrom", .obj [("file", .str includer)])]

def writeLocation (last : Option FileName) : Location → Dict
  | .bare position => writeBare last position
  | .inMacro spelling expansion =>
      [("spellingLoc", .obj (writeBare last spelling)),
        ("expansionLoc", .obj (writeBare spelling.file expansion))]

def writeRange (last : Option FileName) (rangeBegin rangeEnd : Location) : Dict :=
  [("begin", .obj (writeLocation last rangeBegin)),
    ("end", .obj (writeLocation rangeBegin.final.file rangeEnd))]

/-- The children in order, and the file of the last location. -/
def writeChildren (last : Option FileName) : List Child → List Json × Option FileName
  | [] => ([], last)
  | child :: children =>
      match child.range with
      | none =>
          let rest := writeChildren last children
          (.obj (("kind", .str child.kind) :: child.fields) :: rest.1, rest.2)
      | some (rangeBegin, rangeEnd) =>
          let rest := writeChildren rangeEnd.final.file children
          (.obj (("kind", .str child.kind) ::
            ("range", .obj (writeRange last rangeBegin rangeEnd)) :: child.fields) :: rest.1, rest.2)

def writeDeclaration (last : Option FileName) (declaration : Declaration) :
    Dict × Option FileName :=
  let written := writeChildren declaration.rangeEnd.final.file declaration.children
  (("kind", .str "FunctionDecl") ::
    ("loc", .obj (writeLocation last declaration.loc)) ::
    ("range", .obj
      (writeRange declaration.loc.final.file declaration.rangeBegin declaration.rangeEnd)) ::
    ("name", .str declaration.name) ::
    ("inner", .arr written.1) :: declaration.fields, written.2)

def writeDeclarations (last : Option FileName) : List Declaration → List Dict
  | [] => []
  | declaration :: declarations =>
      let written := writeDeclaration last declaration
      written.1 :: writeDeclarations written.2 declarations

/-! ## What a location shows -/

/-- The `file` key of a position. -/
def Position.shown (last : Option FileName) (position : Position) : Option FileName :=
  if last = some position.file then none else some position.file

namespace Location

def shown (last : Option FileName) : Location → Option FileName
  | .bare position => position.shown last
  | .inMacro _ _ => none

def shownExpansion : Location → Option FileName
  | .bare _ => none
  | .inMacro spelling expansion => expansion.shown spelling.file

def shownSpelling (last : Option FileName) : Location → Option FileName
  | .bare _ => none
  | .inMacro spelling _ => spelling.shown last

def includer : Location → Option FileName
  | .bare position => position.includer
  | .inMacro _ _ => none

end Location

section Reading

variable (last : Option FileName) (position : Position) (location : Location)

def fileValue : Option FileName → Json
  | none => .null
  | some file => .str file

def includerValue : Option FileName → Json
  | none => .null
  | some includer => .obj [("file", .str includer)]

theorem get_file_writeBare :
    (writeBare last position).get "file" = fileValue (position.shown last) := by
  unfold writeBare writeFile Position.shown
  by_cases same : last = some position.file
  · rw [if_pos same, if_pos same]
    cases position.includer <;> rfl
  · rw [if_neg same, if_neg same]
    rfl

theorem get_includedFrom_writeBare :
    (writeBare last position).get "includedFrom" = includerValue position.includer := by
  unfold writeBare writeFile
  by_cases same : last = some position.file
  · rw [if_pos same]
    cases position.includer <;> rfl
  · rw [if_neg same]
    cases position.includer <;> rfl

theorem get_writeBare {key : Text} (notFile : key ≠ "file".toList)
    (notIncludedFrom : key ≠ "includedFrom".toList) :
    (writeBare last position).get key = .null := by
  have noFile : (key == "file".toList) = false := beq_false_of_ne notFile
  have noIncludedFrom : (key == "includedFrom".toList) = false := beq_false_of_ne notIncludedFrom
  unfold writeBare writeFile Dict.get
  by_cases same : last = some position.file
  · rw [if_pos same]
    cases position.includer with
    | none => rfl
    | some includer =>
        rw [List.nil_append, List.lookup_cons, noIncludedFrom]
        rfl
  · rw [if_neg same]
    cases position.includer with
    | none =>
        rw [List.append_nil, List.lookup_cons, noFile]
        rfl
    | some includer =>
        rw [List.cons_append, List.nil_append, List.lookup_cons, noFile]
        dsimp only
        rw [List.lookup_cons, noIncludedFrom]
        rfl

/-- What `first_file` finds in a candidate. -/
def Shows (candidate : Json) (file : Option FileName) : Prop :=
  ∀ candidates, firstFile (candidate :: candidates) =
    match file with
    | none => firstFile candidates
    | some file => .ok (some file)

theorem shows_null : Shows .null none := fun _ => rfl

theorem shows_of_get_file {candidate : Dict} {file : Option FileName}
    (read : candidate.get "file" = fileValue file) : Shows (.obj candidate) file := by
  intro candidates
  cases file with
  | none =>
      rw [firstFile, read]
      rfl
  | some file =>
      rcases file with ⟨name, named⟩
      cases name with
      | nil => exact absurd rfl named
      | cons first name =>
          rw [firstFile, read]
          rfl

theorem shows_bare : Shows (.obj (writeBare last position)) (position.shown last) :=
  shows_of_get_file (get_file_writeBare last position)

theorem shows_location : Shows (.obj (writeLocation last location)) (location.shown last) := by
  cases location with
  | bare position => exact shows_bare last position
  | inMacro spelling expansion => exact shows_of_get_file rfl

theorem shows_expansionLoc :
    Shows ((writeLocation last location).get "expansionLoc") location.shownExpansion := by
  cases location with
  | bare position =>
      rw [writeLocation, get_writeBare last position (by decide) (by decide)]
      exact shows_null
  | inMacro spelling expansion => exact shows_bare spelling.file expansion

theorem shows_spellingLoc :
    Shows ((writeLocation last location).get "spellingLoc") (location.shownSpelling last) := by
  cases location with
  | bare position =>
      rw [writeLocation, get_writeBare last position (by decide) (by decide)]
      exact shows_null
  | inMacro spelling expansion => exact shows_bare last spelling

theorem shows_includedFrom :
    Shows ((writeLocation last location).get "includedFrom") location.includer := by
  cases location with
  | bare position =>
      rw [writeLocation, get_includedFrom_writeBare, Location.includer]
      cases position.includer with
      | none => exact shows_null
      | some includer => exact shows_of_get_file rfl
  | inMacro spelling expansion => exact shows_null

end Reading

theorem firstFile_eq {candidates : List Json} {files : List (Option FileName)}
    (shows : List.Forall₂ Shows candidates files) :
    firstFile candidates = .ok ((files.foldr Option.or none).map Subtype.val) := by
  induction shows with
  | nil => rfl
  | cons shows _ inductionHypothesis =>
      rename_i file candidates files _
      rw [shows]
      cases file with
      | none => simpa using inductionHypothesis
      | some file => rfl

/-- The files that the fallback chain reads, in its order. -/
def Declaration.shownFiles (last : Option FileName) (declaration : Declaration) :
    List (Option FileName) :=
  [declaration.rangeBegin.shownExpansion,
    declaration.rangeBegin.shownSpelling declaration.loc.final.file,
    declaration.loc.shown last,
    declaration.rangeBegin.shown declaration.loc.final.file,
    declaration.rangeEnd.shown declaration.file,
    declaration.loc.includer, declaration.rangeBegin.includer, declaration.rangeEnd.includer]

theorem declarationFile_writeDeclaration (last : Option FileName) (declaration : Declaration) :
    declarationFile (writeDeclaration last declaration).1 =
      .ok (((declaration.shownFiles last).foldr Option.or none).map Subtype.val) := by
  have chain := firstFile_eq (.cons (shows_expansionLoc declaration.loc.final.file declaration.rangeBegin)
    (.cons (shows_spellingLoc declaration.loc.final.file declaration.rangeBegin)
    (.cons (shows_location last declaration.loc)
    (.cons (shows_location declaration.loc.final.file declaration.rangeBegin)
    (.cons (shows_location declaration.file declaration.rangeEnd)
    (.cons (shows_includedFrom last declaration.loc)
    (.cons (shows_includedFrom declaration.loc.final.file declaration.rangeBegin)
    (.cons (shows_includedFrom declaration.file declaration.rangeEnd) .nil))))))))
  exact chain

/-! ## The declarations whose file is recovered -/

/-- The location is bare and lies in another file than the location before it. -/
def Location.Changes (last : Option FileName) : Location → Prop
  | .bare position => last ≠ some position.file
  | .inMacro _ _ => False

/-- No bare end names another file, and the first includer that is named is the declaring
file: the file includes itself. -/
def Declaration.IncludedByItself (declaration : Declaration) : Prop :=
  ¬ declaration.rangeEnd.Changes declaration.file ∧
    declaration.loc.includer.or (declaration.rangeBegin.includer.or declaration.rangeEnd.includer) =
      some declaration.file

/-- The file key that the reducer meets first is that of the declaring file. -/
def Declaration.Recoverable (last : Option FileName) (declaration : Declaration) : Prop :=
  match declaration.rangeBegin with
  | .inMacro spelling expansion =>
      expansion.file ≠ spelling.file ∨ declaration.loc.final.file ≠ spelling.file ∨
        declaration.loc.Changes last ∨ declaration.IncludedByItself
  | .bare position =>
      (declaration.loc.Changes last ∧ declaration.loc.final.file = position.file) ∨
        (¬ declaration.loc.Changes last ∧
          (declaration.loc.final.file ≠ position.file ∨ declaration.IncludedByItself))

theorem Position.shown_of_ne {file : FileName} {position : Position}
    (different : file ≠ position.file) : position.shown file = some position.file := by
  unfold Position.shown
  rw [if_neg fun same => different (Option.some.inj same)]

theorem Position.shown_of_eq {file : FileName} {position : Position}
    (same : file = position.file) : position.shown file = none := by
  unfold Position.shown
  rw [if_pos (congrArg some same)]

theorem Location.shown_bare (last : Option FileName) (position : Position) :
    (Location.bare position).shown last = position.shown last := rfl

theorem Location.shown_inMacro (last : Option FileName) (spelling expansion : Position) :
    (Location.inMacro spelling expansion).shown last = none := rfl

theorem Location.shown_of_changes {last : Option FileName} {location : Location}
    (changes : location.Changes last) : location.shown last = some location.final.file := by
  cases location with
  | bare position => exact if_neg changes
  | inMacro spelling expansion => exact False.elim changes

theorem Location.shown_of_not_changes {last : Option FileName} {location : Location}
    (same : ¬ location.Changes last) : location.shown last = none := by
  cases location with
  | bare position => exact if_pos (not_not.mp same)
  | inMacro spelling expansion => rfl

/-- When neither the beginning nor `loc` shows a file, the rest of the chain is right only in a
file that includes itself. -/
theorem Declaration.rest_eq_iff (declaration : Declaration) :
    (declaration.rangeEnd.shown declaration.file).or (declaration.loc.includer.or
        (declaration.rangeBegin.includer.or declaration.rangeEnd.includer)) =
      some declaration.file ↔ declaration.IncludedByItself := by
  unfold IncludedByItself
  by_cases changes : declaration.rangeEnd.Changes declaration.file
  · have different : declaration.rangeEnd.final.file ≠ declaration.file := by
      intro same
      cases shape : declaration.rangeEnd with
      | bare position =>
          rw [shape] at changes same
          exact changes (congrArg some same.symm)
      | inMacro spelling expansion =>
          rw [shape] at changes
          exact changes
    rw [Location.shown_of_changes changes, Option.some_or]
    constructor
    · intro same
      exact absurd (Option.some.inj same) different
    · intro included
      exact absurd changes included.1
  · rw [Location.shown_of_not_changes changes, Option.none_or]
    exact (and_iff_right changes).symm

theorem Declaration.shownFiles_eq_iff (last : Option FileName) (declaration : Declaration) :
    (declaration.shownFiles last).foldr Option.or none = some declaration.file ↔
      declaration.Recoverable last := by
  have rest := declaration.rest_eq_iff
  simp only [shownFiles, List.foldr_cons, List.foldr_nil, Option.or_none]
  unfold Recoverable
  cases shape : declaration.rangeBegin with
  | bare position =>
      rw [shape] at rest
      have file : declaration.file = position.file := by
        unfold Declaration.file
        rw [shape]
        rfl
      simp only [Location.shownExpansion, Location.shownSpelling, Location.shown_bare, Option.none_or]
      by_cases changes : declaration.loc.Changes last
      · rw [Location.shown_of_changes changes, Option.some_or, Option.some.injEq, file]
        simp [changes]
      · rw [Location.shown_of_not_changes changes, Option.none_or]
        by_cases same : declaration.loc.final.file = position.file
        · rw [Position.shown_of_eq same, Option.none_or, rest]
          simp [changes, same]
        · rw [Position.shown_of_ne same, Option.some_or, file]
          simp [changes, same]
  | inMacro spelling expansion =>
      rw [shape] at rest
      have file : declaration.file = expansion.file := by
        unfold Declaration.file
        rw [shape]
        rfl
      simp only [Location.shownExpansion, Location.shownSpelling, Location.shown_inMacro]
      by_cases sameMacro : expansion.file = spelling.file
      · rw [Position.shown_of_eq sameMacro.symm, Option.none_or]
        by_cases same : declaration.loc.final.file = spelling.file
        · -- Neither half of the macro location names a file: only `loc` can.
          rw [Position.shown_of_eq same, Option.none_or]
          by_cases changes : declaration.loc.Changes last
          · rw [Location.shown_of_changes changes, Option.some_or, Option.some.injEq, file, same]
            simp [changes, sameMacro]
          · rw [Location.shown_of_not_changes changes, Option.none_or, Option.none_or, rest]
            simp [changes, same, sameMacro]
        · rw [Position.shown_of_ne same, Option.some_or, file]
          simp [same, sameMacro]
      · rw [Position.shown_of_ne (Ne.symm sameMacro), Option.some_or, file]
        simp [sameMacro]

theorem Declaration.recovered_iff (last : Option FileName) (declaration : Declaration) :
    declarationFile (writeDeclaration last declaration).1 =
        .ok (some (declaration.file : Text)) ↔ declaration.Recoverable last := by
  rw [declarationFile_writeDeclaration, ← declaration.shownFiles_eq_iff, Except.ok.injEq]
  constructor
  · intro same
    exact Option.map_injective Subtype.val_injective same
  · intro same
    rw [same]
    rfl

/-- Every declaration of the sequence is recoverable where it is written. -/
def AllRecoverable (last : Option FileName) : List Declaration → Prop
  | [] => True
  | declaration :: declarations =>
      declaration.Recoverable last ∧
        AllRecoverable (writeDeclaration last declaration).2 declarations

/-- The declaring headers of a written sequence are recovered exactly when each declaration
shows its own. -/
theorem headers_recovered_iff (last : Option FileName) (declarations : List Declaration) :
    List.Forall₂
        (fun declaration node =>
          declarationFile node = .ok (some ((Declaration.file declaration : FileName) : Text)))
        declarations (writeDeclarations last declarations) ↔
      AllRecoverable last declarations := by
  induction declarations generalizing last with
  | nil => exact ⟨fun _ => trivial, fun _ => .nil⟩
  | cons declaration declarations inductionHypothesis =>
      rw [writeDeclarations, List.forall₂_cons, inductionHypothesis, declaration.recovered_iff]
      rfl

def versionHeader : Position where
  file := ⟨"include/cpp_core/interface/get_version.h", by decide⟩
  includer := some ⟨"include/cpp_core/serial.h", by decide⟩

/-- A declaration on one line of the header, its attribute written out. -/
def declaredDirectly (name : Text) : Declaration where
  name
  loc := .bare versionHeader
  rangeBegin := .bare versionHeader
  rangeEnd := .bare versionHeader
  fields := [("mangledName", .str name)]
  children := [⟨"VisibilityAttr", [("visibility", .str "default")],
    some (.bare versionHeader, .bare versionHeader)⟩]

/-- The second declaration of a header is reported in the includer. -/
theorem includer_reported :
    ¬ List.Forall₂
        (fun declaration node =>
          declarationFile node = .ok (some ((Declaration.file declaration : FileName) : Text)))
        [declaredDirectly "getVersion", declaredDirectly "getCommit"]
        (writeDeclarations none [declaredDirectly "getVersion", declaredDirectly "getCommit"]) ∧
      (writeDeclarations none [declaredDirectly "getVersion", declaredDirectly "getCommit"]).map
          declarationFile =
        [.ok (some "include/cpp_core/interface/get_version.h"),
          .ok (some "include/cpp_core/serial.h")] := by
  refine ⟨?_, by decide⟩
  intro recovered
  cases recovered with
  | cons _ rest =>
      cases rest with
      | cons second _ =>
          revert second
          decide

end CppCore.Ffi
