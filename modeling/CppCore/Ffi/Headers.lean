import CppCore.Ffi.Canonical

/-!
# Headers are reduced one by one

The tree of a translation unit holds the declarations of all headers that it
includes.  Its metadata is merged from those of the headers alone.
-/

namespace CppCore.Ffi

open Dict Fallible

/-- A node with some declarations behind its other fields. -/
def unitNode (root : Dict) (declarations : List Json) : Dict :=
  root ++ ([("inner", .arr declarations)] : Dict)

def translationUnit (root : Dict) (declarations : List Json) : Json :=
  .obj (unitNode root declarations)

/-- The other fields of a root declare no functions. -/
def Quiet (root : Dict) : Prop :=
  ∀ node ∈ (Json.obj root).objects, node.hasKind "FunctionDecl" = false

instance (root : Dict) : Decidable (Quiet root) :=
  inferInstanceAs (Decidable (∀ node ∈ (Json.obj root).objects, _ = false))

/-- One list of functions, in the order of their names, from those of several headers. -/
def mergeByName (each : List (List Function)) : List Function :=
  each.foldr (fun functions merged =>
    functions.merge merged fun first second => first.name ≤ second.name) []

def mergeMetadata (publicHeader : Text) (each : List Metadata) : Metadata where
  schema := "cpp_core_ffi_api"
  schemaVersion := 1
  publicHeader
  functions := mergeByName (each.map Metadata.functions)

variable {environment : Environment}

theorem exportedFunctions_append (nodes others : List Dict) :
    exportedFunctions environment (nodes ++ others) = (do
      let functions ← exportedFunctions environment nodes
      let rest ← exportedFunctions environment others
      return functions ++ rest) := by
  induction nodes with
  | nil =>
      cases outcome : exportedFunctions environment others with
      | error fault => exact outcome
      | ok functions => exact outcome
  | cons node nodes inductionHypothesis =>
      rw [List.cons_append, exportedFunctions, exportedFunctions, inductionHypothesis]
      cases isExportedFunction environment node with
      | error fault => rfl
      | ok exported =>
          cases exported with
          | false => rfl
          | true =>
              cases buildFunction environment node with
              | error fault => rfl
              | ok function =>
                  cases exportedFunctions environment nodes with
                  | error fault => rfl
                  | ok functions =>
                      cases exportedFunctions environment others with
                      | error fault => rfl
                      | ok rest => rfl

theorem exportedFunctions_append_eq_ok {nodes others : List Dict} {all : List Function} :
    exportedFunctions environment (nodes ++ others) = .ok all ↔
      ∃ functions rest, exportedFunctions environment nodes = .ok functions ∧
        exportedFunctions environment others = .ok rest ∧ all = functions ++ rest := by
  rw [exportedFunctions_append, bind_eq_ok_iff]
  constructor
  · rintro ⟨functions, collected, later⟩
    obtain ⟨rest, collectedLater, returned⟩ := bind_eq_ok_iff.mp later
    cases returned
    exact ⟨functions, rest, collected, collectedLater, rfl⟩
  · rintro ⟨functions, rest, collected, collectedLater, rfl⟩
    exact ⟨functions, collected, bind_eq_ok_iff.mpr ⟨rest, collectedLater, rfl⟩⟩

theorem exportedFunctions_of_quiet {nodes : List Dict}
    (quiet : ∀ node ∈ nodes, node.hasKind "FunctionDecl" = false) :
    exportedFunctions environment nodes = .ok [] := by
  induction nodes with
  | nil => rfl
  | cons node nodes inductionHypothesis =>
      obtain ⟨here, later⟩ := List.forall_mem_cons.mp quiet
      have notExported : isExportedFunction environment node = .ok false := by
        rw [isExportedFunction, here]
        rfl
      rw [exportedFunctions, notExported]
      exact inductionHypothesis later

section Roots

variable {root : Dict} {publicHeader : Text}

theorem hasKind_unitNode (root : Dict) (declarations : List Json) (kind : Text) :
    (unitNode root declarations).hasKind kind = root.hasKind kind := by
  have same : (unitNode root declarations).get "kind" = root.get "kind" := by
    unfold Dict.get unitNode
    rw [List.lookup_append]
    cases List.lookup "kind".toList root with
    | none => rfl
    | some value => rfl
  unfold hasKind
  rw [same]

/-- Of a translation unit the declarations are collected. -/
theorem exportedFunctions_translationUnit (quiet : Quiet root) (declarations : List Json) :
    exportedFunctions environment (walk (translationUnit root declarations)) =
      exportedFunctions environment (declarations.flatMap Json.objects) := by
  have nodes : walk (translationUnit root declarations) =
      (unitNode root declarations :: Json.fieldObjects root) ++
        declarations.flatMap Json.objects := by
    have inner : (unitNode root declarations).values = root.values ++ [.arr declarations] :=
      List.map_append
    rw [walk_eq_objects, translationUnit, Json.objects, Json.fieldObjects_eq_flatMap,
      Json.fieldObjects_eq_flatMap, inner, List.flatMap_append, List.flatMap_singleton,
      Json.objects, Json.itemObjects_eq_flatMap, List.cons_append]
  have silent : exportedFunctions environment
      (unitNode root declarations :: Json.fieldObjects root) = .ok [] := by
    apply exportedFunctions_of_quiet
    rw [Quiet, Json.objects] at quiet
    obtain ⟨here, later⟩ := List.forall_mem_cons.mp quiet
    exact List.forall_mem_cons.mpr ⟨(hasKind_unitNode root declarations _).trans here, later⟩
  rw [nodes, exportedFunctions_append, silent]
  cases exportedFunctions environment (declarations.flatMap Json.objects) with
  | error fault => rfl
  | ok functions => rfl

theorem main_translationUnit (quiet : Quiet root) {declarations : List Json} {metadata : Metadata} :
    main environment publicHeader (translationUnit root declarations) = .ok metadata ↔
      ∃ functions, exportedFunctions environment (declarations.flatMap Json.objects) =
        .ok functions ∧ metadata = ⟨"cpp_core_ffi_api", 1, publicHeader, sortByName functions⟩ := by
  rw [main, exportedFunctions_translationUnit quiet, bind_eq_ok_iff]
  constructor
  · rintro ⟨functions, collected, returned⟩
    cases returned
    exact ⟨functions, collected, rfl⟩
  · rintro ⟨functions, collected, rfl⟩
    exact ⟨functions, collected, rfl⟩

theorem sortByName_append (functions rest : List Function) :
    sortByName (functions ++ rest) =
      (sortByName functions).merge (sortByName rest) fun first second =>
        first.name ≤ second.name :=
  (sortByName_stable _).unique ((sortByName_stable functions).merge (sortByName_stable rest))

theorem mergeMetadata_nil (publicHeader : Text) :
    mergeMetadata publicHeader [] = ⟨"cpp_core_ffi_api", 1, publicHeader, sortByName []⟩ := by
  rw [sortByName, List.mergeSort_nil]
  rfl

end Roots

/-- The other fields that clang writes at the root. -/
def unitRoot : Dict :=
  [("id", .str "0x1"), ("kind", .str "TranslationUnitDecl"), ("loc", .obj []),
    ("range", .obj [("begin", .obj []), ("end", .obj [])])]

def twoHeaders : List (List Json) :=
  [[.obj (exportedDeclaration "serialOpen")],
    [.obj [("kind", .str "TypedefDecl")], .obj (exportedDeclaration "serialClose")]]

end CppCore.Ffi
