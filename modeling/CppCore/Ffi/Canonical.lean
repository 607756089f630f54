import CppCore.Ffi.Schema
import CppCore.Library.StableSort

/-!
# The reduction is canonical

The metadata lists what is built from the exported nodes of the tree, stably
sorted by name.  With distinct names it depends on these nodes only.
-/

namespace CppCore.Ffi

open Dict Fallible

def exportedNodes (environment : Environment) (ast : Json) : List Dict :=
  ast.objects.filter fun node => isExportedFunction environment node = .ok true

/-- The name of a node that has one. -/
def nameOf (node : Dict) : Text :=
  match node.get "name" with
  | .str name => name
  | _ => []

theorem getText?_eq_some {node : Dict} {key text : Text}
    (read : node.getText? key = .ok (some text)) : node.get key = .str text := by
  unfold getText? at read
  cases value : node.get key with
  | str content =>
      rw [value] at read
      cases read
      rfl
  | _ =>
      rw [value] at read
      cases read

theorem isExportedFunction_name {environment : Environment} {node : Dict}
    (exported : isExportedFunction environment node = .ok true) :
    node.getText? "name" = .ok (some (nameOf node)) := by
  unfold isExportedFunction at exported
  split_ifs at exported
  · cases exported
  obtain ⟨name, read, exported⟩ := bind_eq_ok_iff.mp exported
  cases name with
  | none => cases exported
  | some name =>
      rw [read]
      unfold nameOf
      rw [getText?_eq_some read]

theorem buildFunction_succeeds (environment : Environment) {node : Dict}
    (typed : WellTyped (.obj node)) {name : Text}
    (named : node.getText? "name" = .ok (some name)) :
    ∃ function, buildFunction environment node = .ok function ∧ function.name = name := by
  unfold buildFunction
  obtain ⟨typeInfo, readType, typedType⟩ := typed.getDict (show fieldType "type" = _ from rfl)
  rcases getText_succeeds typedType.conforms (show fieldType "qualType" = _ from rfl) "" with
    ⟨typeName, readTypeName⟩
  obtain ⟨doc, readDoc⟩ := extractComment_succeeds typed
  rcases getText_succeeds typed.conforms (show fieldType "mangledName" = _ from rfl) name with
    ⟨symbol, readSymbol⟩
  obtain ⟨path, readPath⟩ := declarationFile_succeeds typed
  obtain ⟨children, readChildren, typedChildren⟩ := typed.childObjects
  have parameters : Succeeds ((children.filter fun child => child.hasKind "ParmVarDecl").mapM
      fun child => buildParameter child doc.params) := by
    apply Succeeds.mapM
    intro child membership
    have ⟨inChildren, isParameter⟩ := List.mem_filter.mp membership
    exact buildParameter_succeeds (typedChildren child inChildren) isParameter doc.params
  obtain ⟨parameters, readParameters⟩ := parameters
  simp only [readType, readTypeName, readDoc, named, readSymbol, readPath, readChildren,
    readParameters, ok_bind, pure_eq_ok]
  exact ⟨_, rfl, rfl⟩

/-- The comprehension collects what is built from the nodes that are exported. -/
theorem exportedFunctions_eq_ok (environment : Environment) {nodes : List Dict}
    (typed : ∀ node ∈ nodes, WellTyped (.obj node)) :
    ∃ built, exportedFunctions environment nodes = .ok built ∧
      (nodes.filter fun node => isExportedFunction environment node = .ok true).map
        (buildFunction environment) = built.map .ok ∧
      built.map Function.name =
        (nodes.filter fun node => isExportedFunction environment node = .ok true).map nameOf := by
  induction nodes with
  | nil => exact ⟨[], rfl, rfl, rfl⟩
  | cons node nodes inductionHypothesis =>
      have ⟨typedNode, typedNodes⟩ := List.forall_mem_cons.mp typed
      obtain ⟨rest, collected, each, names⟩ := inductionHypothesis typedNodes
      obtain ⟨exported, decided⟩ := isExportedFunction_succeeds environment typedNode
      cases exported with
      | false =>
          refine ⟨rest, ?_, ?_, ?_⟩
          · simp only [exportedFunctions, decided, ok_bind, collected]
            rfl
          · rw [List.filter_cons_of_neg (by simp [decided]), each]
          · rw [List.filter_cons_of_neg (by simp [decided]), names]
      | true =>
          rcases buildFunction_succeeds environment typedNode (isExportedFunction_name decided) with
            ⟨function, returned, name⟩
          refine ⟨function :: rest, ?_, ?_, ?_⟩
          · simp only [exportedFunctions, decided, returned, ok_bind, collected]
            rfl
          · rw [List.filter_cons_of_pos (by simp [decided]), List.map_cons, List.map_cons, returned,
              each]
          · rw [List.filter_cons_of_pos (by simp [decided]), List.map_cons, List.map_cons, name,
              names]

theorem nodes_wellTyped {ast : Json} (typed : WellTyped ast) :
    ∀ node ∈ walk ast, WellTyped (.obj node) := by
  intro node membership
  rw [walk_eq_objects] at membership
  exact typed.nested membership

theorem main_eq_ok (environment : Environment) (publicHeader : Text) {ast : Json}
    (typed : WellTyped ast) :
    ∃ built, main environment publicHeader ast = .ok
        ⟨"cpp_core_ffi_api", 1, publicHeader, sortByName built⟩ ∧
      (exportedNodes environment ast).map (buildFunction environment) = built.map .ok ∧
      built.map Function.name = (exportedNodes environment ast).map nameOf := by
  rcases exportedFunctions_eq_ok environment (nodes_wellTyped typed) with ⟨built, collected, each, names⟩
  refine ⟨built, ?_, ?_, ?_⟩
  · simp only [main, collected, ok_bind, pure_eq_ok]
  · rw [exportedNodes, ← walk_eq_objects]
    exact each
  · rw [exportedNodes, ← walk_eq_objects]
    exact names

theorem sortByName_stable (functions : List Function) :
    StableSort Function.name functions (sortByName functions) :=
  StableSort.mergeSort Function.name functions

/-- `walk` yields the pre-order; the metadata is the stable sort of what is built from the
exported nodes; and with distinct names only the collection of these nodes matters. -/
theorem functions_canonical (environment : Environment) (publicHeader : Text) :
    (∀ ast, walk ast = ast.objects) ∧
    (∀ ast, WellTyped ast → ∃ built metadata,
      (exportedNodes environment ast).map (buildFunction environment) = built.map .ok ∧
      main environment publicHeader ast = .ok metadata ∧
      ∀ sorted, StableSort Function.name built sorted ↔ sorted = metadata.functions) ∧
    (∀ ast ast', WellTyped ast → WellTyped ast' →
      (exportedNodes environment ast).Perm (exportedNodes environment ast') →
      ((exportedNodes environment ast).map nameOf).Nodup →
      ∃ metadata, main environment publicHeader ast = .ok metadata ∧
        main environment publicHeader ast' = .ok metadata) := by
  refine ⟨walk_eq_objects, ?_, ?_⟩
  · intro ast typed
    obtain ⟨built, returned, each, _⟩ := main_eq_ok environment publicHeader typed
    refine ⟨built, _, each, returned, ?_⟩
    intro sorted
    constructor
    · intro stable
      exact stable.unique (sortByName_stable built)
    · intro same
      rw [same]
      exact sortByName_stable built
  · intro ast ast' typed typed' same distinct
    obtain ⟨built, returned, each, names⟩ := main_eq_ok environment publicHeader typed
    obtain ⟨built', returned', each', _⟩ := main_eq_ok environment publicHeader typed'
    -- `buildFunction` looks at one node only, so what is built is permuted as the nodes are.
    have permuted : built.Perm built' := by
      have mapped := same.map (buildFunction environment)
      rw [each, each'] at mapped
      exact (List.map_perm_map_iff fun _ _ => Except.ok.inj).mp mapped
    have sorted : sortByName built = sortByName built' := by
      apply (sortByName_stable built).eq_of_perm (sortByName_stable built') permuted
      rw [names]
      exact distinct
    exact ⟨_, returned, by rw [returned', sorted]⟩

def checkout : Environment where
  resolve path := "repo" :: path.splitOn '/'
  sourceRoot := ["repo"]

def exportedDeclaration (name : Text) : Dict :=
  [("kind", .str "FunctionDecl"),
    ("loc", .obj [("file", .str "include/cpp_core/interface/serial_close.h")]),
    ("name", .str name), ("mangledName", .str name),
    ("type", .obj [("qualType", .str "auto () -> int")]),
    ("inner", .arr [.obj [("kind", .str "VisibilityAttr"), ("visibility", .str "default")]])]

/-- Two declarations side by side, and the same two in the other order under a linkage block. -/
theorem functions_canonical_reordered :
    ∃ metadata,
      main checkout "cpp_core.h"
        (.obj [("inner", .arr [.obj (exportedDeclaration "serialOpen"),
          .obj (exportedDeclaration "serialClose")])]) = .ok metadata ∧
      main checkout "cpp_core.h"
        (.obj [("inner", .arr [.obj [("kind", .str "LinkageSpecDecl"),
          ("inner", .arr [.obj (exportedDeclaration "serialClose"), .null,
            .obj (exportedDeclaration "serialOpen")])]])]) = .ok metadata := by
  apply (functions_canonical checkout "cpp_core.h").2.2
  · decide
  · decide
  · exact List.Perm.swap (exportedDeclaration "serialClose") (exportedDeclaration "serialOpen") []
  · decide

end CppCore.Ffi
