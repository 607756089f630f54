import CppCore.Ffi.Canonical

/-!
# Symbols of the metadata

The reduction keeps every exported node, so a function that is declared again is
listed again.
-/

namespace CppCore.Ffi

open Dict Fallible

/-- The symbol of a node: its mangled name, or else its name. -/
def symbolOf (node : Dict) : Text :=
  match node.getText "mangledName" (nameOf node) with
  | .ok symbol => symbol
  | .error _ => []

theorem buildFunction_identity {environment : Environment} {node : Dict} {function : Function}
    (built : buildFunction environment node = .ok function) :
    function.name = nameOf node ∧ function.symbol = symbolOf node := by
  unfold buildFunction at built
  obtain ⟨typeInfo, _, built⟩ := bind_eq_ok_iff.mp built
  obtain ⟨typeName, _, built⟩ := bind_eq_ok_iff.mp built
  obtain ⟨doc, _, built⟩ := bind_eq_ok_iff.mp built
  obtain ⟨name, readName, built⟩ := bind_eq_ok_iff.mp built
  cases name with
  | none => cases built
  | some name =>
      have named : nameOf node = name := by
        unfold nameOf
        rw [getText?_eq_some readName]
      obtain ⟨_, same, built⟩ := bind_eq_ok_iff.mp built
      cases same
      obtain ⟨symbol, readSymbol, built⟩ := bind_eq_ok_iff.mp built
      obtain ⟨path, _, built⟩ := bind_eq_ok_iff.mp built
      obtain ⟨children, _, built⟩ := bind_eq_ok_iff.mp built
      obtain ⟨parameters, _, built⟩ := bind_eq_ok_iff.mp built
      cases built
      refine ⟨named.symm, ?_⟩
      unfold symbolOf
      rw [named, readSymbol]

theorem exportedFunctions_identity {environment : Environment} {nodes : List Dict}
    {functions : List Function} (built : exportedFunctions environment nodes = .ok functions) :
    functions.map (fun function => (function.name, function.symbol)) =
      (nodes.filter fun node => isExportedFunction environment node = .ok true).map
        fun node => (nameOf node, symbolOf node) := by
  induction nodes generalizing functions with
  | nil =>
      cases built
      rfl
  | cons node nodes inductionHypothesis =>
      rw [exportedFunctions] at built
      obtain ⟨exported, decided, built⟩ := bind_eq_ok_iff.mp built
      cases exported with
      | false =>
          rw [List.filter_cons_of_neg (by simp [decided])]
          exact inductionHypothesis built
      | true =>
          rw [List.filter_cons_of_pos (by simp [decided])]
          obtain ⟨function, builtNode, built⟩ := bind_eq_ok_iff.mp built
          obtain ⟨rest, builtRest, built⟩ := bind_eq_ok_iff.mp built
          cases built
          obtain ⟨name, symbol⟩ := buildFunction_identity builtNode
          rw [List.map_cons, List.map_cons, inductionHypothesis builtRest, name, symbol]

theorem main_identity {environment : Environment} {publicHeader : Text} {ast : Json}
    {metadata : Metadata} (returned : main environment publicHeader ast = .ok metadata) :
    (metadata.functions.map fun function => (function.name, function.symbol)).Perm
        ((exportedNodes environment ast).map fun node => (nameOf node, symbolOf node)) ∧
      metadata.functions.Pairwise fun first second => first.name ≤ second.name := by
  unfold main at returned
  obtain ⟨functions, built, returned⟩ := bind_eq_ok_iff.mp returned
  cases returned
  have sorted := sortByName_stable functions
  refine ⟨?_, sorted.ordered⟩
  rw [exportedNodes, ← walk_eq_objects, ← exportedFunctions_identity built]
  exact sorted.perm.map _

section Identity

variable {environment : Environment} {publicHeader : Text} {ast : Json} {metadata : Metadata}

theorem names_perm (returned : main environment publicHeader ast = .ok metadata) :
    (metadata.functions.map Function.name).Perm ((exportedNodes environment ast).map nameOf) := by
  have identity := (main_identity returned).1.map Prod.fst
  rw [List.map_map, List.map_map] at identity
  exact identity

theorem symbols_perm (returned : main environment publicHeader ast = .ok metadata) :
    (metadata.functions.map Function.symbol).Perm ((exportedNodes environment ast).map symbolOf) := by
  have identity := (main_identity returned).1.map Prod.snd
  rw [List.map_map, List.map_map] at identity
  exact identity

/-- The names are strictly increasing exactly when no name is exported twice. -/
theorem names_increase_iff (returned : main environment publicHeader ast = .ok metadata) :
    (metadata.functions.Pairwise fun first second => first.name < second.name) ↔
      ((exportedNodes environment ast).map nameOf).Nodup := by
  rw [← (names_perm returned).nodup_iff, List.Nodup, List.pairwise_map]
  constructor
  · intro increasing
    exact increasing.imp fun less => ne_of_lt less
  · intro distinct
    exact ((main_identity returned).2.and distinct).imp fun both => lt_of_le_of_ne both.1 both.2

end Identity

/-- Each symbol is listed once for every exported node that declares it, in the order of the
names; each is listed once exactly when none is declared twice. -/
theorem symbols_listed_per_declaration {environment : Environment} {publicHeader : Text}
    {ast : Json} {metadata : Metadata}
    (returned : main environment publicHeader ast = .ok metadata) :
    (∀ symbol, (metadata.functions.map Function.symbol).count symbol =
      ((exportedNodes environment ast).map symbolOf).count symbol) ∧
    (metadata.functions.Pairwise fun first second => first.name ≤ second.name) ∧
    ((∀ symbol ∈ (exportedNodes environment ast).map symbolOf,
        (metadata.functions.map Function.symbol).count symbol = 1) ↔
      ((exportedNodes environment ast).map symbolOf).Nodup) ∧
    ((metadata.functions.Pairwise fun first second => first.name < second.name) ↔
      ((exportedNodes environment ast).map nameOf).Nodup) := by
  have counts : ∀ symbol, (metadata.functions.map Function.symbol).count symbol =
      ((exportedNodes environment ast).map symbolOf).count symbol :=
    fun symbol => (symbols_perm returned).count_eq symbol
  refine ⟨counts, (main_identity returned).2, ?_, names_increase_iff returned⟩
  simp only [counts]
  constructor
  · intro once
    apply List.nodup_iff_count_le_one.mpr
    intro symbol
    by_cases membership : symbol ∈ (exportedNodes environment ast).map symbolOf
    · exact Nat.le_of_eq (once symbol membership)
    · rw [List.count_eq_zero_of_not_mem membership]
      exact Nat.zero_le 1
  · intro distinct symbol membership
    exact List.count_eq_one_of_mem distinct membership

/-- A function that is declared, and declared again. -/
def redeclared : Json :=
  .obj [("inner", .arr [.obj (exportedDeclaration "serialOpen"),
    .obj (exportedDeclaration "serialOpen")])]

theorem redeclared_returns :
    ∃ metadata, main checkout "cpp_core.h" redeclared = .ok metadata := by
  rcases main_eq_ok checkout "cpp_core.h" (show WellTyped redeclared by decide) with
    ⟨built, returned, _⟩
  exact ⟨_, returned⟩

theorem symbols_listed_per_declaration_redeclared :
    ∃ metadata, main checkout "cpp_core.h" redeclared = .ok metadata ∧
      (metadata.functions.map Function.symbol).count "serialOpen".toList = 2 := by
  obtain ⟨metadata, returned⟩ := redeclared_returns
  refine ⟨metadata, returned, ?_⟩
  rw [(symbols_listed_per_declaration returned).1]
  decide

/-- The symbol has two entries, with one name. -/
theorem redeclaration_listed_twice :
    ∃ metadata, main checkout "cpp_core.h" redeclared = .ok metadata ∧
      metadata.functions.map Function.symbol = ["serialOpen".toList, "serialOpen"] ∧
      ¬ metadata.functions.Pairwise fun first second => first.name < second.name := by
  obtain ⟨metadata, returned⟩ := redeclared_returns
  have twice : (exportedNodes checkout redeclared).map symbolOf =
      List.replicate 2 "serialOpen".toList := by decide
  have symbols := symbols_perm returned
  rw [twice] at symbols
  refine ⟨metadata, returned, ?_, ?_⟩
  · exact List.perm_replicate.mp symbols
  · rw [names_increase_iff returned]
    decide

end CppCore.Ffi
