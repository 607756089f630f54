import CppCore.Ffi.MetadataFile
import CppCore.Library.Transition

/-!
# The build of the metadata

Two files are built: clang writes the syntax tree into the first, and the reducer
writes the metadata into the second.  The export script removes what a failed
run of clang has left.  The reducer opens its file when the metadata is complete,
and a run that is interrupted behind that leaves a beginning of it.
-/

namespace CppCore.Ffi

open JsonText

/-- What `RESULT_VARIABLE` is set to: an exit code, or a text that says why there is none. -/
inductive ProcessResult where
  | exited (code : Int)
  | notRun (message : Text)
  deriving DecidableEq

namespace ProcessResult

def text : ProcessResult → Text
  | .exited code => (toString code).toList
  | .notRun message => message

end ProcessResult

/-- What a run of clang leaves in the output file, and what it says. -/
structure ClangRun where
  written : Option Text
  stderr : Text
  result : ProcessResult

/-- The variables that the export script is called with. -/
structure ExportArguments where
  clangxx : Option Text
  includeDir : Option Text
  output : Option Text
  source : Option Text
  standard : Option Text

namespace ExportArguments

def required (arguments : ExportArguments) : List (Text × Option Text) :=
  [("CPP_CORE_AST_CLANGXX", arguments.clangxx), ("CPP_CORE_AST_INCLUDE_DIR", arguments.includeDir),
    ("CPP_CORE_AST_OUTPUT", arguments.output), ("CPP_CORE_AST_SOURCE", arguments.source),
    ("CPP_CORE_AST_STANDARD", arguments.standard)]

/-- The first variable that is not defined, or empty. -/
def missing (arguments : ExportArguments) : Option Text :=
  (arguments.required.find? fun required => required.2.getD [] = []).map Prod.fst

def command (arguments : ExportArguments) : List Text :=
  [arguments.clangxx.getD [], "-std=c++".toList ++ arguments.standard.getD [],
    "-I".toList ++ arguments.includeDir.getD [], "-fsyntax-only", "-Xclang", "-ast-dump=json",
    arguments.source.getD []]

end ExportArguments

/-- The two files of the build. -/
structure Build where
  ast : Option Text
  api : Option Text
  deriving DecidableEq

/-- The export script, with the message of its fatal error. -/
def exportAst (arguments : ExportArguments) (clang : List Text → ClangRun) (build : Build) :
    Option Text × Build :=
  match arguments.missing with
  | some name => (some ("Missing required variable: ".toList ++ name), build)
  | none =>
      let run := clang arguments.command
      let build := { build with ast := run.written }
      if run.result ≠ .exited 0 then
        (some ("clang AST export failed with exit code ".toList ++ run.result.text ++ ".\n".toList ++
          Text.strip run.stderr), { build with ast := none })
      else
        match build.ast with
        | none =>
            (some ("clang AST export did not produce ".toList ++ arguments.output.getD []), build)
        | some [] =>
            (some ("clang AST export produced an empty file: ".toList ++
              arguments.output.getD []), { build with ast := none })
        | some _ => (none, build)

variable (format : FloatFormat) (environment : Environment) (publicHeader : Text)

/-- What is in a file that was emptied and written anew, all of it or as much as was written when
the run was interrupted. -/
def streamed (interruptedAfter : Option Nat) (output : Text) : Text :=
  match interruptedAfter with
  | none => output
  | some length => output.take length

/-- The reducer empties its output file when the metadata is complete, and then writes it. -/
def reduceAst (interruptedAfter : Option Nat) (build : Build) : Build :=
  match build.ast.bind (reduce format environment publicHeader) with
  | none => build
  | some output => { build with api := some (streamed interruptedAfter output) }

inductive BuildStep where
  | exportAst (arguments : ExportArguments) (clang : List Text → ClangRun)
  | reduceAst (interruptedAfter : Option Nat)
  | clean

def Build.after (build : Build) : BuildStep → Build
  | .exportAst arguments clang => (exportAst arguments clang build).2
  | .reduceAst interruptedAfter =>
      reduceAst format environment publicHeader interruptedAfter build
  | .clean => ⟨none, none⟩

/-- The tree that a step exports, when clang succeeds. -/
def BuildStep.Exports (step : BuildStep) (input : Text) : Prop :=
  ∃ arguments clang, step = .exportAst arguments clang ∧ arguments.missing = none ∧
    (clang arguments.command).result = .exited 0 ∧
    (clang arguments.command).written = some input ∧ input ≠ []

/-- The second file reads as the metadata of the tree in the first. -/
structure ReducedTo (input output : Text) : Prop where
  ascii : ∀ char ∈ output, isDocument char = true
  metadata : ∃ ast metadata, load format input = some ast ∧
    main environment publicHeader ast = .ok metadata ∧
    (load format output).bind asMetadata = some metadata

/-- Whatever is in the files comes from the steps: the tree has been exported as a whole, and the
metadata is that of such a tree, as a whole or as far as an interrupted reduction wrote it. -/
structure Build.Sound (steps : List BuildStep) (build : Build) : Prop where
  ast : ∀ input ∈ build.ast, ∃ step ∈ steps, step.Exports input
  api : ∀ content ∈ build.api, ∃ step ∈ steps, ∃ input output interruptedAfter,
    step.Exports input ∧ ReducedTo format environment publicHeader input output ∧
      .reduceAst interruptedAfter ∈ steps ∧ content = streamed interruptedAfter output

def Build.Step (before : Build) (step : BuildStep) (after : Build) : Prop :=
  after = before.after format environment publicHeader step

variable {format environment publicHeader}

section Export

variable {arguments : ExportArguments} {clang : List Text → ClangRun}

theorem exportAst_of_exports {input : Text}
    (exports : (BuildStep.exportAst arguments clang).Exports input) (build : Build) :
    exportAst arguments clang build = (none, { build with ast := some input }) := by
  obtain ⟨_, _, ⟨rfl, rfl⟩, complete, succeeded, written, nonempty⟩ := exports
  obtain ⟨first, rest, rfl⟩ := List.exists_cons_of_ne_nil nonempty
  simp [exportAst, complete, succeeded, written]

/-- A script that was called as it should be leaves no file when it does not export. -/
theorem exportAst_of_not_exports (complete : arguments.missing = none)
    (exportsNothing : ∀ input, ¬ (BuildStep.exportAst arguments clang).Exports input)
    (build : Build) : (exportAst arguments clang build).2 = { build with ast := none } := by
  unfold exportAst
  simp only [complete]
  by_cases succeeded : (clang arguments.command).result = .exited 0
  · cases written : (clang arguments.command).written with
    | none => simp [succeeded]
    | some input =>
        cases input with
        | nil => simp [succeeded]
        | cons first rest =>
            exact absurd ⟨arguments, clang, rfl, complete, succeeded, written,
              List.cons_ne_nil _ _⟩ (exportsNothing _)
  · simp [succeeded]

theorem exportAst_of_missing {name : Text} (missing : arguments.missing = some name)
    (build : Build) : (exportAst arguments clang build).2 = build := by
  simp [exportAst, missing]

end Export

section Runs

variable {steps : List BuildStep} {build : Build}

theorem Build.Sound.concat (sound : Build.Sound format environment publicHeader steps build)
    (step : BuildStep) :
    Build.Sound format environment publicHeader (steps ++ [step])
      (build.after format environment publicHeader step) := by
  have earlier {holds : BuildStep → Prop} (found : ∃ step ∈ steps, holds step) :
      ∃ earlier ∈ steps ++ [step], holds earlier := by
    obtain ⟨earlier, membership, held⟩ := found
    exact ⟨earlier, List.mem_append_left _ membership, held⟩
  have here : step ∈ steps ++ [step] := List.mem_append_right _ List.mem_cons_self
  have api : ∀ content ∈ build.api, ∃ exporting ∈ steps ++ [step], ∃ input output interruptedAfter,
      exporting.Exports input ∧ ReducedTo format environment publicHeader input output ∧
        .reduceAst interruptedAfter ∈ steps ++ [step] ∧
          content = streamed interruptedAfter output := by
    intro content isApi
    obtain ⟨exporting, membership, input, output, interruptedAfter, exports, reduced, inSteps,
      same⟩ := sound.api content isApi
    exact ⟨exporting, List.mem_append_left _ membership, input, output, interruptedAfter, exports,
      reduced, List.mem_append_left _ inSteps, same⟩
  cases step with
  | exportAst arguments clang =>
      rw [Build.after]
      cases missing : arguments.missing with
      | some name =>
          rw [exportAst_of_missing missing]
          exact ⟨fun input isAst => earlier (sound.ast input isAst), api⟩
      | none =>
          by_cases exports : ∃ input, (BuildStep.exportAst arguments clang).Exports input
          · obtain ⟨input, exports⟩ := exports
            rw [exportAst_of_exports exports]
            refine ⟨?_, api⟩
            rintro _ ⟨⟩
            exact ⟨_, here, exports⟩
          · rw [exportAst_of_not_exports missing (not_exists.mp exports)]
            exact ⟨nofun, api⟩
  | reduceAst interruptedAfter =>
      rw [Build.after, reduceAst]
      cases written : build.ast.bind (reduce format environment publicHeader) with
      | none => exact ⟨fun input isAst => earlier (sound.ast input isAst), api⟩
      | some output =>
          refine ⟨fun input isAst => earlier (sound.ast input isAst), ?_⟩
          rintro _ ⟨⟩
          obtain ⟨input, isAst, written⟩ := Option.bind_eq_some_iff.mp written
          obtain ⟨exporting, membership, exports⟩ := earlier (sound.ast input isAst)
          obtain ⟨ast, metadata, loaded, returned, read, ascii⟩ := reduce_eq_some written
          exact ⟨exporting, membership, input, output, interruptedAfter, exports,
            ⟨ascii, ast, metadata, loaded, returned, read⟩, here, rfl⟩
  | clean => exact ⟨nofun, nofun⟩

theorem Build.Sound.run {past : List BuildStep} {first last : Build}
    (sound : Build.Sound format environment publicHeader past first)
    (run : Transition.Run (Build.Step format environment publicHeader) first steps last) :
    Build.Sound format environment publicHeader (past ++ steps) last := by
  induction run generalizing past with
  | refl state =>
      rw [List.append_nil]
      exact sound
  | cons taken _ inductionHypothesis =>
      rw [List.append_cons]
      apply inductionHypothesis
      rw [taken]
      exact sound.concat _

theorem after_reduceAst (interruptedAfter : Option Nat) (build : Build) :
    build.after format environment publicHeader (.reduceAst interruptedAfter) =
      ⟨build.ast, ((build.ast.bind (reduce format environment publicHeader)).map
        (streamed interruptedAfter)).or build.api⟩ := by
  rw [Build.after, reduceAst]
  cases build.ast.bind (reduce format environment publicHeader) with
  | none => rfl
  | some output => rfl

end Runs

section Witness

def exportArguments : ExportArguments where
  clangxx := some "clang++"
  includeDir := some "include"
  output := some "cpp_core_ffi_ast.json"
  source := some "cpp_core_ffi_ast.cpp"
  standard := some "23"

/-- A run of clang that writes a text and ends with an exit code. -/
def clangWriting (written : Text) (code : Int) (_command : List Text) : ClangRun :=
  ⟨some written, [], .exited code⟩

def closeInput : Text := dump 2 documentedClose ++ ['\n']

/-- An export and a reduction, and both again when clang stops in the middle. -/
def closeSteps : List BuildStep :=
  [.exportAst exportArguments (clangWriting closeInput 0), .reduceAst none,
    .exportAst exportArguments (clangWriting (closeInput.take 100) 1), .reduceAst (some 7)]

theorem exports_closeInput :
    (BuildStep.exportAst exportArguments (clangWriting closeInput 0)).Exports closeInput :=
  ⟨_, _, rfl, by decide, rfl, rfl, List.append_ne_nil_of_right_ne_nil _ (by decide)⟩

end Witness

end CppCore.Ffi
