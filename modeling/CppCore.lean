import CppCore.Boundary
import CppCore.Propagation
import CppCore.Retuning
import CppCore.Validation
import CppCore.Chaining
import CppCore.StatusCode.Classification
import CppCore.Library.Transition
import CppCore.Ffi.Symbols
import CppCore.Ffi.Spelling
import CppCore.Ffi.Locations
import CppCore.UniqueResource.Conservation
import CppCore.ScopeGuard.Classification
import CppCore.ScopeGuard.Guards
import CppCore.ScopeGuard.Dismissal
import CppCore.Ffi.ReturnTypes
import CppCore.Ffi.Splitting
import CppCore.Library.Brackets
import CppCore.Ffi.ParameterTypes
import CppCore.Ffi.Callbacks
import CppCore.Ffi.Wholeness
import CppCore.Library.CppExpressions
import CppCore.Ffi.Defaults
import CppCore.Ffi.NormalForm
import CppCore.Library.Delimited
import CppCore.Library.Spacing
import CppCore.Ffi.Normalization
import CppCore.Ffi.Nesting
import CppCore.Ffi.CodeSpans
import CppCore.Library.Assignment
import CppCore.Library.JsonDocument
import CppCore.Library.JsonRoundTrip
import CppCore.Ffi.Output
import CppCore.Ffi.Recovery
import CppCore.Ffi.MetadataFile
import CppCore.Ffi.Conservation
import CppCore.Ffi.Documentation
import CppCore.Ffi.Convergence
import CppCore.Ffi.Invariants
import CppCore.Ffi.Pipeline
import CppCore.Gates
import CppCore.Library.JsonAlike
import CppCore.Ffi.Alike
import CppCore.Ffi.Interface
import CppCore.Ffi.Headers
import CppCore.Library.Accumulation
import CppCore.StrongTypes
import CppCore.Ffi.Reflow
import CppCore.ScopeGuard.Rollback
