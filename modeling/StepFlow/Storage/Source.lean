import StepFlow.Diagnostic
import StepFlow.Json.DecodeError
import StepFlow.Storage.Flow

/-!
# Sources of flows

## Main definitions

* `Source`: read access to stored flows by id.
* `SourceError`: why a flow could not be had.

## Design notes

A source is what is answered while a request is made. A later request may be answered otherwise, by
another source then.
-/

namespace StepFlow

/-- Why a stored flow could not be had. -/
inductive SourceError
  | notFound (flow : String)
  | unavailable (reason : String)
  | malformed (fault : Json.DecodeError)
  deriving DecidableEq, Repr

/-- How an error of a source is reported. -/
def SourceError.diagnostic : SourceError → Diagnostic
  | notFound flow =>
    { code := "flowweave::source::not_found"
      message := s!"flow {flow} not found" }
  | unavailable reason =>
    { code := "flowweave::source::unavailable"
      message := s!"flow source unavailable: {reason}" }
  | malformed fault =>
    { code := "flowweave::source::malformed"
      message := s!"stored flow is malformed: {fault.message}"
      causes := [fault.message] }

/-- Read access to stored flows by id. -/
abbrev Source := String → Except SourceError StoredFlow

end StepFlow
