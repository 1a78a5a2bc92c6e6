import Cadi.Adapter.Raising
import Cadi.Adapter.Recording

namespace Cadi
open Library
set_option autoImplicit true

namespace ContinuityAdapter

/-- The Attempt is the CURRENT one of the request. -/
def IsCurrent (c : ContinuityCore) (requestId attemptId : String) : Prop :=
  ∃ q a, c.requests.get? requestId = some q ∧ q.currentAttemptId = some attemptId ∧
    c.attempts.get? attemptId = some a ∧ a.authorityStatus = .current

/-- If the record finalizes a request, that is the one of the event, and the Attempt of the event was
its CURRENT one. -/
def Fenced (c : ContinuityCore) (event : SimEvent) (r : SemanticActionRecord) : Prop :=
  ∀ requestId, Finalizes requestId r →
    requestId = textAt event "request_id" ∧ IsCurrent c requestId (textAt event "attempt_id")

section Observations
variable {semanticValidity : SemanticValidity} {sha256 : String → String} {c : ContinuityCore}
  {h h' : Host ContinuityAdapter}

/-- The core has the requests and the Attempts of another one. -/
def SameAttempts (c c' : ContinuityCore) : Prop :=
  c'.requests = c.requests ∧ c'.attempts = c.attempts

theorem IsCurrent.same (h : IsCurrent c' requestId attemptId) (hs : SameAttempts c c') :
    IsCurrent c requestId attemptId := by
  unfold IsCurrent at h
  rwa [hs.1, hs.2] at h

end Observations

section Handlers
variable {semanticValidity : SemanticValidity} {sha256 : String → String}
  {h h' : Host ContinuityAdapter}

end Handlers

end ContinuityAdapter

end Cadi
