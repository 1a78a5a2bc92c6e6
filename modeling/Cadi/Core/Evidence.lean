import Cadi.Core.Stores

namespace Cadi
open Library
set_option autoImplicit true

/-- The lookup in `REQUIRED_AUTHORITY`. -/
def requiredAuthority (action : String) : Except PyError EvidenceAuthority :=
  match action with
  | "finalize" | "consume_state" | "commit_migration" => .ok .exactObservation
  | "rank_endpoint" | "estimate_reuse" => .ok .estimated
  | _ => .error (.keyError action)

def correctnessSensitiveEvidenceActions : List String :=
  ["finalize", "consume_state", "commit_migration"]

/-- The checks both evidence loops skip an item on: status, authority, expiry and age. -/
def Evidence.usable (req : EvidenceAuthority) (now : Number) (maxAge : Option Number)
    (e : Evidence) : Except PyError Bool :=
  if e.status ≠ .valid then .ok false
  else if e.authority.value < req.value then .ok false
  else if e.validUntil.any (fun limit => limit.lt now) then .ok false
  else match maxAge with
    | none => .ok true
    | some limit =>
      match now.sub e.observedAt with
      | none => .error (.overflowError "int too large to convert to float")
      | some age => .ok !(limit.lt age)

section Clock
-- The value `time.time()` returns if the operation asks for it.
variable (clock : Number)

def conflictingClaims (req : EvidenceAuthority) (now : Number) (maxAge : Option Number) :
    Dict String (FrozenSet (Option String)) → List Evidence → Except PyError Bool
  | _, [] => .ok false
  | valuesByKey, e :: es =>
    match e.claimKey with
    | none => conflictingClaims req now maxAge valuesByKey es
    | some key => do
      let usable ← e.usable req now maxAge
      if usable then
        let values := insert e.claimValue ((valuesByKey.get? key).getD ∅)
        if values.card > 1 then .ok true
        else conflictingClaims req now maxAge (valuesByKey.set key values) es
      else conflictingClaims req now maxAge valuesByKey es

def hasConflictingStructuredClaims (action : String) (evs : List Evidence) (now : Number)
    (maxAge : Option Number) : Except PyError Bool := do
  let req ← requiredAuthority action
  conflictingClaims req now maxAge ∅ evs

/-- The usable items whose scope contains the required one. -/
def goodEvidence (req : EvidenceAuthority) (now : Number) (maxAge : Option Number)
    (requiredScope : Option (FrozenSet (String × String))) :
    List Evidence → Except PyError (List Evidence)
  | [] => .ok []
  | e :: es => do
    let usable ← e.usable req now maxAge
    let good ← goodEvidence req now maxAge requiredScope es
    return if usable && requiredScope.all (· ⊆ e.scope) then e :: good else good

namespace ContinuityCore

/-- The listed items the core knows, in the listed order. -/
def knownEvidence (c : ContinuityCore) (evidenceIds : List String) : List Evidence :=
  evidenceIds.filterMap c.evidence.get?

def requireEvidence (c : ContinuityCore) (action : String) (evidenceIds : List String)
    (now : Option Number) (requiredScope : Option (FrozenSet (String × String)))
    (maxAge : Option Number) : Except PyError (List Evidence) := do
  let now := now.getD clock
  let req ← requiredAuthority action
  let evs := c.knownEvidence evidenceIds
  if action ∈ correctnessSensitiveEvidenceActions then
    raiseIf (∃ e ∈ evs, e.status = .ambiguous)
      (.insufficientEvidence s!"ambiguous Evidence for {action}")
    let conflicting ← hasConflictingStructuredClaims action evs now maxAge
    raiseIf (conflicting = true) (.insufficientEvidence s!"contradictory Evidence for {action}")
  let good ← goodEvidence req now maxAge requiredScope evs
  raiseIf (good = []) (PyError.insufficientEvidence s!"insufficient Evidence for {action}")
  return good

def reconcile (c : ContinuityCore) (action : String) (evidenceIds : List String)
    (now : Option Number) (requiredScope : Option (FrozenSet (String × String))) :
    Except PyError ReconcileOutcome := do
  let now := now.getD clock
  let evs := c.knownEvidence evidenceIds
  if ∃ e ∈ evs, e.status = .ambiguous then return .ambiguous
  let conflicting ← hasConflictingStructuredClaims action evs now none
  if conflicting then return .ambiguous
  match c.requireEvidence clock action evidenceIds (some now) requiredScope none with
  | .ok _ => return .matched
  | .error (.insufficientEvidence _) => return .wait
  | .error e => throw e

end ContinuityCore

end Clock

/-- The support checks of derived evidence. -/
def checkSupports (c : ContinuityCore) (e : Evidence) : Except PyError Unit := do
  let supports ← (elements e.derivedFrom).mapM fun supportId =>
    match c.evidence.get? supportId with
    | some support => .ok support
    | none => .error
      (PyError.semanticViolation "DERIVED Evidence references unknown supporting Evidence")
  raiseIf (¬ ∀ s ∈ e.scope, ∃ support ∈ supports, s ∈ support.scope)
    (.semanticViolation "DERIVED Evidence scope exceeds supporting Evidence scope")
  raiseIf (e.status = .valid ∧ ∃ support ∈ supports, support.status ≠ .valid)
    (.semanticViolation "VALID DERIVED Evidence requires VALID supporting Evidence")

/-- The authority checks of an item that names supports or a derivation rule. -/
def checkDerivation (e : Evidence) : Except PyError Unit :=
  if e.authority = .derived then
    raiseIf (e.derivedFrom = ∅ ∨ truthy e.derivationRule = none)
      (.semanticViolation
        "DERIVED Evidence requires support IDs and an explicit derivation rule")
  else
    raiseIf (e.derivedFrom ≠ ∅ ∨ truthy e.derivationRule ≠ none)
      (.semanticViolation
        "derived Evidence provenance cannot silently escalate authority in C1")

def recordEvidence (e : Evidence) : CoreM Evidence := do
  let c ← get
  match c.evidence.get? e.id with
  | some existing =>
    raiseIf (existing.eq e = false)
      (PyError.semanticViolation "conflicting duplicate Evidence identity")
    return existing
  | none =>
    checkDerivation e
    if e.derivedFrom ≠ ∅ then checkSupports c e
    unique e.id
    modify fun c => { c with evidence := c.evidence.set e.id e }
    return e

end Cadi
