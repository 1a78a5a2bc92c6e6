import Cadi.Entities
import Cadi.Library.Dict
import Cadi.Library.Elements
import Cadi.Library.Graph
import Mathlib.Data.String.Basic

namespace Cadi
open Library
set_option autoImplicit true

/-- The sixteen stores of the semantic core. The `semantic_validity` callback, fixed when a
core is made, is passed to the operations that call it. -/
structure ContinuityCore where
  programs : Dict String Program := ∅
  sessions : Dict String Session := ∅
  continuations : Dict String Continuation := ∅
  requests : Dict String LogicalRequest := ∅
  attempts : Dict String Attempt := ∅
  phases : Dict String Phase := ∅
  states : Dict String ReusableState := ∅
  replicas : Dict String StateReplica := ∅
  bindings : Dict String Binding := ∅
  evidence : Dict String Evidence := ∅
  outputs : Dict String Output := ∅
  events : Dict String SemanticEvent := ∅
  eventOrder : List String := []
  currentBindingBySubject : Dict String String := ∅
  currentEpochBySubject : Dict String Int := ∅
  lastAllocatedEpochBySubject : Dict String Int := ∅
deriving DecidableEq

/-- Operations read and write the stores and can raise after a write. -/
abbrev CoreM := Stateful PyError ContinuityCore

/-- Subscription of a dictionary. -/
def item (d : Dict String α) (k : String) : Except PyError α :=
  match d.get? k with
  | some v => .ok v
  | none => .error (.keyError k)

@[simp] theorem item_eq_ok {d : Dict String α} : item d k = .ok v ↔ d.get? k = some v := by
  unfold item
  split
  · next w h => simp only [h, Except.ok.injEq, Option.some.injEq]
  · next h => simp only [h, reduceCtorEq]

theorem item_of_get? {d : Dict String α} (h : d.get? k = some v) : item d k = .ok v :=
  item_eq_ok.mpr h

theorem item_bind_eq_ok {d : Dict String α} {f : α → Except PyError β} :
    (item d k >>= f) = .ok b ↔ ∃ v, d.get? k = some v ∧ f v = .ok b := by
  simp only [Except.bind_eq_ok, item_eq_ok]

/-- The truth value of an optional string: the empty string counts as absent. -/
def truthy (o : Option String) : Option String :=
  match o with
  | some s => if s = "" then none else some s
  | none => none

theorem truthy_eq_some : truthy o = some s ↔ o = some s ∧ s ≠ "" := by
  cases o with
  | none => simp only [truthy, reduceCtorEq, false_and]
  | some t =>
    simp only [truthy, Option.some.injEq]
    by_cases h : t = ""
    · subst h
      simp only [↓reduceIte, reduceCtorEq, false_iff, not_and]
      exact fun h => not_not_intro h.symm
    · simp only [h, ↓reduceIte, Option.some.injEq]
      exact ⟨fun he => ⟨he, he ▸ h⟩, fun he => he.1⟩

theorem truthy_of_ne (h : o ≠ some "") : truthy o = o := by
  cases o with
  | none => rfl
  | some t => exact if_neg fun he => h (congrArg some he)

/-- The parents of a continuation, none for an unknown one. -/
def parentsIn (continuations : Dict String Continuation) (id : String) : List String :=
  match continuations.get? id with
  | some ct => elements ct.parentIds
  | none => []

/-- The dependencies of a State, none for an unknown one. -/
def dependenciesIn (states : Dict String ReusableState) (id : String) : List String :=
  match states.get? id with
  | some x => elements x.derivedFrom
  | none => []

namespace ContinuityCore

/-- The identifiers in use, over all twelve entity dictionaries. -/
def ids (c : ContinuityCore) : List String :=
  c.programs.keys ++ c.sessions.keys ++ c.continuations.keys ++ c.requests.keys ++
  c.attempts.keys ++ c.phases.keys ++ c.states.keys ++ c.replicas.keys ++ c.bindings.keys ++
  c.evidence.keys ++ c.outputs.keys ++ c.events.keys

def parents (c : ContinuityCore) (id : String) : Except PyError (List String) := do
  let ct ← item c.continuations id
  return elements ct.parentIds

def dependencies (c : ContinuityCore) (id : String) : Except PyError (List String) := do
  let x ← item c.states id
  return elements x.derivedFrom

def sessionNodes (c : ContinuityCore) (sessionId : String) : List String :=
  (c.continuations.entries.filter (·.2.sessionId = sessionId)).map Prod.fst

def hasCycle (c : ContinuityCore) (sessionId : String) : Except PyError Bool :=
  let nodes := c.sessionNodes sessionId
  let parentNodes (n : String) : Except PyError (List String) := do
    let ps ← c.parents n
    return ps.filter (· ∈ nodes)
  Graph.anyCycle parentNodes .exhausted nodes

def stateCycle (c : ContinuityCore) : Except PyError Bool :=
  Graph.anyCycle c.dependencies .exhausted c.states.keys

/-- The number of stack operations after which every search of the continuations has ended. -/
def searchFuel (c : ContinuityCore) (todo : Nat) : Nat :=
  Graph.searchFuel (parentsIn c.continuations) c.continuations.keys todo

def isAncestor (c : ContinuityCore) (ancestorId descendantId : String) : Except PyError Bool :=
  if ancestorId = descendantId then .ok true
  else do
    let todo ← c.parents descendantId
    let (found, _) ← Graph.worklist c.parents .exhausted (· = ancestorId)
      (c.searchFuel todo.length) [] todo.reverse
    return found

end ContinuityCore

/-- The State lifecycle a continuation lifecycle contributes, if any. -/
def ContinuationLifecycle.rank : ContinuationLifecycle → Option StateLifecycle
  | .active => some .active
  | .waiting => some .waiting
  | .speculative => some .speculative
  | _ => none

namespace ContinuityCore

def lifecycleCandidates (c : ContinuityCore) (origin : String) :
    List Continuation → Except PyError (List StateLifecycle)
  | [] => .ok []
  | ct :: cts => do
    let reached ← c.isAncestor origin ct.id
    let rest ← c.lifecycleCandidates origin cts
    return match reached, ct.lifecycle.rank with
      | true, some life => life :: rest
      | _, _ => rest

/-- The most alive of the candidates. -/
def strongest (candidates : List StateLifecycle) : StateLifecycle :=
  if .active ∈ candidates then .active
  else if .waiting ∈ candidates then .waiting
  else if .speculative ∈ candidates then .speculative
  else .terminal

def derivedLifecycle (c : ContinuityCore) (x : ReusableState) : Except PyError StateLifecycle := do
  let candidates ← c.lifecycleCandidates x.originContinuationId c.continuations.values
  return strongest candidates

end ContinuityCore

def unique (id : String) : CoreM Unit := do
  let c ← get
  raiseIf (id ∈ c.ids) (PyError.semanticViolation s!"duplicate logical identifier: {id}")

def refreshState (entry : String × ReusableState) : CoreM Unit := do
  let c ← get
  let life ← c.derivedLifecycle entry.2
  modify fun c => { c with states := c.states.set entry.1 { entry.2 with lifecycle := life } }

def refreshStateLifecycles : CoreM Unit := do
  let c ← get
  c.states.entries.forM refreshState

end Cadi
