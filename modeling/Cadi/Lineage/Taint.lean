import Cadi.Lineage.Recursion

namespace Cadi
open Library Relation
set_option autoImplicit true

/-- The producer Attempt of the State has been superseded. -/
def ProducerSuperseded (c : ContinuityCore) (x : ReusableState) : Prop :=
  ∃ k a, x.producerAttemptId = some k ∧ c.attempts.get? k = some a ∧
    a.authorityStatus = .superseded

/-- The State, or one it is derived from, is INVALID or has a superseded producer. -/
def Tainted (c : ContinuityCore) (stateId : String) : Prop :=
  ∃ t x, DerivedFrom c stateId t ∧ c.states.get? t = some x ∧
    (x.validity = .invalid ∨ ProducerSuperseded c x)

section Taint
variable {c c' : ContinuityCore}

theorem ReusableState.Stays.derivedFrom {x x' : ReusableState} (h : x.Stays x') :
    x'.derivedFrom = x.derivedFrom := by
  rw [h.provenance]

theorem ReusableState.Stays.producer {x x' : ReusableState} (h : x.Stays x') :
    x'.producerAttemptId = x.producerAttemptId := by
  rw [h.provenance]

theorem Persists.edge (h : Persists c c') (he : Graph.Edge (dependenciesIn c.states) k t) :
    Graph.Edge (dependenciesIn c'.states) k t := by
  obtain ⟨x, hx, ht⟩ := mem_dependenciesIn.mp he
  obtain ⟨x', hx', hs⟩ := h.states k x hx
  apply mem_dependenciesIn.mpr
  exact ⟨x', hx', hs.derivedFrom ▸ ht⟩

theorem Persists.derivedFrom (h : Persists c c') (hd : DerivedFrom c k t) : DerivedFrom c' k t := by
  induction hd with
  | refl => exact .refl
  | tail _ he ih => exact ih.tail (h.edge he)

theorem Persists.producerSuperseded (h : Persists c c') {x x' : ReusableState} (hs : x.Stays x')
    (hp : ProducerSuperseded c x) : ProducerSuperseded c' x' := by
  obtain ⟨k, a, hk, ha, hlost⟩ := hp
  obtain ⟨a', ha', hstays⟩ := h.attempts k a ha
  exact ⟨k, a', hs.producer.trans hk, ha', (hstays.authority (.inl hlost)).trans hlost⟩

theorem Tainted.persists (h : Persists c c') (ht : Tainted c k) : Tainted c' k := by
  obtain ⟨t, x, hd, hx, hbad⟩ := ht
  obtain ⟨x', hx', hs⟩ := h.states t x hx
  refine ⟨t, x', h.derivedFrom hd, hx', ?_⟩
  apply hbad.imp
  · exact hs.validity
  · exact h.producerSuperseded hs

theorem Tainted.not_compatible (ht : Tainted c k)
    (semanticValidity : ReusableState → ExecutionContext → Bool) (ctx : ExecutionContext) :
    ¬ Compatible c semanticValidity k ctx := by
  intro hc
  obtain ⟨t, x, hd, hx, hbad⟩ := ht
  obtain ⟨x', hx', husable⟩ := hc.closure t hd
  obtain rfl := Option.some.inj (hx.symm.trans hx')
  rcases hbad with hinvalid | ⟨j, a, hj, ha, hlost⟩
  · rw [husable.valid] at hinvalid
    cases hinvalid
  · obtain ⟨a', ha', hlive, _⟩ := husable.producer j hj
    obtain rfl := Option.some.inj (ha.symm.trans ha')
    exact hlive hlost

theorem Tainted.stateCompatible_eq (ht : Tainted c k) (h : Sound c)
    (semanticValidity : ReusableState → ExecutionContext → Bool) (ctx : ExecutionContext) :
    stateCompatible (fun x ctx => .ok (semanticValidity x ctx)) c k ctx = .ok false :=
  (stateCompatible_decides h k ctx).unique (.of_not (ht.not_compatible semanticValidity ctx))

theorem canConsumeState_of_incompatible (hc : stateCompatible semanticValidity c k ctx = .ok false)
    (clock : Number) (replicaId : String) (evidenceIds : List String) (now : Option Number) :
    canConsumeState semanticValidity clock c k replicaId ctx evidenceIds now =
      if replicaId ∈ c.replicas then .ok false else .error (.keyError replicaId) := by
  unfold canConsumeState
  by_cases hr : replicaId ∈ c.replicas
  · obtain ⟨r, hget⟩ := Dict.mem_iff.mp hr
    simp only [item_of_get? hget, hc, bind, Except.bind, if_pos hr]
    split <;> rfl
  · have hnone : c.replicas.get? replicaId = none := Dict.get?_eq_none_iff.mpr hr
    simp only [item, hnone, bind, Except.bind, if_neg hr]

end Taint

/-- Once a State is tainted it is never compatible and never consumed again, in any context, through
any replica and with any evidence; an unknown replica is a key error. -/
theorem tainted_rejected (semanticValidity : ReusableState → ExecutionContext → Bool)
    (before after : List Call) (h : ∀ call ∈ before ++ after, call.operation.newId ≠ some "")
    (stateId : String)
    (ht : Tainted (run (step fun x ctx => .ok (semanticValidity x ctx)) {} before) stateId)
    (ctx : ExecutionContext) :
    stateCompatible (fun x ctx => .ok (semanticValidity x ctx))
        (run (step fun x ctx => .ok (semanticValidity x ctx)) {} (before ++ after)) stateId ctx =
      .ok false ∧
    ∀ clock replicaId evidenceIds now,
      canConsumeState (fun x ctx => .ok (semanticValidity x ctx)) clock
          (run (step fun x ctx => .ok (semanticValidity x ctx)) {} (before ++ after)) stateId
          replicaId ctx evidenceIds now =
        if replicaId ∈ (run (step fun x ctx => .ok (semanticValidity x ctx)) {}
            (before ++ after)).replicas then .ok false
        else .error (.keyError replicaId) := by
  have hpersists := (grounded_run (fun x ctx => .ok (semanticValidity x ctx)) before).persists_run
    (fun x ctx => .ok (semanticValidity x ctx)) after
  rw [← run_append] at hpersists
  have hfalse := (ht.persists hpersists).stateCompatible_eq (Sound.empty.run h) semanticValidity ctx
  exact ⟨hfalse, canConsumeState_of_incompatible hfalse⟩

/-- The run of a retried request whose second Attempt produced a State before it was retried too. -/
def staleProducerRun : List Call :=
  retriedRun ++ [⟨.int 0, .createState "y" "attempt" "b" "PREFIX" "OPAQUE" ["x"]⟩,
    ⟨.int 0, .createState "z" "continuation" "c" "PREFIX" "OPAQUE" ["y"]⟩,
    ⟨.int 0, .addReplica "v" "z" "w" .valid⟩, ⟨.int 0, .startAttempt "d" "r"⟩]

/-- The State of the superseded second Attempt in that run. -/
def staleState : ReusableState where
  id := "y"
  originType := "attempt"
  originId := "b"
  originContinuationId := "c"
  originRequestId := some "r"
  producerAttemptId := some "b"
  lifecycle := .active
  derivedFrom := {"x"}

theorem staleProducer_tainted :
    Tainted (run (step fun _ _ => .ok true) {} staleProducerRun) "z" := by
  have hedge : "y" ∈ dependenciesIn (run (step fun _ _ => .ok true) {} staleProducerRun).states "z" := by
    decide +kernel
  refine ⟨"y", staleState, .single hedge, by decide +kernel, .inr ⟨"b", ?_⟩⟩
  exact ⟨{ id := "b", requestId := "r", generation := 2, authorityStatus := .superseded }, rfl,
    by decide +kernel, rfl⟩

theorem tainted_rejected_retried :
    stateCompatible (fun _ _ => .ok true)
        (run (step fun _ _ => .ok true) {} (staleProducerRun ++ [⟨.int 0, .createRequest "q" "c"⟩]))
        "z" ⟨"p", "s", "c", "r", "d", none⟩ = .ok false :=
  (tainted_rejected (fun _ _ => true) staleProducerRun [⟨.int 0, .createRequest "q" "c"⟩]
    (by decide) "z" staleProducer_tainted ⟨"p", "s", "c", "r", "d", none⟩).1

end Cadi
