import Cadi.Histories.Reachable

namespace Cadi
open Library Relation
set_option autoImplicit true

/-- The entities a context names are linked to each other and its Attempt is CURRENT. -/
structure ContextLinked (c : ContinuityCore) (ctx : ExecutionContext) : Prop where
  program : ctx.programId ∈ c.programs
  session : ∃ s, c.sessions.get? ctx.sessionId = some s ∧ s.programId = ctx.programId
  continuation : ∃ ct, c.continuations.get? ctx.continuationId = some ct ∧
    ct.sessionId = ctx.sessionId
  request : ∃ r, c.requests.get? ctx.requestId = some r ∧ r.continuationId = ctx.continuationId ∧
    r.currentAttemptId = some ctx.attemptId
  attempt : ∃ a, c.attempts.get? ctx.attemptId = some a ∧ a.requestId = ctx.requestId ∧
    a.authorityStatus = .current
  phase : ∀ k, ctx.phaseId = some k → ∃ p, c.phases.get? k = some p ∧
    p.attemptId = ctx.attemptId ∧ (p.status = .running ∨ p.status = .completed)

/-- The producer Attempt is the committed one of its completed request or the context's own. -/
def Authoritative (c : ContinuityCore) (ctx : ExecutionContext) (k : String) : Prop :=
  ∃ a, c.attempts.get? k = some a ∧ a.authorityStatus ≠ .superseded ∧
    ((∃ r, c.requests.get? a.requestId = some r ∧ r.status = .completed ∧
      r.committedAttemptId = some k) ∨ (k = ctx.attemptId ∧ a.authorityStatus = .current))

/-- A Phase of the context's own Attempt comes strictly before the Phase of the context. -/
def Earlier (c : ContinuityCore) (ctx : ExecutionContext) (k : String) : Prop :=
  ∀ p, c.phases.get? k = some p → p.attemptId = ctx.attemptId →
    ∃ j q, ctx.phaseId = some j ∧ c.phases.get? j = some q ∧ p.ordinal < q.ordinal

/-- What compatibility asks of one State, apart from its dependencies. -/
structure Usable (c : ContinuityCore) (semanticValidity : ReusableState → ExecutionContext → Bool)
    (ctx : ExecutionContext) (x : ReusableState) : Prop where
  valid : x.validity = .valid
  origin : AncestorOrSelf c.continuations x.originContinuationId ctx.continuationId
  producer : ∀ k, x.producerAttemptId = some k → Authoritative c ctx k
  phase : ∀ k, x.producerPhaseId = some k → Earlier c ctx k
  semantic : semanticValidity x ctx = true

/-- The State and everything it is derived from, directly or not. -/
def DerivedFrom (c : ContinuityCore) (k t : String) : Prop :=
  ReflTransGen (Graph.Edge (dependenciesIn c.states)) k t

/-- The declarative reading of compatibility. -/
structure Compatible (c : ContinuityCore)
    (semanticValidity : ReusableState → ExecutionContext → Bool) (stateId : String)
    (ctx : ExecutionContext) : Prop where
  context : ContextLinked c ctx
  closure : ∀ t, DerivedFrom c stateId t →
    ∃ x, c.states.get? t = some x ∧ Usable c semanticValidity ctx x

section Context
variable {c : ContinuityCore}

theorem phaseConsistent_iff {phaseId : Option String} :
    phaseConsistent c a phaseId = true ↔ ∀ k, phaseId = some k → ∃ p, c.phases.get? k = some p ∧
      p.attemptId = a.id ∧ (p.status = .running ∨ p.status = .completed) := by
  unfold phaseConsistent
  cases phaseId with
  | none => simp only [reduceCtorEq, false_implies, implies_true]
  | some k =>
    simp only [Option.some.injEq, forall_eq']
    cases c.phases.get? k with
    | none => simp only [Bool.false_eq_true, reduceCtorEq, false_and, exists_false]
    | some p => simp only [Bool.and_eq_true, Bool.or_eq_true, decide_eq_true_eq, Option.some.injEq,
        exists_eq_left']

theorem contextConsistent_iff (h : KeysMatch c) {ctx : ExecutionContext} :
    contextConsistent c ctx = true ↔ ContextLinked c ctx := by
  constructor
  · intro hc
    unfold contextConsistent at hc
    split at hc
    · next p s ct r a hp hs hct hr ha =>
      simp only [Bool.and_eq_true, decide_eq_true_eq, phaseConsistent_iff] at hc
      obtain ⟨⟨⟨⟨⟨⟨hprogram, hsession⟩, hcontinuation⟩, hrequest⟩, hpointer⟩, hcurrent⟩, hphase⟩ := hc
      have hpid : p.id = ctx.programId := h.programs _ p hp
      have hsid : s.id = ctx.sessionId := h.sessions _ s hs
      have hctid : ct.id = ctx.continuationId := h.continuations _ ct hct
      have hrid : r.id = ctx.requestId := h.requests _ r hr
      have haid : a.id = ctx.attemptId := h.attempts _ a ha
      rw [haid] at hpointer hphase
      exact ⟨Dict.mem_of_get? hp, ⟨s, hs, hprogram.trans hpid⟩, ⟨ct, hct, hsession.trans hsid⟩,
        ⟨r, hr, hcontinuation.trans hctid, hpointer⟩, ⟨a, ha, hrequest.trans hrid, hcurrent⟩, hphase⟩
    · cases hc
  · intro hl
    obtain ⟨p, hp⟩ := Dict.mem_iff.mp hl.program
    obtain ⟨s, hs, hprogram⟩ := hl.session
    obtain ⟨ct, hct, hsession⟩ := hl.continuation
    obtain ⟨r, hr, hcontinuation, hpointer⟩ := hl.request
    obtain ⟨a, ha, hrequest, hcurrent⟩ := hl.attempt
    have hpid : p.id = ctx.programId := h.programs _ p hp
    have hsid : s.id = ctx.sessionId := h.sessions _ s hs
    have hctid : ct.id = ctx.continuationId := h.continuations _ ct hct
    have hrid : r.id = ctx.requestId := h.requests _ r hr
    have haid : a.id = ctx.attemptId := h.attempts _ a ha
    simp only [contextConsistent, hp, hs, hct, hr, ha, Bool.and_eq_true, decide_eq_true_eq,
      phaseConsistent_iff, hpid, hsid, hctid, hrid, haid]
    exact ⟨⟨⟨⟨⟨⟨hprogram, hsession⟩, hcontinuation⟩, hrequest⟩, hpointer⟩, hcurrent⟩, hl.phase⟩

end Context

/-- The producer a State records, with the request it worked for. -/
structure Producer (c : ContinuityCore) (x : ReusableState) (k : String) (a : Attempt)
    (r : LogicalRequest) : Prop where
  named : k ≠ ""
  attempt : c.attempts.get? k = some a
  id : a.id = k
  request : c.requests.get? a.requestId = some r
  requestNamed : a.requestId ≠ ""
  origin : x.originRequestId = some a.requestId

section Provenance
variable {c : ContinuityCore}

theorem Named.attempt (h : Named c) (hk : k ∈ c.attempts) : k ≠ "" := by
  rintro rfl
  exact (ContinuityCore.Fresh.unused h).attempts hk

theorem Named.request (h : Named c) (hk : k ∈ c.requests) : k ≠ "" := by
  rintro rfl
  exact (ContinuityCore.Fresh.unused h).requests hk

theorem Named.phase (h : Named c) (hk : k ∈ c.phases) : k ≠ "" := by
  rintro rfl
  exact (ContinuityCore.Fresh.unused h).phases hk

theorem Sound.producer_of (h : Sound c) (ha : c.attempts.get? k = some a)
    (hx : x.originRequestId = some a.requestId) : ∃ r, Producer c x k a r := by
  have hr := h.oracle.scopes.attempt k a ha
  obtain ⟨r, hget⟩ := Dict.mem_iff.mp hr
  exact ⟨r, h.named.attempt (Dict.mem_of_get? ha), ha, h.oracle.keys.attempts k a ha, hget,
    h.named.request hr, hx⟩

theorem Sound.producer (h : Sound c) (hx : c.states.get? s = some x)
    (hk : x.producerAttemptId = some k) : ∃ a r, Producer c x k a r := by
  have horigin := (h.oracle.provenance s x hx).origin
  unfold DeclaredOrigin at horigin
  split at horigin
  · obtain ⟨_, _, _, _, hnone, _⟩ := horigin
    rw [hk] at hnone
    cases hnone
  · obtain ⟨r, hr, hdone, _, hrequest, _, hproducer, _⟩ := horigin
    obtain ⟨j, a, hj, ha, hreq, _⟩ := (h.oracle.commits.completed _ r hr hdone).attempt
    have hkj : k = j := Option.some.inj (hk.symm.trans (hproducer.trans hj))
    subst hkj
    obtain ⟨r', hp⟩ := h.producer_of (x := x) ha (hreq ▸ hrequest)
    exact ⟨a, r', hp⟩
  · obtain ⟨a, r, ha, hr, hproducer, hrequest, _⟩ := horigin
    have hid : a.id = x.originId := h.oracle.keys.attempts _ a ha
    have hrid : r.id = a.requestId := h.oracle.keys.requests _ r hr
    have hka : k = x.originId := Option.some.inj (hk.symm.trans (hproducer.trans (congrArg some hid)))
    subst hka
    obtain ⟨r', hp⟩ := h.producer_of (x := x) ha (hrid ▸ hrequest)
    exact ⟨a, r', hp⟩
  · obtain ⟨p, a, r, _, ha, hr, _, hproducer, hrequest, _⟩ := horigin
    have hid : a.id = p.attemptId := h.oracle.keys.attempts _ a ha
    have hrid : r.id = a.requestId := h.oracle.keys.requests _ r hr
    have hka : k = p.attemptId :=
      Option.some.inj (hk.symm.trans (hproducer.trans (congrArg some hid)))
    subst hka
    obtain ⟨r', hp⟩ := h.producer_of (x := x) ha (hrid ▸ hrequest)
    exact ⟨a, r', hp⟩
  · exact horigin.elim

theorem Sound.producerPhase (h : Sound c) (hx : c.states.get? s = some x)
    (hk : x.producerPhaseId = some k) : k ≠ "" ∧ ∃ p, c.phases.get? k = some p ∧
      some p.attemptId = x.producerAttemptId ∧ p.status = .completed := by
  have hprovenance := h.oracle.provenance s x hx
  have hne : k ≠ "" := by
    have horigin := hprovenance.origin
    unfold DeclaredOrigin at horigin
    split at horigin
    · obtain ⟨_, _, _, _, _, hnone⟩ := horigin
      rw [hk] at hnone
      cases hnone
    · obtain ⟨_, _, _, _, _, _, _, hnone⟩ := horigin
      rw [hk] at hnone
      cases hnone
    · obtain ⟨_, _, _, _, _, _, _, hnone⟩ := horigin
      rw [hk] at hnone
      cases hnone
    · obtain ⟨p, _, _, hp, _, _, hphase, _⟩ := horigin
      have hid : p.id = x.originId := h.oracle.keys.phases _ p hp
      rw [hk, hid, Option.some.injEq] at hphase
      rw [hphase]
      exact h.named.phase (Dict.mem_of_get? hp)
    · exact horigin.elim
  exact ⟨hne, hprovenance.producerPhase k (truthy_eq_some.mpr ⟨hk, hne⟩)⟩

theorem OracleHolds.not_current (h : OracleHolds c) (hr : c.requests.get? a.requestId = some r)
    (hdone : r.status = .completed) (ha : c.attempts.get? k = some a) :
    a.authorityStatus ≠ .current := by
  intro hcurrent
  have hpointer := (h.authority.current a.requestId r hr k).mpr ⟨a, ha, rfl, hcurrent⟩
  rw [(h.commits.completed a.requestId r hr hdone).current] at hpointer
  cases hpointer

/-- The nested case split on authority decides the two alternatives. -/
theorem Producer.authoritative_iff (h : OracleHolds c) (hp : Producer c x k a r)
    (ctx : ExecutionContext) :
    Authoritative c ctx k ↔ a.authorityStatus ≠ .superseded ∧
      if r.status = .completed then r.committedAttemptId = some a.id
      else a.id = ctx.attemptId ∧ a.authorityStatus = .current := by
  constructor
  · rintro ⟨a', ha', hlive, hwho⟩
    obtain rfl := Option.some.inj (hp.attempt.symm.trans ha')
    refine ⟨hlive, ?_⟩
    rw [hp.id]
    rcases hwho with ⟨r', hr', hdone, hcommitted⟩ | ⟨hown, hcurrent⟩
    · obtain rfl := Option.some.inj (hp.request.symm.trans hr')
      rw [if_pos hdone]
      exact hcommitted
    · rw [if_neg fun hdone => h.not_current hp.request hdone hp.attempt hcurrent]
      exact ⟨hown, hcurrent⟩
  · rintro ⟨hlive, hwho⟩
    rw [hp.id] at hwho
    refine ⟨a, hp.attempt, hlive, ?_⟩
    split at hwho
    · next hdone => exact .inl ⟨r, hp.request, hdone, hwho⟩
    · exact .inr hwho

end Provenance

end Cadi
