import Cadi.Histories.Reachable
import Cadi.Serialization.RoundTrip

namespace Cadi
open Library
set_option autoImplicit true

section Orders
variable {c c' : ContinuityCore}

theorem same_mem {d e : Dict String α} (h : d.Same e) (k : String) : k ∈ d ↔ k ∈ e := by
  rw [Dict.mem_iff, Dict.mem_iff, h k]

theorem Keyed.same [Entity α] {d e : Dict String α} (hd : Keyed d) (h : d.Same e) : Keyed e := by
  intro k v hv
  exact hd k v ((h k).trans hv)

theorem parentsIn_same {d e : Dict String Continuation} (h : d.Same e) : parentsIn d = parentsIn e := by
  funext k
  rw [parentsIn, parentsIn, h k]

theorem dependenciesIn_same {d e : Dict String ReusableState} (h : d.Same e) :
    dependenciesIn d = dependenciesIn e := by
  funext k
  rw [dependenciesIn, dependenciesIn, h k]

theorem values_perm {d e : Dict String α} (h : d.Same e) : d.values.Perm e.values :=
  (perm_of_same h).map Prod.snd

theorem keys_perm {d e : Dict String α} (h : d.Same e) : d.keys.Perm e.keys :=
  (perm_of_same h).map Prod.fst

theorem Numbered.perm {l m : List Int} (h : Numbered l) (hperm : l.Perm m) : Numbered m := by
  rw [Numbered, ← hperm.length_eq]
  exact hperm.symm.trans h

theorem numbersOf_perm (owner : α → String) (number : α → Int) {d e : Dict String α} (h : d.Same e)
    (k : String) : (numbersOf owner number d k).Perm (numbersOf owner number e k) :=
  ((values_perm h).filter _).map _

theorem KeysMatch.same (h : KeysMatch c) (hs : SameStores c c') : KeysMatch c' where
  programs := h.programs.same hs.programs
  sessions := h.sessions.same hs.sessions
  continuations := h.continuations.same hs.continuations
  requests := h.requests.same hs.requests
  attempts := h.attempts.same hs.attempts
  phases := h.phases.same hs.phases
  states := h.states.same hs.states
  replicas := h.replicas.same hs.replicas
  bindings := h.bindings.same hs.bindings
  evidence := h.evidence.same hs.evidence
  outputs := h.outputs.same hs.outputs
  events := h.events.same hs.events

theorem ids_perm (hs : SameStores c c') : c.ids.Perm c'.ids := by
  rw [ContinuityCore.ids, ContinuityCore.ids]
  exact ((((((((((((keys_perm hs.programs).append (keys_perm hs.sessions)).append
    (keys_perm hs.continuations)).append (keys_perm hs.requests)).append
    (keys_perm hs.attempts)).append (keys_perm hs.phases)).append (keys_perm hs.states)).append
    (keys_perm hs.replicas)).append (keys_perm hs.bindings)).append (keys_perm hs.evidence)).append
    (keys_perm hs.outputs)).append (keys_perm hs.events))

theorem ParentScopes.same
    (h : ParentScopes c.programs c.sessions c.continuations c.requests c.attempts c.phases)
    (hs : SameStores c c') :
    ParentScopes c'.programs c'.sessions c'.continuations c'.requests c'.attempts c'.phases := by
  constructor
  · simpa only [hs.sessions _, same_mem hs.programs] using h.session
  · simpa only [hs.continuations _, same_mem hs.sessions] using h.continuation
  · simpa only [hs.continuations _] using h.parent
  · simpa only [hs.requests _, same_mem hs.continuations] using h.request
  · simpa only [hs.attempts _, same_mem hs.requests] using h.attempt
  · simpa only [hs.phases _, same_mem hs.attempts] using h.phase

/-- The oracle looks at the stores as maps. -/
theorem OracleHolds.same (h : OracleHolds c) (hs : SameStores c c') : OracleHolds c' := by
  have hcontinuations := same_mem hs.continuations
  have hrequests := same_mem hs.requests
  have hattempts := same_mem hs.attempts
  have hstates := same_mem hs.states
  have hevidence := same_mem hs.evidence
  have hevents := same_mem hs.events
  constructor
  · exact h.keys.same hs
  · exact (ids_perm hs).nodup_iff.mp h.identity
  · exact h.scopes.same hs
  · constructor
    · simpa only [hs.requests _, hs.attempts _, Names, Holder] using h.authority.current
    · simpa only [hs.requests _, hs.attempts _, Names, Holder] using h.authority.committed
  · intro k hk
    exact (h.generations k ((hrequests k).mpr hk)).perm (numbersOf_perm _ _ hs.attempts k)
  · constructor
    · intro k r hr hcompleted
      obtain ⟨hcurrent, hattempt, houtput⟩ := h.commits.completed k r ((hs.requests k).trans hr) hcompleted
      constructor
      · exact hcurrent
      · simpa only [hs.attempts _] using hattempt
      · simpa only [hs.outputs _] using houtput
    · simpa only [hs.requests _] using h.commits.closed
  · have hdag := h.dag
    rw [ContinuationsAcyclic, parentsIn_same hs.continuations] at hdag
    intro k hk
    exact hdag k ((hcontinuations k).mpr hk)
  · intro k hk
    exact (h.ordinals k ((hattempts k).mpr hk)).perm (numbersOf_perm _ _ hs.phases k)
  · have hacyclic := h.acyclic
    rw [StatesAcyclic, dependenciesIn_same hs.states] at hacyclic
    intro k hk
    exact hacyclic k ((hstates k).mpr hk)
  · intro k x hx
    obtain ⟨hcontinuation, horigin, hdependency, hproducer, hphase⟩ :=
      h.provenance k x ((hs.states k).trans hx)
    constructor
    · exact (hcontinuations _).mp hcontinuation
    · rw [DeclaredOrigin] at horigin ⊢
      simpa only [hs.continuations _, hs.requests _, hs.attempts _, hs.phases _] using horigin
    · simp only [AncestorOrSelf, PhasePrecedence, parentsIn_same hs.continuations, hs.states _,
        hs.phases _] at hdependency ⊢
      exact hdependency
    · simpa only [hs.attempts _] using hproducer
    · simpa only [hs.phases _] using hphase
  · intro k r hr
    obtain ⟨hstate, hbinding⟩ := h.replicas k r ((hs.replicas k).trans hr)
    refine ⟨(hstates _).mp hstate, ?_⟩
    simpa only [hs.bindings _] using hbinding
  · constructor
    · simpa only [hs.bindings _, hs.currentBinding _, hs.currentEpoch _] using h.bindings.current
    · simpa only [hs.bindings _, hs.currentBinding _] using h.bindings.active
  · constructor
    · simpa only [hs.bindings _] using h.epochs.above
    · simpa only [hs.bindings _] using h.epochs.distinct
    · simpa only [hs.bindings _, hs.lastAllocatedEpoch _] using h.epochs.last
    · simpa only [hs.bindings _, hs.currentEpoch _] using h.epochs.current
  · intro k e he
    obtain ⟨hderived, hdirect, hsupport, hscope⟩ := h.evidence k e ((hs.evidence k).trans he)
    constructor
    · exact hderived
    · exact hdirect
    · simpa only [hs.evidence _] using hsupport
    · simpa only [hs.evidence _] using hscope
  · constructor
    · exact hs.eventOrder ▸ h.events.nodup
    · intro k
      rw [← hs.eventOrder, h.events.mem, hevents]
  · intro k o ho
    obtain ⟨hattempt, hgrounds⟩ := h.outputs k o ((hs.outputs k).trans ho)
    refine ⟨(hattempts _).mp hattempt, ?_⟩
    intro e he
    exact (hevidence e).mp (hgrounds e he)

end Orders

section Restored
variable {c : ContinuityCore} {semanticValidity : SemanticValidity} {shown : Value → String}

theorem readState_rawState (h : OracleHolds c) (hfloat : FloatNumbers c) :
    readState shown (rawState c) = .ok c.listed := by
  rw [readState, decodeState_rawState hfloat.finite, Except.ok_bind,
    validateDecodedState_ok h.keys h.identity hfloat, Except.ok_bind, coreOf_normal]
  rfl

theorem restoreCore_snapshotCore (h : OracleHolds c) (hfloat : FloatNumbers c)
    (htext : snapshotCore c = .ok text) :
    restoreCore semanticValidity shown text = .ok c.listed := by
  have hnames := rawState_names c
  have hmissing : coreFieldNames.filter (· ∉ (rawState c).map Prod.fst) = [] := by
    rw [List.filter_eq_nil_iff]
    intro name hname
    simpa only [decide_eq_true_eq, Decidable.not_not] using hnames.mem_iff.mpr hname
  have hextra : ((rawState c).map Prod.fst).filter (· ∉ coreFieldNames) = [] := by
    rw [List.filter_eq_nil_iff]
    intro name hname
    simpa only [decide_eq_true_eq, Decidable.not_not] using hnames.mem_iff.mp hname
  have hassert : assertAll semanticValidity c.listed = .ok () :=
    (assertAll_eq_ok semanticValidity c.listed).mpr (h.same (listed_sameStores c).symm)
  obtain ⟨payload, hpayload, hraw⟩ := Except.bind_eq_ok.mp (rawState_loaded hfloat.finite htext)
  simp only [restoreCore, hpayload, hraw, Except.ok_bind, hmissing, hextra, raiseIf, ne_eq,
    not_true_eq_false, ↓reduceIte, readState_rawState h hfloat, rethrow, hassert]
  rfl

/-- What is restored has passed the oracle and the checks of the state. -/
theorem restoreCore_eq_ok (h : restoreCore semanticValidity shown text = .ok c) :
    OracleHolds c ∧ ∃ rawState, readState shown rawState = .ok c := by
  obtain ⟨payload, -, h⟩ := Except.bind_eq_ok.mp h
  obtain ⟨raw, -, h⟩ := Except.bind_eq_ok.mp h
  obtain ⟨_, h⟩ := Except.then_eq_ok.mp h
  obtain ⟨_, h⟩ := Except.then_eq_ok.mp h
  obtain ⟨core, hcore, h⟩ := Except.bind_eq_ok.mp h
  obtain ⟨hassert, h⟩ := Except.then_eq_ok.mp h
  obtain rfl := Except.ok.inj h
  exact ⟨(assertAll_eq_ok _ _).mp (rethrow_eq_ok.mp hassert), raw, rethrow_eq_ok.mp hcore⟩

end Restored

section Numbers
variable {c : ContinuityCore} {shown : Value → String}

theorem validateEntries_spec {entries : List (Value × Value)}
    (h : validateEntries shown name expectedType seen entries = .ok seen') :
    ∀ e ∈ entries, validateEntity shown expectedType name e.2 = .ok () := by
  induction entries generalizing seen with
  | nil => exact fun _ he => absurd he List.not_mem_nil
  | cons e entries ih =>
    obtain ⟨key, entity⟩ := e
    cases key with
    | str k =>
      obtain ⟨hentity, h⟩ := Except.then_eq_ok.mp h
      obtain ⟨_, h⟩ := Except.then_eq_ok.mp h
      obtain ⟨_, h⟩ := Except.then_eq_ok.mp h
      exact List.forall_mem_cons.mpr ⟨hentity, ih h⟩
    | _ => cases h

theorem validateCollections_spec {state : List (String × Value)} {types : List (String × String)}
    (h : validateCollections shown state seen types = .ok ()) (hmem : (name, t) ∈ types) :
    ∃ entries, fieldOfEntity state name = .dict entries ∧
      ∀ e ∈ entries, validateEntity shown t name e.2 = .ok () := by
  induction types generalizing seen with
  | nil => cases hmem
  | cons x types ih =>
    obtain ⟨name', t'⟩ := x
    obtain ⟨seen', hcollection, h⟩ := Except.bind_eq_ok.mp h
    rcases List.mem_cons.mp hmem with heq | hmem
    · obtain ⟨rfl, rfl⟩ := Prod.mk.inj heq
      cases hfield : fieldOfEntity state name with
      | dict entries =>
        rw [hfield] at hcollection
        exact ⟨entries, rfl, validateEntries_spec hcollection⟩
      | _ =>
        rw [hfield] at hcollection
        cases hcollection
    · exact ih h hmem

theorem number_inRange {fields : List (String × Value)} {n : Number}
    (h : readField fields name = some n)
    (hmatch : annotationMatches .float (fieldOfEntity fields name) = true) : n.isFinite = true := by
  rw [readField] at h
  rw [fieldOfEntity] at hmatch
  obtain ⟨v, hv, hn⟩ := Option.bind_eq_some_iff.mp h
  rw [hv, Option.getD_some] at hmatch
  cases v with
  | num m =>
    obtain rfl := Option.some.inj hn
    exact hmatch
  | _ => cases hn

theorem optional_inRange {fields : List (String × Value)} {o : Option Number}
    (h : readField fields name = some o)
    (hmatch : annotationMatches (.optional .float) (fieldOfEntity fields name) = true) :
    Restored.InRange o := by
  rw [readField] at h
  rw [fieldOfEntity] at hmatch
  obtain ⟨v, hv, hn⟩ := Option.bind_eq_some_iff.mp h
  rw [hv, Option.getD_some] at hmatch
  cases v with
  | none =>
    obtain rfl := Option.some.inj hn
    exact fun n hn => absurd hn (Option.not_mem_none n)
  | num m =>
    obtain rfl := Option.some.inj hn
    intro n hn
    obtain rfl := Option.some.inj hn
    exact hmatch
  | _ => cases hn

theorem evidence_inRange {v : Value} {e : Evidence} (hvalue : Restored.ofValue v = some e)
    (h : validateEntity shown "Evidence" name v = .ok ()) : Restored.InRange e := by
  obtain ⟨fields, rfl, hfields⟩ : ∃ fields, v = .entity "Evidence" fields ∧
      Evidence.ofFields fields = some e := by
    cases v with
    | entity t fields =>
      by_cases ht : t = "Evidence"
      · subst ht
        exact ⟨fields, rfl, hvalue⟩
      · simp only [validateEntity, ht, ↓reduceIte, reduceCtorEq] at h
    | _ => cases hvalue
  have hspecs : ∀ spec ∈ (Dict.find dataclassTypes "Evidence").getD [],
      annotationMatches spec.hint (fieldOfEntity fields spec.name) = true :=
    validateFields_spec h
  have hat := hspecs ⟨"observed_at", .float, none⟩ (by
    simp [dataclassTypes, Dict.find])
  have huntil := hspecs ⟨"valid_until", .optional .float, some .none⟩ (by
    simp [dataclassTypes, Dict.find])
  have hconfidence := hspecs ⟨"confidence", .optional .float, some .none⟩ (by
    simp [dataclassTypes, Dict.find])
  rw [Evidence.ofFields] at hfields
  iterate 5 obtain ⟨_, -, hfields⟩ := Option.bind_eq_some_iff.mp hfields
  obtain ⟨observedAt, hobserved, hfields⟩ := Option.bind_eq_some_iff.mp hfields
  obtain ⟨_, -, hfields⟩ := Option.bind_eq_some_iff.mp hfields
  obtain ⟨validUntil, hvalid, hfields⟩ := Option.bind_eq_some_iff.mp hfields
  obtain ⟨confidence, hconf, hfields⟩ := Option.bind_eq_some_iff.mp hfields
  iterate 4 obtain ⟨_, -, hfields⟩ := Option.bind_eq_some_iff.mp hfields
  split at hfields
  · obtain rfl := Option.some.inj hfields
    exact ⟨number_inRange hobserved hat, optional_inRange hvalid huntil,
      optional_inRange hconf hconfidence⟩
  · cases hfields

theorem mem_mapM_some {f : α → Option β} {l : List α} (h : l.mapM f = some ys) (hy : y ∈ ys) :
    ∃ x ∈ l, f x = some y := by
  induction l generalizing ys with
  | nil =>
    obtain rfl := Option.some.inj h
    cases hy
  | cons x l ih =>
    rw [List.mapM_cons] at h
    obtain ⟨z, hz, h⟩ := Option.bind_eq_some_iff.mp h
    obtain ⟨zs, hzs, h⟩ := Option.bind_eq_some_iff.mp h
    obtain rfl := Option.some.inj h
    rcases List.mem_cons.mp hy with rfl | hy
    · exact ⟨x, List.mem_cons_self, hz⟩
    · obtain ⟨x', hx', hfx⟩ := ih hzs hy
      exact ⟨x', List.mem_cons_of_mem _ hx', hfx⟩

theorem mem_ofStore [Stored α] [Restored α] {entries : List (Value × Value)} {d : Dict String α}
    (h : ofStore (.dict entries) = some d) (hk : d.get? k = some a) :
    ∃ e ∈ entries, Restored.ofValue e.2 = some a := by
  obtain ⟨l, hl, h⟩ := Option.bind_eq_some_iff.mp h
  split at h
  · obtain rfl := Option.some.inj h
    obtain ⟨⟨key, v⟩, he, hentry⟩ := mem_mapM_some hl (Dict.get?_eq_some_iff.mp hk)
    refine ⟨(key, v), he, ?_⟩
    cases key with
    | str s =>
      obtain ⟨b, hb, heq⟩ := Option.map_eq_some_iff.mp hentry
      rw [← (Prod.mk.inj heq).2]
      exact hb
    | _ => cases hentry
  · cases h

theorem readState_floatNumbers (h : readState shown raw = .ok c) : FloatNumbers c := by
  obtain ⟨state, -, h⟩ := Except.bind_eq_ok.mp h
  obtain ⟨hvalid, h⟩ := Except.then_eq_ok.mp h
  obtain ⟨hcollections, -⟩ := Except.then_eq_ok.mp hvalid
  obtain ⟨entries, hentries, hvalid⟩ :=
    validateCollections_spec hcollections
      (by decide : ("evidence", "Evidence") ∈ entityCollectionTypes)
  cases hcore : coreOf state with
  | none =>
    rw [hcore] at h
    cases h
  | some core =>
    rw [hcore] at h
    obtain rfl := Except.ok.inj h
    have hevidence : ofStore (fieldOfEntity state "evidence") = some core.evidence := by
      rw [coreOf] at hcore
      iterate 9 obtain ⟨_, -, hcore⟩ := Option.bind_eq_some_iff.mp hcore
      obtain ⟨evidence, hevidence, hcore⟩ := Option.bind_eq_some_iff.mp hcore
      iterate 6 obtain ⟨_, -, hcore⟩ := Option.bind_eq_some_iff.mp hcore
      obtain rfl := Option.some.inj hcore
      exact hevidence
    intro k e he
    rw [hentries] at hevidence
    obtain ⟨entry, hentry, hvalue⟩ := mem_ofStore hevidence he
    exact evidence_inRange hvalue (hvalid entry hentry)

end Numbers

section Runs
variable {c : ContinuityCore} {semanticValidity : SemanticValidity} {shown : Value → String}

/-- Evidence recorded by the call has numbers in range. -/
def RecordsFloats (call : Call) : Prop :=
  ∀ e, call.operation = .recordEvidence e → Restored.InRange e

/-- Evidence recorded by the call has finite numbers. -/
def RecordsFinite (call : Call) : Prop :=
  ∀ e, call.operation = .recordEvidence e → Restored.Finite e

theorem RecordsFloats.finite {call : Call} (h : RecordsFloats call) : RecordsFinite call :=
  fun e he => finite_of_inRange (h e he)

/-- All Evidence of the core meets a condition. -/
def AllEvidence (Q : Evidence → Prop) (c : ContinuityCore) : Prop :=
  ∀ k e, c.evidence.get? k = some e → Q e

theorem Effect.allEvidence {Q : Evidence → Prop} {e : Effect} (h : AllEvidence Q c)
    (he : ∀ x, e = .recordEvidence x → Q x) : AllEvidence Q (e.apply c) := by
  cases e with
  | recordEvidence x =>
    intro k y hy
    rcases Dict.get?_set_eq_some_iff.mp hy with ⟨rfl, rfl⟩ | ⟨_, hy⟩
    · exact he x rfl
    · exact h k y hy
  | _ => exact h

/-- Evidence and events are recorded by the calls of that name alone. -/
theorem PublicOperation.recorded_of_performs {operation : PublicOperation}
    (hes : operation.Performs es) (he : e ∈ es) :
    (∀ x, e = .recordEvidence x → operation = .recordEvidence x) ∧
      ∀ event, e = .recordEvent event → operation = .recordEvent event := by
  have hother (h : ∀ x, e ≠ .recordEvidence x) (h' : ∀ event, e ≠ .recordEvent event) :
      (∀ x, e = .recordEvidence x → operation = .recordEvidence x) ∧
        ∀ event, e = .recordEvent event → operation = .recordEvent event :=
    ⟨fun x hx => absurd hx (h x), fun event hevent => absurd hevent (h' event)⟩
  cases operation with
  | createProgram | createSession | createContinuation | createRequest | createPhase | createOutput
  | addReplica | proposeBinding | activateInitialBinding =>
    cases hes
    cases List.mem_singleton.mp he
    exact hother (fun _ => Effect.noConfusion) fun _ => Effect.noConfusion
  | startAttempt | createState | setProgramStatus | setContinuationLifecycle | setAttemptExecution
  | completeAttempt | setPhaseStatus | completePhase | setStateValidity | setReplicaStatus
  | beginMigration | commitMigration =>
    obtain ⟨_, _, rfl⟩ := hes
    cases List.mem_singleton.mp he
    exact hother (fun _ => Effect.noConfusion) fun _ => Effect.noConfusion
  | resumeAfterWait =>
    obtain ⟨_, _, _, rfl⟩ := hes
    rcases List.mem_pair.mp he with rfl | rfl
    · exact hother (fun _ => Effect.noConfusion) fun _ => Effect.noConfusion
    · exact hother (fun _ => Effect.noConfusion) fun _ => Effect.noConfusion
  | finalizeRequest =>
    rcases hes with rfl | ⟨_, _, _, _, _, rfl⟩
    · cases he
    · cases List.mem_singleton.mp he
      exact hother (fun _ => Effect.noConfusion) fun _ => Effect.noConfusion
  | recordEvent event =>
    rcases hes with rfl | rfl
    · cases he
    · cases List.mem_singleton.mp he
      exact ⟨fun _ => Effect.noConfusion, fun _ h => congrArg _ (Effect.recordEvent.inj h)⟩
  | recordEvidence y =>
    rcases hes with rfl | rfl
    · cases he
    · cases List.mem_singleton.mp he
      exact ⟨fun _ h => congrArg _ (Effect.recordEvidence.inj h), fun _ => Effect.noConfusion⟩
  | isAncestor | stateCompatible | canConsumeState | requireEvidence | reconcile =>
    cases hes
    cases he

theorem AllEvidence.step {Q : Evidence → Prop} (h : AllEvidence Q c) (hg : Grounded c)
    (hcall : ∀ e, call.operation = .recordEvidence e → Q e) :
    AllEvidence Q (step semanticValidity c call) := by
  apply step_keeps hg h
  intro _ es c' hes ht
  have hrecords : ∀ e ∈ es, ∀ x, e = .recordEvidence x → Q x := by
    intro e he x hx
    subst hx
    exact hcall x ((PublicOperation.recorded_of_performs hes he).1 x rfl)
  exact ht.invariant (.of_forall hrecords c) h fun _ e hc _ he => Effect.allEvidence hc he

theorem AllEvidence.empty (Q : Evidence → Prop) : AllEvidence Q {} := by
  intro k e h
  cases h

theorem AllEvidence.run {Q : Evidence → Prop} {calls : List Call} (h : AllEvidence Q c)
    (hg : Grounded c) (hcalls : ∀ call ∈ calls, ∀ e, call.operation = .recordEvidence e → Q e) :
    AllEvidence Q (run (Cadi.step semanticValidity) c calls) := by
  have hboth : Grounded (Library.run (Cadi.step semanticValidity) c calls) ∧
      AllEvidence Q (Library.run (Cadi.step semanticValidity) c calls) :=
    invariant_run (P := fun c => Grounded c ∧ AllEvidence Q c) ⟨hg, h⟩
      (fun _ call hc hcall => ⟨hc.1.step semanticValidity call, hc.2.step hc.1 hcall⟩)
      (.of_forall hcalls c)
  exact hboth.2

theorem FloatNumbers.empty : FloatNumbers {} := AllEvidence.empty _

theorem FloatNumbers.step (h : FloatNumbers c) (hg : Grounded c) (hcall : RecordsFloats call) :
    FloatNumbers (step semanticValidity c call) := AllEvidence.step h hg hcall

theorem floatNumbers_run {calls : List Call} (h : FloatNumbers c) (hg : Grounded c)
    (hcalls : ∀ call ∈ calls, RecordsFloats call) :
    FloatNumbers (run (step semanticValidity) c calls) := AllEvidence.run h hg hcalls

theorem FiniteNumbers.step (h : FiniteNumbers c) (hg : Grounded c) (hcall : RecordsFinite call) :
    FiniteNumbers (step semanticValidity c call) := AllEvidence.step h hg hcall

theorem finiteNumbers_run {calls : List Call} (hcalls : ∀ call ∈ calls, RecordsFinite call) :
    FiniteNumbers (run (step semanticValidity) {} calls) :=
  AllEvidence.run (.empty _) .empty hcalls

/-- The snapshot of the core is restored to the same stores, whose snapshot is the same text. -/
def Restorable (c : ContinuityCore) : Prop :=
  ∀ semanticValidity shown, ∃ text c', snapshotCore c = .ok text ∧
    restoreCore semanticValidity shown text = .ok c' ∧ SameStores c' c ∧ snapshotCore c' = .ok text

theorem Restorable.of_oracle (h : OracleHolds c) (hfloat : FloatNumbers c) : Restorable c := by
  intro semanticValidity shown
  have htext := snapshotCore_ok hfloat.finite
  refine ⟨_, c.listed, htext, restoreCore_snapshotCore h hfloat htext, listed_sameStores c, ?_⟩
  rw [snapshotCore_same (listed_sameStores c), htext]

/-- Every core of a run from the empty one that names no entity by the empty string and records
Evidence with numbers in the range of a float is restored from its snapshot. -/
theorem restorable_run (semanticValidity : SemanticValidity) (calls : List Call)
    (hnamed : ∀ call ∈ calls, call.operation.newId ≠ some "")
    (hfloat : ∀ call ∈ calls, RecordsFloats call) :
    Restorable (run (step semanticValidity) {} calls) :=
  .of_oracle (Sound.empty.run hnamed).oracle
    (floatNumbers_run .empty Sound.empty.reached.grounded hfloat)

/-- A run with Evidence observed at a float. -/
def observedRun : List Call :=
  retriedRun ++ [⟨.int 0, .recordEvidence ⟨"e", "ok", "runtime", .exactObservation, .valid,
    .float (.finite false 0 representable_zero), ∅, none, none, ∅, none, none, none, True.intro⟩⟩]

theorem observedRun_floats : ∀ call ∈ observedRun, RecordsFloats call := by
  intro call hcall e he
  rcases List.mem_append.mp hcall with hcall | hcall
  · have hnone : ∀ call ∈ retriedRun, ∀ e, call.operation ≠ .recordEvidence e := by
      intro call hcall e he
      simp only [retriedRun, List.mem_cons, List.not_mem_nil, or_false] at hcall
      rcases hcall with rfl | rfl | rfl | rfl | rfl | rfl | rfl | rfl <;> cases he
    exact absurd he (hnone call hcall e)
  · obtain rfl := List.mem_singleton.mp hcall
    cases he
    refine ⟨rfl, ?_, ?_⟩
    · exact fun n hn => absurd hn (Option.not_mem_none n)
    · exact fun n hn => absurd hn (Option.not_mem_none n)

theorem restorable_run_observed : Restorable (run (step defaultValidity) {} observedRun) :=
  restorable_run defaultValidity observedRun (by decide) observedRun_floats

/-- Whatever text is restored, a run whose accepted calls are guarded keeps what the oracle asks and
stays restorable. -/
theorem restored_throughout (h : restoreCore semanticValidity shown text = .ok c)
    (hguarded : Along (step semanticValidity)
      (fun c call => AcceptedGuarded semanticValidity c call ∧ RecordsFloats call) c calls) :
    Throughout (step semanticValidity)
      (fun c => assertAll semanticValidity c = .ok () ∧ Restorable c) c calls := by
  obtain ⟨horacle, raw, hread⟩ := restoreCore_eq_ok h
  have hall := invariant_throughout (P := fun c => OracleHolds c ∧ FloatNumbers c)
    ⟨horacle, readState_floatNumbers hread⟩
    (fun _ call hc hcall => ⟨hc.1.step hcall.1, hc.2.step hc.1.grounded hcall.2⟩) hguarded
  exact hall.mono fun c hc => ⟨(assertAll_eq_ok semanticValidity c).mpr hc.1, .of_oracle hc.1 hc.2⟩

/-- The core of the observed run, restored and continued. -/
theorem restored_throughout_observed : Throughout (step defaultValidity)
    (fun c => assertAll defaultValidity c = .ok () ∧ Restorable c)
    (run (step defaultValidity) {} observedRun).listed [⟨.int 0, .createProgram "q"⟩] := by
  have hsound : Sound (run (step defaultValidity) {} observedRun) := Sound.empty.run (by decide)
  have hfloat : FloatNumbers (run (step defaultValidity) {} observedRun) :=
    floatNumbers_run .empty Sound.empty.reached.grounded observedRun_floats
  have hrestored : restoreCore defaultValidity (fun _ => "") _ = .ok _ :=
    restoreCore_snapshotCore hsound.oracle hfloat (snapshotCore_ok hfloat.finite)
  refine restored_throughout hrestored ⟨⟨fun _ => True.intro, ?_⟩, True.intro⟩
  intro e he
  cases he

end Runs

section Canonical
variable {c c' : ContinuityCore}

theorem sameStores_of_snapshotCore (h : snapshotCore c = .ok text) (h' : snapshotCore c' = .ok text) :
    SameStores c c' := by
  have hraw := rawState_loaded (finite_of_snapshotCore h) h
  rw [rawState_loaded (finite_of_snapshotCore h') h'] at hraw
  have hstate := decodeState_rawState (finite_of_snapshotCore h)
  rw [← Except.ok.inj hraw, decodeState_rawState (finite_of_snapshotCore h')] at hstate
  have hlisted : c'.listed = c.listed := by
    have hcore := coreOf_normal c
    rw [← Except.ok.inj hstate, coreOf_normal] at hcore
    exact Option.some.inj hcore
  exact (listed_sameStores c).symm.trans (hlisted ▸ listed_sameStores c')

/-- Two cores have the same snapshot just when they have the same stores, whatever the orders in
which these were filled. -/
theorem snapshotCore_eq_iff (h : FiniteNumbers c) :
    snapshotCore c = snapshotCore c' ↔ SameStores c c' := by
  constructor
  · intro heq
    exact sameStores_of_snapshotCore (snapshotCore_ok h) (heq ▸ snapshotCore_ok h)
  · exact snapshotCore_same

/-- The same programs, made in either order. -/
def programsMade : List Call := [⟨.int 0, .createProgram "p"⟩, ⟨.int 0, .createProgram "q"⟩]

def programsMade' : List Call := [⟨.int 0, .createProgram "q"⟩, ⟨.int 0, .createProgram "p"⟩]

theorem programsMade_same : SameStores (run (step defaultValidity) {} programsMade)
    (run (step defaultValidity) {} programsMade') := by
  have hprograms (c c' : ContinuityCore) (h : c.programs.Same c'.programs)
      (hc : c = { programs := c.programs }) (hc' : c' = { programs := c'.programs }) :
      SameStores c c' := by
    rw [hc, hc']
    constructor
    · exact h
    all_goals first | rfl | exact Dict.Same.refl _
  refine hprograms _ _ ?_ rfl rfl
  intro k
  change ((Dict.empty.set "p" ⟨"p", .created⟩).set "q" ⟨"q", .created⟩ : Dict String Program).get? k =
    ((Dict.empty.set "q" ⟨"q", .created⟩).set "p" ⟨"p", .created⟩ : Dict String Program).get? k
  simp only [Dict.get?_set]
  by_cases hp : "p" = k
  · subst hp
    rfl
  · rw [if_neg hp, if_neg hp]

theorem programsMade_finite : FiniteNumbers (run (step defaultValidity) {} programsMade) := by
  intro k e he
  cases he

theorem snapshotCore_eq_programs : snapshotCore (run (step defaultValidity) {} programsMade) =
    snapshotCore (run (step defaultValidity) {} programsMade') :=
  (snapshotCore_eq_iff programsMade_finite).mpr programsMade_same

end Canonical

end Cadi
