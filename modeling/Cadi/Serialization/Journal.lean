import Cadi.Serialization.Accepted
import Cadi.Serialization.Replay

namespace Cadi
open Library
set_option autoImplicit true

section Calls

/-- The action of a call with its keyword arguments; the queries are no actions of a trace. -/
def PublicOperation.recorded : PublicOperation → String × List (String × Value)
  | .createProgram id => ("create_program", [("id_", value id)])
  | .setProgramStatus programId status =>
    ("set_program_status", [("program_id", value programId), ("status", value status)])
  | .createSession id programId => ("create_session", [("id_", value id), ("program_id", value programId)])
  | .createContinuation id sessionId parentIds lifecycle =>
    ("create_continuation", [("id_", value id), ("session_id", value sessionId),
      ("parent_ids", value parentIds), ("lifecycle", value lifecycle)])
  | .setContinuationLifecycle continuationId lifecycle =>
    ("set_continuation_lifecycle",
      [("continuation_id", value continuationId), ("lifecycle", value lifecycle)])
  | .resumeAfterWait waitingId childId =>
    ("resume_after_wait", [("waiting_id", value waitingId), ("child_id", value childId)])
  | .createRequest id continuationId =>
    ("create_request", [("id_", value id), ("continuation_id", value continuationId)])
  | .startAttempt id requestId => ("start_attempt", [("id_", value id), ("request_id", value requestId)])
  | .setAttemptExecution attemptId status =>
    ("set_attempt_execution", [("attempt_id", value attemptId), ("status", value status)])
  | .completeAttempt attemptId succeeded =>
    ("complete_attempt", [("attempt_id", value attemptId), ("succeeded", value succeeded)])
  | .createPhase id attemptId phaseType ordinal =>
    ("create_phase", [("id_", value id), ("attempt_id", value attemptId),
      ("phase_type", value phaseType), ("ordinal", (value ordinal).normal)])
  | .setPhaseStatus phaseId status =>
    ("set_phase_status", [("phase_id", value phaseId), ("status", value status)])
  | .completePhase phaseId => ("complete_phase", [("phase_id", value phaseId)])
  | .createOutput id attemptId terminal evidenceIds =>
    ("create_output", [("id_", value id), ("attempt_id", value attemptId), ("terminal", value terminal),
      ("evidence_ids", value evidenceIds)])
  | .finalizeRequest requestId outputId now =>
    ("finalize_request", [("request_id", value requestId), ("output_id", value outputId),
      ("now", (value now).normal)])
  | .createState id originType originId semanticType representation derivedFrom =>
    ("create_state", [("id_", value id), ("origin_type", value originType), ("origin_id", value originId),
      ("semantic_type", value semanticType), ("representation", value representation),
      ("derived_from", value derivedFrom)])
  | .setStateValidity stateId validity =>
    ("set_state_validity", [("state_id", value stateId), ("validity", value validity)])
  | .addReplica id stateId locationId status =>
    ("add_replica", [("id_", value id), ("state_id", value stateId), ("location_id", value locationId),
      ("status", value status)])
  | .setReplicaStatus replicaId status =>
    ("set_replica_status", [("replica_id", value replicaId), ("status", value status)])
  | .proposeBinding id subjectId locationId =>
    ("propose_binding", [("id_", value id), ("subject_id", value subjectId),
      ("location_id", value locationId)])
  | .activateInitialBinding id subjectId locationId =>
    ("activate_initial_binding", [("id_", value id), ("subject_id", value subjectId),
      ("location_id", value locationId)])
  | .beginMigration bindingId => ("begin_migration", [("binding_id", value bindingId)])
  | .commitMigration bindingId evidenceIds now =>
    ("commit_migration", [("binding_id", value bindingId), ("evidence_ids", value evidenceIds),
      ("now", (value now).normal)])
  | .recordEvidence e => ("record_evidence", [("e", (value e).normal)])
  | .recordEvent event => ("record_event", [("event", (value event).normal)])
  | .isAncestor _ _ => ("is_ancestor", [])
  | .stateCompatible _ _ => ("state_compatible", [])
  | .canConsumeState _ _ _ _ _ => ("can_consume_state", [])
  | .requireEvidence _ _ _ _ _ => ("require_evidence", [])
  | .reconcile _ _ _ _ => ("reconcile", [])

/-- The operation of a journal under its identity. -/
def journalEntry (shown : Value → String) (id : String) (operation : PublicOperation) :
    Except PyError SemanticOperation :=
  SemanticOperation.build shown id operation.recorded.1 operation.recorded.2

/-- A call that changes the state, is told the time where it needs it, and whose numbers convert to
finite floats. -/
def PublicOperation.Recordable : PublicOperation → Prop
  | .finalizeRequest _ _ now => ∃ n, now = some n ∧ n.isFinite = true
  | .commitMigration _ _ now => ∃ n, now = some n ∧ n.isFinite = true
  | .recordEvidence e => Restored.InRange e
  | .isAncestor _ _ => False
  | .stateCompatible _ _ => False
  | .canConsumeState _ _ _ _ _ => False
  | .requireEvidence _ _ _ _ _ => False
  | .reconcile _ _ _ _ => False
  | _ => True

end Calls

section Arguments
open Restored

/-- A value that is passed for a parameter of the annotation. -/
inductive Passed : Annotation → Value → Prop
  | text (s : String) : Passed .str (value s)
  | bool (b : Bool) : Passed .bool (value b)
  | enum [DecidableEq α] [Enumeration α] [Known α] (a : α) :
    Passed (.enum (Enumeration.enumType α)) (value a)
  | texts (l : List String) : Passed (.iterable .str) (value l)
  | ordinal (o : Option Int) : Passed (.optional .int) (value o).normal
  | now {n : Number} (h : n.isFinite = true) : Passed (.optional .float) (value (some n)).normal
  | evidence {e : Evidence} (h : InRange e) : Passed (.entity "Evidence") (value e).normal
  | event (event : SemanticEvent) : Passed (.entity "SemanticEvent") (value event).normal

theorem all_normalFields {t : String} {fields : List (String × Value)}
    (h : validateEntity shown t name (.entity t fields) = .ok ()) :
    ((Dict.find dataclassTypes t).getD []).all (fun spec =>
      annotationMatches spec.hint (fieldOfEntity fields spec.name)) = true := by
  rw [validateEntity, if_pos rfl] at h
  exact List.all_eq_true.mpr (validateFields_spec h)

theorem Passed.accepted (h : Passed a v) : operationAnnotationMatches a v = true := by
  cases h with
  | text s => rfl
  | bool b => rfl
  | enum a => exact decide_eq_true rfl
  | texts l =>
    change ((l.map Value.str).all (operationAnnotationMatches .str)) = true
    rw [List.all_map, List.all_eq_true]
    exact fun _ _ => rfl
  | ordinal o => cases o <;> rfl
  | now h => exact h
  | @evidence e h =>
    have hall := all_normalFields (Record.valid e h (fun _ => "") "e")
    exact hall
  | event event =>
    have hall := all_normalFields (Record.valid event True.intro (fun _ => "") "event")
    exact hall

theorem Passed.normal (h : Passed a v) : v.normal = v := by
  cases h with
  | text | bool | enum => rfl
  | texts l =>
    change Value.list (normalItems (l.map Value.str)) = .list (l.map Value.str)
    rw [normalItems_eq, List.map_map]
    rfl
  | ordinal o => cases o <;> rfl
  | now h => rfl
  | evidence h => exact (normal_normal (plain _ (finite_of_inRange h))).1
  | event event => exact (normal_normal (plain event True.intro)).1

theorem Passed.plain (h : Passed a v) : v.Plain := by
  cases h with
  | text s => exact .str s
  | bool b => exact .bool b
  | enum a => exact Restored.plain a True.intro
  | texts l =>
    refine .list fun v hv => ?_
    obtain ⟨s, -, rfl⟩ := List.mem_map.mp hv
    exact .str s
  | ordinal o =>
    cases o with
    | none => exact .none
    | some z => exact .num rfl
  | now h => exact .num (Number.JsonFinite.of_isFinite h)
  | evidence h => exact (normal_normal (Restored.plain _ (finite_of_inRange h))).2
  | event event => exact (normal_normal (Restored.plain event True.intro)).2

/-- Arguments that are passed for the parameters, one for each. -/
def Fits (parameters : List Parameter) (arguments : List (String × Value)) : Prop :=
  List.Forall₂ (fun p a => p.name = a.1 ∧ Passed p.hint a.2) parameters arguments

theorem Fits.names (h : Fits parameters arguments) :
    parameters.map (·.name) = arguments.map Prod.fst := by
  induction h with
  | nil => rfl
  | cons h _ ih => rw [List.map_cons, List.map_cons, h.1, ih]

theorem Fits.passed (h : Fits parameters arguments) (ha : a ∈ arguments) :
    ∃ hint, Passed hint a.2 := by
  induction h with
  | nil => cases ha
  | cons h _ ih =>
    rcases List.mem_cons.mp ha with rfl | ha
    · exact ⟨_, h.2⟩
    · exact ih ha

theorem Fits.check (h : Fits parameters arguments) (hnames : (arguments.map Prod.fst).Nodup)
    (action : String) : checkArguments shown action arguments parameters = .ok () := by
  have hall {ps : List Parameter} {args : List (String × Value)} (h : Fits ps args)
      (hsub : ∀ a ∈ args, a ∈ arguments) : checkArguments shown action arguments ps = .ok () := by
    induction h with
    | nil => rfl
    | cons h _ ih =>
      have hfind := (Dict.find_eq_some_iff hnames).mpr (hsub _ List.mem_cons_self)
      rw [checkArguments, h.1, hfind]
      change (raiseIf _ _ >>= _) = _
      rw [h.2.accepted, Except.then_eq_ok, raiseIf_eq_ok]
      exact ⟨Bool.false_ne_true.symm, ih fun a ha => hsub a (List.mem_cons_of_mem _ ha)⟩
  exact hall h fun _ ha => ha

theorem Fits.binds (h : Fits parameters arguments) :
    binds parameters (arguments.map Prod.fst) = true := by
  rw [Cadi.binds, ← h.names, Bool.and_eq_true, List.all_eq_true, List.all_eq_true]
  constructor
  · exact fun name hname => decide_eq_true hname
  · intro p hp
    rw [Bool.or_eq_true, decide_eq_true_eq]
    exact .inr (List.mem_map_of_mem hp)

end Arguments

section Reading

theorem bind_eq_some_of {x : Option α} {f : α → Option β} (hx : x = some a) (hf : f a = some b) :
    (x >>= f) = some b := by
  rw [hx]
  exact hf

variable [Stored α] [Restored α] {arguments : String → Option Value} {name : String}

theorem required_of (a : α) (h : arguments name = some (value a).normal) :
    required arguments name = some a := by
  rw [required, h]
  exact Restored.ofValue_normal a

theorem given_of (a b : α) (h : arguments name = some (value a).normal) :
    given arguments name b = some a := by
  rw [given, h]
  exact Restored.ofValue_normal a

theorem textsIn_list (l : List String) : textsIn (value l) = some l :=
  mapM_map (f := Value.str) (g := stringIn) (fun _ => rfl) l

theorem requiredTexts_of (l : List String) (h : arguments name = some (value l)) :
    requiredTexts arguments name = some l := by
  rw [requiredTexts, h]
  exact textsIn_list l

theorem givenTexts_of (l : List String) (h : arguments name = some (value l)) :
    givenTexts arguments name = some l := by
  rw [givenTexts, h]
  exact textsIn_list l

end Reading

section Recorded

/-- What is recorded of a call: arguments for each of the parameters of its method, from which the
call is made again. -/
structure Recorded (operation : PublicOperation) (parameters : List Parameter) : Prop where
  found : Dict.find signatures operation.recorded.1 = some parameters
  fits : Fits parameters operation.recorded.2
  again : toOperation (Dict.find operation.recorded.2) operation.recorded.1 = some operation
  timed : operation.recorded.1 ∈ timeSensitiveActions →
    ((Dict.find operation.recorded.2 "now").getD .none).isNone = false

theorem untimed (action : String) {P : Prop} (h : action ∉ timeSensitiveActions) :
    action ∈ timeSensitiveActions → P := fun ha => absurd ha h

theorem PublicOperation.Recordable.recorded {operation : PublicOperation} (h : operation.Recordable) :
    ∃ parameters, Recorded operation parameters := by
  cases operation with
  | createProgram id =>
    exact ⟨_, rfl,
      .cons ⟨rfl, .text id⟩ .nil,
      bind_eq_some_of (required_of id rfl) rfl,
      untimed "create_program" (by decide)⟩
  | setProgramStatus programId status =>
    exact ⟨_, rfl,
      .cons ⟨rfl, .text programId⟩ (.cons ⟨rfl, .enum status⟩ .nil),
      bind_eq_some_of (required_of programId rfl) (bind_eq_some_of (required_of status rfl) rfl),
      untimed "set_program_status" (by decide)⟩
  | createSession id programId =>
    exact ⟨_, rfl,
      .cons ⟨rfl, .text id⟩ (.cons ⟨rfl, .text programId⟩ .nil),
      bind_eq_some_of (required_of id rfl) (bind_eq_some_of (required_of programId rfl) rfl),
      untimed "create_session" (by decide)⟩
  | createContinuation id sessionId parentIds lifecycle =>
    exact ⟨_, rfl,
      .cons ⟨rfl, .text id⟩ (.cons ⟨rfl, .text sessionId⟩ (.cons ⟨rfl, .texts parentIds⟩ (.cons
        ⟨rfl, .enum lifecycle⟩ .nil))),
      bind_eq_some_of (required_of id rfl) (bind_eq_some_of (required_of sessionId rfl)
        (bind_eq_some_of (givenTexts_of parentIds rfl) (bind_eq_some_of (given_of lifecycle .active
        rfl) rfl))),
      untimed "create_continuation" (by decide)⟩
  | setContinuationLifecycle continuationId lifecycle =>
    exact ⟨_, rfl,
      .cons ⟨rfl, .text continuationId⟩ (.cons ⟨rfl, .enum lifecycle⟩ .nil),
      bind_eq_some_of (required_of continuationId rfl) (bind_eq_some_of (required_of lifecycle rfl)
        rfl),
      untimed "set_continuation_lifecycle" (by decide)⟩
  | resumeAfterWait waitingId childId =>
    exact ⟨_, rfl,
      .cons ⟨rfl, .text waitingId⟩ (.cons ⟨rfl, .text childId⟩ .nil),
      bind_eq_some_of (required_of waitingId rfl) (bind_eq_some_of (required_of childId rfl) rfl),
      untimed "resume_after_wait" (by decide)⟩
  | createRequest id continuationId =>
    exact ⟨_, rfl,
      .cons ⟨rfl, .text id⟩ (.cons ⟨rfl, .text continuationId⟩ .nil),
      bind_eq_some_of (required_of id rfl) (bind_eq_some_of (required_of continuationId rfl) rfl),
      untimed "create_request" (by decide)⟩
  | startAttempt id requestId =>
    exact ⟨_, rfl,
      .cons ⟨rfl, .text id⟩ (.cons ⟨rfl, .text requestId⟩ .nil),
      bind_eq_some_of (required_of id rfl) (bind_eq_some_of (required_of requestId rfl) rfl),
      untimed "start_attempt" (by decide)⟩
  | setAttemptExecution attemptId status =>
    exact ⟨_, rfl,
      .cons ⟨rfl, .text attemptId⟩ (.cons ⟨rfl, .enum status⟩ .nil),
      bind_eq_some_of (required_of attemptId rfl) (bind_eq_some_of (required_of status rfl) rfl),
      untimed "set_attempt_execution" (by decide)⟩
  | completeAttempt attemptId succeeded =>
    exact ⟨_, rfl,
      .cons ⟨rfl, .text attemptId⟩ (.cons ⟨rfl, .bool succeeded⟩ .nil),
      bind_eq_some_of (required_of attemptId rfl) (bind_eq_some_of (given_of succeeded true rfl)
        rfl),
      untimed "complete_attempt" (by decide)⟩
  | createPhase id attemptId phaseType ordinal =>
    exact ⟨_, rfl,
      .cons ⟨rfl, .text id⟩ (.cons ⟨rfl, .text attemptId⟩ (.cons ⟨rfl, .enum phaseType⟩ (.cons ⟨rfl,
        .ordinal ordinal⟩ .nil))),
      bind_eq_some_of (required_of id rfl) (bind_eq_some_of (required_of attemptId rfl)
        (bind_eq_some_of (required_of phaseType rfl) (bind_eq_some_of (given_of ordinal none rfl)
        rfl))),
      untimed "create_phase" (by decide)⟩
  | setPhaseStatus phaseId status =>
    exact ⟨_, rfl,
      .cons ⟨rfl, .text phaseId⟩ (.cons ⟨rfl, .enum status⟩ .nil),
      bind_eq_some_of (required_of phaseId rfl) (bind_eq_some_of (required_of status rfl) rfl),
      untimed "set_phase_status" (by decide)⟩
  | completePhase phaseId =>
    exact ⟨_, rfl,
      .cons ⟨rfl, .text phaseId⟩ .nil,
      bind_eq_some_of (required_of phaseId rfl) rfl,
      untimed "complete_phase" (by decide)⟩
  | createOutput id attemptId terminal evidenceIds =>
    exact ⟨_, rfl,
      .cons ⟨rfl, .text id⟩ (.cons ⟨rfl, .text attemptId⟩ (.cons ⟨rfl, .bool terminal⟩ (.cons ⟨rfl,
        .texts evidenceIds⟩ .nil))),
      bind_eq_some_of (required_of id rfl) (bind_eq_some_of (required_of attemptId rfl)
        (bind_eq_some_of (required_of terminal rfl) (bind_eq_some_of (givenTexts_of evidenceIds rfl)
        rfl))),
      untimed "create_output" (by decide)⟩
  | finalizeRequest requestId outputId now =>
    obtain ⟨n, rfl, h⟩ := h
    exact ⟨_, rfl,
      .cons ⟨rfl, .text requestId⟩ (.cons ⟨rfl, .text outputId⟩ (.cons ⟨rfl, .now h⟩ .nil)),
      bind_eq_some_of (required_of requestId rfl) (bind_eq_some_of (required_of outputId rfl)
        (bind_eq_some_of (given_of (some n) none rfl) rfl)),
      fun _ => rfl⟩
  | createState id originType originId semanticType representation derivedFrom =>
    exact ⟨_, rfl,
      .cons ⟨rfl, .text id⟩ (.cons ⟨rfl, .text originType⟩ (.cons ⟨rfl, .text originId⟩ (.cons ⟨rfl,
        .text semanticType⟩ (.cons ⟨rfl, .text representation⟩ (.cons ⟨rfl, .texts derivedFrom⟩
        .nil))))),
      bind_eq_some_of (required_of id rfl) (bind_eq_some_of (required_of originType rfl)
        (bind_eq_some_of (required_of originId rfl) (bind_eq_some_of (given_of semanticType "PREFIX"
        rfl) (bind_eq_some_of (given_of representation "OPAQUE" rfl) (bind_eq_some_of (givenTexts_of
        derivedFrom rfl) rfl))))),
      untimed "create_state" (by decide)⟩
  | setStateValidity stateId validity =>
    exact ⟨_, rfl,
      .cons ⟨rfl, .text stateId⟩ (.cons ⟨rfl, .enum validity⟩ .nil),
      bind_eq_some_of (required_of stateId rfl) (bind_eq_some_of (required_of validity rfl) rfl),
      untimed "set_state_validity" (by decide)⟩
  | addReplica id stateId locationId status =>
    exact ⟨_, rfl,
      .cons ⟨rfl, .text id⟩ (.cons ⟨rfl, .text stateId⟩ (.cons ⟨rfl, .text locationId⟩ (.cons ⟨rfl,
        .enum status⟩ .nil))),
      bind_eq_some_of (required_of id rfl) (bind_eq_some_of (required_of stateId rfl)
        (bind_eq_some_of (required_of locationId rfl) (bind_eq_some_of (given_of status .valid rfl)
        rfl))),
      untimed "add_replica" (by decide)⟩
  | setReplicaStatus replicaId status =>
    exact ⟨_, rfl,
      .cons ⟨rfl, .text replicaId⟩ (.cons ⟨rfl, .enum status⟩ .nil),
      bind_eq_some_of (required_of replicaId rfl) (bind_eq_some_of (required_of status rfl) rfl),
      untimed "set_replica_status" (by decide)⟩
  | proposeBinding id subjectId locationId =>
    exact ⟨_, rfl,
      .cons ⟨rfl, .text id⟩ (.cons ⟨rfl, .text subjectId⟩ (.cons ⟨rfl, .text locationId⟩ .nil)),
      bind_eq_some_of (required_of id rfl) (bind_eq_some_of (required_of subjectId rfl)
        (bind_eq_some_of (required_of locationId rfl) rfl)),
      untimed "propose_binding" (by decide)⟩
  | activateInitialBinding id subjectId locationId =>
    exact ⟨_, rfl,
      .cons ⟨rfl, .text id⟩ (.cons ⟨rfl, .text subjectId⟩ (.cons ⟨rfl, .text locationId⟩ .nil)),
      bind_eq_some_of (required_of id rfl) (bind_eq_some_of (required_of subjectId rfl)
        (bind_eq_some_of (required_of locationId rfl) rfl)),
      untimed "activate_initial_binding" (by decide)⟩
  | beginMigration bindingId =>
    exact ⟨_, rfl,
      .cons ⟨rfl, .text bindingId⟩ .nil,
      bind_eq_some_of (required_of bindingId rfl) rfl,
      untimed "begin_migration" (by decide)⟩
  | commitMigration bindingId evidenceIds now =>
    obtain ⟨n, rfl, h⟩ := h
    exact ⟨_, rfl,
      .cons ⟨rfl, .text bindingId⟩ (.cons ⟨rfl, .texts evidenceIds⟩ (.cons ⟨rfl, .now h⟩ .nil)),
      bind_eq_some_of (required_of bindingId rfl) (bind_eq_some_of (requiredTexts_of evidenceIds
        rfl) (bind_eq_some_of (given_of (some n) none rfl) rfl)),
      fun _ => rfl⟩
  | recordEvidence e =>
    exact ⟨_, rfl,
      .cons ⟨rfl, .evidence h⟩ .nil,
      bind_eq_some_of (required_of e rfl) rfl,
      untimed "record_evidence" (by decide)⟩
  | recordEvent event =>
    exact ⟨_, rfl,
      .cons ⟨rfl, .event event⟩ .nil,
      bind_eq_some_of (required_of event rfl) rfl,
      untimed "record_event" (by decide)⟩
  | isAncestor | stateCompatible | canConsumeState | requireEvidence | reconcile => exact h.elim

theorem Recordable.timed {operation : PublicOperation} (h : operation.Recordable) : operation.Timed := by
  cases operation with
  | finalizeRequest | commitMigration =>
    obtain ⟨n, rfl, -⟩ := h
    exact Option.some_ne_none n
  | canConsumeState | requireEvidence | reconcile => exact h
  | _ => exact True.intro

theorem parameters_nodup (h : Dict.find signatures action = some parameters) :
    (parameters.map (·.name)).Nodup := by
  have hall : ∀ names ∈ signatures.map fun e => e.2.map (·.name), names.Nodup := by decide
  have hmem := (Dict.find_eq_some_iff (by decide : (signatures.map Prod.fst).Nodup)).mp h
  exact hall _ (List.mem_map_of_mem hmem)

/-- The operation under its identity with its arguments in the order of their names. -/
def entryOperation (id : String) (operation : PublicOperation) : SemanticOperation where
  id := id
  action := operation.recorded.1
  arguments := byName operation.recorded.2

variable {semanticValidity : SemanticValidity} {shown : Value → String} {operation : PublicOperation}
  {id : String}

theorem Recorded.names (h : Recorded operation parameters) :
    (operation.recorded.2.map Prod.fst).Nodup := by
  rw [← h.fits.names]
  exact parameters_nodup h.found

theorem Recorded.time (h : Recorded operation parameters) :
    requireExplicitReplayTime shown operation.recorded.1 operation.recorded.2 = .ok () := by
  rw [requireExplicitReplayTime, raiseIf_eq_ok]
  intro hnow
  exact absurd hnow.2 (ne_true_of_eq_false (h.timed hnow.1))

theorem Recorded.valid (h : Recorded operation parameters) :
    validateOperationArguments shown operation.recorded.1 operation.recorded.2 = .ok () := by
  rw [validateOperationArguments, h.found]
  change (raiseIf _ _ >>= _) = _
  rw [h.fits.binds, Except.then_eq_ok, raiseIf_eq_ok]
  exact ⟨Bool.false_ne_true.symm, h.fits.check h.names _⟩

theorem journalEntry_ok (h : Recorded operation parameters) (hid : id ≠ "") :
    journalEntry shown id operation = .ok (entryOperation id operation) := by
  rw [journalEntry, SemanticOperation.build, raiseIf, if_neg hid, Except.ok_bind, h.time, Except.ok_bind,
    h.valid]
  rfl

theorem entryOperation_validated (h : Recorded operation parameters) (hid : id ≠ "") :
    validatedOperationArguments shown (entryOperation id operation) =
      .ok (entryOperation id operation).arguments :=
  validated_byName hid h.names h.time h.valid

theorem entryOperation_built (h : Recorded operation parameters) (hid : id ≠ "") :
    (entryOperation id operation).Built shown where
  valid := entryOperation_validated h hid
  sorted := List.pairwise_insertionSort _ _
  plain a ha := by
    obtain ⟨_, hpassed⟩ := h.fits.passed ((List.perm_insertionSort _ _).mem_iff.mp ha)
    exact hpassed.plain

theorem entryOperation_listed (h : Recorded operation parameters) :
    (entryOperation id operation).listed = entryOperation id operation := by
  apply SemanticOperation.listed_eq
  intro a ha
  obtain ⟨_, hpassed⟩ := h.fits.passed ((List.perm_insertionSort _ _).mem_iff.mp ha)
  exact hpassed.normal

/-- The recorded operation makes its call again. -/
theorem applyOperation_entry (h : Recorded operation parameters) (hid : id ≠ "") (clock : Number) :
    applyOperation semanticValidity shown clock (entryOperation id operation) =
      operation.call semanticValidity clock := by
  have hfind : Dict.find (byName operation.recorded.2) = Dict.find operation.recorded.2 :=
    funext fun name => (find_perm h.names (List.perm_insertionSort _ _).symm name).symm
  have hcall : toOperation (Dict.find (entryOperation id operation).arguments)
      (entryOperation id operation).action = some operation := by
    change toOperation (Dict.find (byName operation.recorded.2)) operation.recorded.1 = _
    rw [hfind, h.again]
  funext c
  rw [applyOperation, ok_bind_apply (lift_eq_ok.mpr ⟨entryOperation_validated h hid, rfl⟩), hcall]

end Recorded

section Journals
variable {semanticValidity : SemanticValidity} {shown : Value → String} {journal : List (String × Call)}

def journalOperations (journal : List (String × Call)) : List SemanticOperation :=
  journal.map fun e => entryOperation e.1 e.2.operation

theorem journal_ok (hnamed : "" ∉ journal.map Prod.fst)
    (hrecordable : ∀ e ∈ journal, e.2.operation.Recordable) :
    journal.mapM (fun e => journalEntry shown e.1 e.2.operation) = .ok (journalOperations journal) ∧
      ∀ operation ∈ journalOperations journal, operation.Built shown := by
  have hid : ∀ e ∈ journal, e.1 ≠ "" := fun e he heq => hnamed (heq ▸ List.mem_map_of_mem he)
  constructor
  · refine mapM_ok fun e he => ?_
    obtain ⟨parameters, h⟩ := (hrecordable e he).recorded
    exact journalEntry_ok h (hid e he)
  · intro operation ho
    obtain ⟨e, he, rfl⟩ := List.mem_map.mp ho
    obtain ⟨parameters, h⟩ := (hrecordable e he).recorded
    exact entryOperation_built h (hid e he)

theorem journalOperations_listed (hrecordable : ∀ e ∈ journal, e.2.operation.Recordable) :
    (journalOperations journal).map SemanticOperation.listed = journalOperations journal := by
  rw [journalOperations, List.map_map]
  refine List.map_congr_left fun e he => ?_
  obtain ⟨parameters, h⟩ := (hrecordable e he).recorded
  exact entryOperation_listed h

/-- Accepted calls are made again one after the other, whatever the clock shows. -/
theorem replayFrom_journal (clock : Nat → Number) {seen : List String} {c : ContinuityCore}
    (hids : (seen ++ journal.map Prod.fst).Nodup) (hnamed : "" ∉ journal.map Prod.fst)
    (hrecordable : ∀ e ∈ journal, e.2.operation.Recordable)
    (haccepted : Along (step semanticValidity) (fun c call => accepted semanticValidity c call = true) c
      (journal.map Prod.snd)) :
    replayFrom semanticValidity shown clock seen (journalOperations journal) c =
      .ok ⟨⟩ (run (step semanticValidity) c (journal.map Prod.snd)) := by
  induction journal generalizing seen c with
  | nil => rfl
  | cons e journal ih =>
    obtain ⟨id, call⟩ := e
    have hfresh : id ∉ seen := by
      intro hmem
      exact (List.nodup_append.mp hids).2.2 id hmem id List.mem_cons_self rfl
    have hcall : call.operation.call semanticValidity call.clock c = .ok ⟨⟩
      (step semanticValidity c call) := by
      have hfirst : accepted semanticValidity c call = true := haccepted.1
      unfold accepted at hfirst
      unfold step
      split at hfirst
      · next heq =>
        rw [heq]
        rfl
      · cases hfirst
    have hrec := hrecordable (id, call) List.mem_cons_self
    obtain ⟨parameters, hrecorded⟩ := hrec.recorded
    have hid : id ≠ "" := fun heq => hnamed (heq ▸ List.mem_cons_self)
    have happly : applyOperation semanticValidity shown (clock seen.length)
        (entryOperation id call.operation) c = .ok ⟨⟩ (step semanticValidity c call) := by
      rw [applyOperation_entry hrecorded hid, (Recordable.timed hrec).call_eq _ call.clock, hcall]
    have hseen : (raiseIf (id ∈ seen)
        (PyError.valueError s!"duplicate semantic operation identity: {id}") : Except PyError Unit) =
        .ok ⟨⟩ := raiseIf_eq_ok.mpr hfresh
    change (do
      liftM (raiseIf (id ∈ seen) (PyError.valueError s!"duplicate semantic operation identity: {id}"))
      applyOperation semanticValidity shown (clock seen.length) (entryOperation id call.operation)
      replayFrom semanticValidity shown clock (id :: seen) (journalOperations journal) : CoreM Unit) c = _
    rw [ok_bind_apply (lift_eq_ok.mpr ⟨hseen, rfl⟩), ok_bind_apply happly]
    refine ih ?_ (fun h => hnamed (List.mem_cons_of_mem _ h))
      (fun e he => hrecordable e (List.mem_cons_of_mem _ he)) haccepted.2
    exact (List.perm_middle.nodup_iff).mp hids

theorem replay_journal (clock : Nat → Number) {c : ContinuityCore}
    (hids : (journal.map Prod.fst).Nodup) (hnamed : "" ∉ journal.map Prod.fst)
    (hrecordable : ∀ e ∈ journal, e.2.operation.Recordable)
    (hunbroken : ∀ operation ∈ journalOperations journal, operation.Unbroken)
    (haccepted : Along (step semanticValidity) (fun c call => accepted semanticValidity c call = true) c
      (journal.map Prod.snd))
    (htext : operationsToJsonl shown (journalOperations journal) = .ok text) :
    replayOperationJsonl semanticValidity shown clock text c =
      .ok ⟨⟩ (run (step semanticValidity) c (journal.map Prod.snd)) := by
  have hoperations : (journalOperations journal).map (·.id) = journal.map Prod.fst := by
    rw [journalOperations, List.map_map]
    rfl
  have hbuilt := (@journal_ok shown journal hnamed hrecordable).2
  rw [operationsToJsonl_ok hbuilt] at htext
  obtain rfl := Except.ok.inj htext
  have hread := operationsFromJsonl_written hbuilt (hoperations ▸ hids) hunbroken
  rw [journalOperations_listed hrecordable] at hread
  rw [replayOperationJsonl, ok_bind_apply (lift_eq_ok.mpr ⟨hread, rfl⟩)]
  exact replayFrom_journal clock hids hnamed hrecordable haccepted

/-- The text of the journal, replayed into the core, makes the calls again, whatever the clock shows
meanwhile; with a string that does not stay on its line it is refused and the core is left as it
was. -/
def Rebuilds (semanticValidity : SemanticValidity) (shown : Value → String)
    (journal : List (String × Call)) (c : ContinuityCore) : Prop :=
  ∃ operations text, journal.mapM (fun e => journalEntry shown e.1 e.2.operation) = .ok operations ∧
    operationsToJsonl shown operations = .ok text ∧
    ((∀ operation ∈ operations, operation.Unbroken) → ∀ clock,
      replayOperationJsonl semanticValidity shown clock text c =
        .ok ⟨⟩ (run (step semanticValidity) c (journal.map Prod.snd))) ∧
    ((∃ operation ∈ operations, ¬ operation.Unbroken) → ∀ clock,
      ∃ e, replayOperationJsonl semanticValidity shown clock text c = .error e c)

/-- The journal of calls that a core accepted rebuilds the core as it was after them from the core
as it was before. -/
theorem journal_rebuilds (semanticValidity : SemanticValidity) (shown : Value → String)
    (journal : List (String × Call)) (c : ContinuityCore) (hids : (journal.map Prod.fst).Nodup)
    (hnamed : "" ∉ journal.map Prod.fst) (hrecordable : ∀ e ∈ journal, e.2.operation.Recordable)
    (haccepted : Along (step semanticValidity) (fun c call => accepted semanticValidity c call = true) c
      (journal.map Prod.snd)) : Rebuilds semanticValidity shown journal c := by
  have hjournal : journal.mapM (fun e => journalEntry shown e.1 e.2.operation) = _ ∧ _ :=
    journal_ok hnamed hrecordable
  obtain ⟨hentries, hbuilt⟩ := hjournal
  have hlines := operationsToJsonl_ok hbuilt
  refine ⟨_, _, hentries, hlines, fun hunbroken clock => ?_, fun hbroken clock => ?_⟩
  · exact replay_journal clock hids hnamed hrecordable hunbroken haccepted hlines
  · have hrefused := operationsFromJsonl_refused hbuilt hbroken
    cases hread : operationsFromJsonl shown (joinLines ((journalOperations journal).map fun operation =>
        recordLine (operationMembers operation operation.arguments))) with
    | ok read => exact absurd hread (hrefused read)
    | error e =>
      refine ⟨e, ?_⟩
      rw [replayOperationJsonl, error_bind_apply (lift_eq_error.mpr ⟨hread, rfl⟩)]

/-- A session, opened and journaled. -/
def sessionJournal : List (String × Call) :=
  [("op-1", ⟨.int 0, .createProgram "p"⟩), ("op-2", ⟨.int 1, .createSession "s" "p"⟩),
    ("op-3", ⟨.int 2, .createContinuation "c" "s" [] .waiting⟩),
    ("op-4", ⟨.int 3, .resumeAfterWait "c" "d"⟩)]

theorem journal_rebuilds_session : Rebuilds defaultValidity (fun _ => "") sessionJournal {} := by
  refine journal_rebuilds defaultValidity (fun _ => "") sessionJournal {} (by decide) (by decide) ?_ ?_
  · intro e he
    simp only [sessionJournal, List.mem_cons, List.not_mem_nil, or_false] at he
    obtain rfl | rfl | rfl | rfl := he <;> exact True.intro
  · exact ⟨by decide +kernel, by decide +kernel, by decide +kernel, by decide +kernel, True.intro⟩

end Journals

end Cadi
