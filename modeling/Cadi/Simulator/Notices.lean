import Cadi.Simulator.Host

namespace Cadi
open Library
set_option autoImplicit true

section Numbers

/-- The identifier of an event that is named after its number. -/
def numbered (n : Nat) : String := "event-" ++ padded n

theorem padded_injective (h : padded m = padded n) : m = n := by
  have hvalue (n : Nat) : Nat.ofDigitChars 10 (padded n).toList 0 = n := by
    simp only [padded, String.toList_ofList, Nat.ofDigitChars_append, Nat.ofDigitChars_replicate_zero,
      Nat.mul_zero, Nat.toList_repr]
    exact Nat.ofDigitChars_ten_toDigits
  rw [← hvalue m, h, hvalue n]

theorem numbered_injective (h : numbered m = numbered n) : m = n := by
  apply padded_injective
  have hlist := congrArg String.toList h
  simp only [numbered, String.toList_append] at hlist
  exact String.toList_injective (List.append_cancel_left hlist)

/-- No event bears a number that is still to come. -/
def NumbersFree (sim : Simulator) : Prop := ∀ n, numbered n ∈ sim.knownIds → n < sim.nextSequence

/-- The action gives no event the identifier of a number. -/
def Action.Unnumbered : Action → Prop
  | .schedule r => ∀ n, r.eventId ≠ some (numbered n)
  | .cancel _ => True

theorem NumbersFree.nextId (hf : NumbersFree sim) : sim.nextId ∉ sim.knownIds := fun hn =>
  Nat.lt_irrefl _ (hf sim.nextSequence hn)

end Numbers

section Schedule
variable {sim : Simulator}

theorem toFloat_zero :
    (Number.int 0).toFloat = some (.finite false 0 Time.zero.representable) := by
  decide +kernel

theorem finiteNonnegative_eq {t : Time} (name : String)
    (h : n.toFloat = some (.finite t.negative t.units t.representable)) :
    finiteNonnegative n name = .ok t := by
  have hfinite : ¬ (Binary64.finite t.negative t.units t.representable).isFinite = false :=
    nofun
  have htime : Time.ofBinary64 (.finite t.negative t.units t.representable) = some t :=
    dif_pos t.signed
  rw [finiteNonnegative, h]
  dsimp only
  rw [if_neg hfinite, htime]

theorem finiteNonnegative_toNumber (t : Time) (name : String) :
    finiteNonnegative t.toNumber name = .ok t :=
  finiteNonnegative_eq name rfl

theorem finiteNonnegative_zero (name : String) : finiteNonnegative (.int 0) name = .ok .zero :=
  finiteNonnegative_eq name toFloat_zero

theorem schedule_eq {time : Time} (ht : sim.eventTime r = .ok (some time))
    (hne : r.eventId.getD sim.nextId ≠ "") (hnew : r.eventId.getD sim.nextId ∉ sim.knownIds)
    (hp : freezePayload r.payload = .ok payload) :
    sim.schedule r = .ok (⟨time, sim.nextSequence, r.eventId.getD sim.nextId, r.kind, payload⟩,
      sim.push ⟨time, sim.nextSequence, r.eventId.getD sim.nextId, r.kind, payload⟩) := by
  simp only [Simulator.schedule, ht, hp, raiseIf, if_neg hne, if_neg hnew, bind, Except.bind, pure,
    Except.pure]

/-- The event a successful call of `schedule` adds, with what the call has checked. -/
theorem schedule_eq_ok_iff : sim.schedule r = .ok (event, sim') ↔
    sim' = sim.push event ∧ event.sequence = sim.nextSequence ∧
      event.eventId = r.eventId.getD sim.nextId ∧ event.kind = r.kind ∧
      sim.eventTime r = .ok (some event.time) ∧ freezePayload r.payload = .ok event.payload ∧
      event.eventId ≠ "" ∧ event.eventId ∉ sim.knownIds := by
  constructor
  · intro h
    unfold Simulator.schedule at h
    obtain ⟨time, htime, h⟩ := Except.bind_eq_ok.mp h
    obtain ⟨_, hne, h⟩ := Except.bind_eq_ok.mp h
    obtain ⟨_, hnew, h⟩ := Except.bind_eq_ok.mp h
    obtain ⟨payload, hp, h⟩ := Except.bind_eq_ok.mp h
    rw [raiseIf_eq_ok] at hne hnew
    cases time with
    | none => cases h
    | some time =>
      cases h
      exact ⟨rfl, rfl, rfl, rfl, htime, hp, hne, hnew⟩
  · rintro ⟨rfl, hs, hid, hk, ht, hp, hne, hnew⟩
    obtain ⟨time, sequence, eventId, kind, payload⟩ := event
    dsimp only at hs hid hk ht hp hne hnew
    subst hs hid hk
    exact schedule_eq ht hne hnew hp

end Schedule

section Notices
variable {h h' : History}

/-- A payload all of whose values are strings. -/
def stringItems (items : List (String × String)) : List (String × PayloadValue) :=
  items.map fun item => (item.1, .str item.2)

theorem freezeItems_strings (items : List (String × String)) :
    freezeItems ((stringItems items).map fun item => (.str item.1, item.2)) =
      .ok (items.map fun item => (item.1, .str item.2)) := by
  induction items with
  | nil => rfl
  | cons item items ih =>
    simp only [stringItems, List.map_cons, freezeItems, freezeKey, freezeValue] at ih ⊢
    rw [ih]
    rfl

theorem freezePayload_strings (items : List (String × String)) :
    freezePayload (payloadOf (stringItems items)) =
      .ok (sortItems (items.map fun item => (item.1, .str item.2))) := by
  simp only [payloadOf, freezePayload, freezeItems_strings]
  rfl

theorem numbered_ne_empty (n : Nat) : numbered n ≠ "" := by
  intro h
  have hlist := congrArg String.toList h
  simp only [numbered, String.toList_append, String.toList_empty, List.append_eq_nil_iff] at hlist
  exact absurd hlist.1 (by decide)

/-- The request of a notice. -/
def notice (kind : EventKind) (items : List (String × String)) : ScheduleRequest :=
  { kind, delay := some (.int 0), payload := payloadOf (stringItems items) }

@[simp] theorem notice_kind (kind : EventKind) (items : List (String × String)) :
    (notice kind items).kind = kind := rfl

theorem notice_unnumbered (kind : EventKind) (items : List (String × String)) :
    (Action.schedule (notice kind items)).Unnumbered := fun _ hn =>
  Option.some_ne_none _ hn.symm

theorem schedule_notice {sim : Simulator} (kind : EventKind) (items : List (String × String))
    (hnew : sim.nextId ∉ sim.knownIds) :
    ∃ event, sim.schedule (notice kind items) = .ok (event, sim.push event) ∧
      event.time.units = sim.now.units ∧ event.eventId = sim.nextId := by
  obtain ⟨time, htime, hunits⟩ := Time.add_of_units_zero sim.now (b := .zero) rfl
  have hdelay : Simulator.delayValue (some (.int 0)) = .ok .zero := finiteNonnegative_zero "delay"
  have hevent : sim.eventTime (notice kind items) = .ok (some time) := by
    simp only [Simulator.eventTime, notice, hdelay, bind, Except.bind, pure, Except.pure, htime]
  exact ⟨_, schedule_eq hevent (numbered_ne_empty _) hnew (freezePayload_strings items), hunits, rfl⟩

end Notices

section Acts

/-- The history after actions that all meet the condition. -/
inductive Acts (A : Action → Prop) (h : History) : History → Prop where
  | refl : Acts A h h
  | step (hs : Acts A h h') (ha : A action) : Acts A h (h'.perform action).2

variable {h h' h'' : History} {A B : Action → Prop}

theorem Acts.single (ha : A action) : Acts A h (h.perform action).2 := .step .refl ha

theorem Acts.trans (hs : Acts A h h') (hs' : Acts A h' h'') : Acts A h h'' := by
  induction hs' with
  | refl => exact hs
  | step _ ha ih => exact ih.step ha

theorem Acts.mono (hs : Acts A h h') (hAB : ∀ a, A a → B a) : Acts B h h' := by
  induction hs with
  | refl => exact .refl
  | step _ ha ih => exact ih.step (hAB _ ha)

theorem Acts.keeps {P : History → Prop} (hs : Acts A h h') (hp : P h)
    (hstep : ∀ h action, P h → A action → P (h.perform action).2) : P h' := by
  induction hs with
  | refl => exact hp
  | step _ ha ih => exact hstep _ _ ih ha

theorem Acts.accounted (hs : Acts A h h') (ha : Accounted h) : Accounted h' :=
  hs.keeps ha fun _ action ha _ => ha.perform action

theorem Acts.now (hs : Acts A h h') : h'.sim.now = h.sim.now :=
  hs.keeps (P := fun k => k.sim.now = h.sim.now) rfl fun k action hk _ => (now_perform k action).trans hk

theorem NumbersFree.perform (hf : NumbersFree h.sim) (ha : action.Unnumbered) :
    NumbersFree (h.perform action).2.sim := by
  cases action with
  | cancel eventId =>
    rcases perform_cancel h eventId with he | he <;> rw [he]
    · exact hf
    · exact hf
  | schedule r =>
    simp only [History.perform]
    split
    · next event sim hok =>
      obtain ⟨rfl, _, hid, _⟩ := schedule_eq_ok_iff.mp hok
      intro n hn
      simp only [Simulator.push, Finset.mem_insert] at hn ⊢
      rcases hn with hn | hn
      · -- the new event is numbered itself, as the caller names none by a number
        rw [hid] at hn
        cases hr : r.eventId with
        | none =>
          rw [hr, Option.getD_none] at hn
          rw [numbered_injective hn]
          exact Nat.lt_succ_self _
        | some eventId =>
          rw [hr, Option.getD_some] at hn
          exact (ha n (hn ▸ hr)).elim
      · exact Nat.lt_succ_of_lt (hf n hn)
    · exact hf

theorem Acts.numbersFree (hs : Acts A h h') (hA : ∀ a, A a → a.Unnumbered)
    (hf : NumbersFree h.sim) : NumbersFree h'.sim :=
  hs.keeps (P := fun k => NumbersFree k.sim) hf fun _ _ hf ha => hf.perform (hA _ ha)

end Acts

section Methods
variable {h h' : Host σ} {A : Action → Prop}

/-- The host after an action of its component. -/
def Host.act (h : Host σ) (action : Action) : Host σ :=
  { h with history := (h.history.perform action).2 }

@[simp] theorem act_world (h : Host σ) (action : Action) : (h.act action).world = h.world := rfl

theorem Acts.act (h : Host σ) (ha : A action) : Acts A h.history (h.act action).history := .single ha

theorem scheduleEvent_ok (hok : h.history.sim.schedule r = .ok (event, sim)) :
    scheduleEvent r h = .ok event (h.act (.schedule r)) := by
  simp only [Host.act, History.perform, hok]
  change EStateM.bind (liftM (h.history.sim.schedule r)) _ h = _
  rw [EStateM.bind, lift_eq_ok.mpr ⟨hok, rfl⟩]
  rfl

theorem scheduleEvent_error (he : h.history.sim.schedule r = .error e) :
    scheduleEvent r h = .error e h := by
  change EStateM.bind (liftM (h.history.sim.schedule r)) _ h = _
  rw [EStateM.bind, lift_eq_error.mpr ⟨he, rfl⟩]

theorem cancelEvent_ok (eventId : String) (h : Host σ) :
    cancelEvent eventId h = .ok (h.history.sim.cancel eventId).1 (h.act (.cancel eventId)) := rfl

/-- A method that schedules and goes on, where the state it raises in is the one before. -/
theorem Ends.scheduleEvent_bind {f : SimEvent → HostM σ α} {post : Host σ → Prop} (hh : post h)
    (hf : ∀ event sim, h.history.sim.schedule r = .ok (event, sim) →
      Ends (f event) (h.act (.schedule r)) post) : Ends (scheduleEvent r >>= f) h post := by
  cases hs : h.history.sim.schedule r with
  | error e =>
    apply Ends.bind
    · intro a s' hx
      rw [scheduleEvent_error hs] at hx
      cases hx
    · intro e' s' hx
      rw [scheduleEvent_error hs, EStateM.Result.error.injEq] at hx
      exact hx.2 ▸ hh
  | ok res =>
    obtain ⟨event, sim⟩ := res
    apply Ends.bind
    · intro a s' hx
      rw [scheduleEvent_ok hs, EStateM.Result.ok.injEq] at hx
      obtain ⟨rfl, rfl⟩ := hx
      exact hf _ _ hs
    · intro e' s' hx
      rw [scheduleEvent_ok hs] at hx
      cases hx

theorem Ends.orElseUndo_bind {f : SimEvent → HostM σ α} {undo : σ → σ} {post : Host σ → Prop}
    (hundo : post { h with world := undo h.world })
    (hf : ∀ event sim, h.history.sim.schedule r = .ok (event, sim) →
      Ends (f event) (h.act (.schedule r)) post) :
    Ends (orElseUndo (scheduleEvent r) undo >>= f) h post := by
  cases hs : h.history.sim.schedule r with
  | error e =>
    have hx : orElseUndo (scheduleEvent r) undo h = .error e { h with world := undo h.world } := by
      rw [orElseUndo, scheduleEvent_error hs]
    apply Ends.bind
    · intro a s' hok
      rw [hx] at hok
      cases hok
    · intro e' s' herror
      rw [hx, EStateM.Result.error.injEq] at herror
      exact herror.2 ▸ hundo
  | ok res =>
    obtain ⟨event, sim⟩ := res
    have hx : orElseUndo (scheduleEvent r) undo h = .ok event (h.act (.schedule r)) := by
      rw [orElseUndo, scheduleEvent_ok hs]
    apply Ends.bind
    · intro a s' hok
      rw [hx, EStateM.Result.ok.injEq] at hok
      obtain ⟨rfl, rfl⟩ := hok
      exact hf _ _ hs
    · intro e' s' herror
      rw [hx] at herror
      cases herror

/-- The method returns after admitted actions and leaves the component in the given state. -/
def Yields (A : Action → Prop) (x : HostM σ α) (h : Host σ) (world : σ) : Prop :=
  Returns x h fun _ h' => Acts A h.history h'.history ∧ h'.world = world

theorem Yields.pure (a : α) (h : Host σ) : Yields A (Pure.pure a) h h.world :=
  ⟨a, h, rfl, .refl, rfl⟩

theorem Yields.bind {x : HostM σ α} {f : α → HostM σ β} (hx : Yields A x h world)
    (hf : ∀ a h', Acts A h.history h'.history → h'.world = world → Yields A (f a) h' world') :
    Yields A (x >>= f) h world' := by
  obtain ⟨a, h', hx, hacts, hw⟩ := hx
  obtain ⟨b, h'', hf, hacts', hw'⟩ := hf a h' hacts hw
  exact ⟨b, h'', bind_eq_ok.mpr ⟨a, h', hx, hf⟩, hacts.trans hacts', hw'⟩

theorem Yields.ends {x : HostM σ α} {post : Host σ → Prop} (hx : Yields A x h world)
    (hp : ∀ h', Acts A h.history h'.history → h'.world = world → post h') : Ends x h post := by
  obtain ⟨a, h', hx, hacts, hw⟩ := hx
  unfold Ends
  rw [hx]
  exact hp h' hacts hw

theorem Yields.ends_bind {x : HostM σ α} {f : α → HostM σ β} {post : Host σ → Prop}
    (hx : Yields A x h world)
    (hf : ∀ a h', Acts A h.history h'.history → h'.world = world → Ends (f a) h' post) :
    Ends (x >>= f) h post := by
  obtain ⟨a, h', hx, hacts, hw⟩ := hx
  apply Ends.bind
  · intro b s hb
    rw [hx, EStateM.Result.ok.injEq] at hb
    obtain ⟨rfl, rfl⟩ := hb
    exact hf _ _ hacts hw
  · intro e s he
    rw [hx] at he
    cases he

theorem Yields.get_bind {f : Host σ → HostM σ α} (hf : Yields A (f h) h world) :
    Yields A (get >>= f) h world := hf

theorem Yields.discard {x : HostM σ α} (hx : Yields A x h world) :
    Yields A (discard x) h world :=
  hx.bind fun _ h' _ hw => hw ▸ .pure _ h'

theorem Yields.modifyWorld (f : σ → σ) (h : Host σ) : Yields A (modifyWorld f) h (f h.world) :=
  ⟨⟨⟩, { h with world := f h.world }, rfl, .refl, rfl⟩

theorem Yields.cancelEvent (h : Host σ) (hA : A (.cancel eventId)) :
    Yields A (cancelEvent eventId) h h.world :=
  ⟨_, _, cancelEvent_ok eventId h, .act h hA, act_world h _⟩

theorem Yields.forM {l : List ι} {body : ι → HostM σ Unit} {g : σ → ι → σ} {P : σ → Prop}
    (hP : P h.world) (hg : ∀ w i, P w → P (g w i))
    (hbody : ∀ i ∈ l, ∀ h', Acts A h.history h'.history → P h'.world →
      Yields A (body i) h' (g h'.world i)) :
    Yields A (l.forM body) h (l.foldl g h.world) := by
  induction l generalizing h with
  | nil => exact .pure _ h
  | cons i l ih =>
    apply Yields.bind (hbody i List.mem_cons_self h .refl hP)
    intro _ h' hacts hw
    rw [List.foldl_cons, ← hw]
    apply ih (hw ▸ hg _ i hP)
    intro i' hi' h'' hacts' hP'
    exact hbody i' (List.mem_cons_of_mem _ hi') h'' (hacts.trans hacts') hP'

theorem Yields.forM_entries (dict : σ → Dict String α) (put : Dict String α → σ → σ)
    {body : String × α → HostM σ Unit} {f : α → α} (c : α → Prop) [DecidablePred c]
    (hput : ∀ d d' m, put d (put d' m) = put d m) (hdict : ∀ d m, dict (put d m) = d)
    (hself : ∀ m, put (dict m) m = m)
    (hkept : ∀ p h', Acts A h.history h'.history → c p.2 → Yields A (body p) h' h'.world)
    (hbody : ∀ p h', Acts A h.history h'.history → ¬ c p.2 →
      Yields A (body p) h' (put ((dict h'.world).set p.1 (f p.2)) h'.world)) :
    Yields A ((dict h.world).entries.forM body) h
      (put ((dict h.world).mapValues fun v => if c v then v else f v) h.world) := by
  have hfold (l : List (String × α)) (m : σ) :
      l.foldl (fun m p => if c p.2 then m else put ((dict m).set p.1 (f p.2)) m) m =
        put (l.foldl (fun d p => if c p.2 then d else d.set p.1 (f p.2)) (dict m)) m := by
    induction l generalizing m with
    | nil => exact (hself m).symm
    | cons p l ih =>
      rw [List.foldl_cons, ih, List.foldl_cons]
      by_cases hc : c p.2
      · rw [if_pos hc, if_pos hc]
      · rw [if_neg hc, if_neg hc, hdict, hput]
  rw [← Dict.foldl_set_unless, ← hfold]
  apply Yields.forM (P := fun _ => True) True.intro (fun _ _ _ => True.intro)
  intro p _ h' hacts _
  by_cases hc : c p.2
  · rw [if_pos hc]
    exact hkept p h' hacts hc
  · rw [if_neg hc]
    exact hbody p h' hacts hc

theorem notify_eq (kind : EventKind) (items : List (String × String)) :
    (notify kind (stringItems items) : HostM σ SimEvent) = scheduleEvent (notice kind items) := rfl

theorem Yields.notify (kind : EventKind) (items : List (String × String))
    (hfree : h.history.sim.nextId ∉ h.history.sim.knownIds)
    (hA : A (.schedule (notice kind items))) :
    Yields A (notify kind (stringItems items)) h h.world := by
  obtain ⟨event, hok, _⟩ := schedule_notice kind items hfree
  rw [notify_eq]
  exact ⟨_, _, scheduleEvent_ok hok, .act h hA, act_world h _⟩

end Methods

end Cadi
