import Cadi.Simulator.Resources
import Cadi.Simulator.Notices

namespace Cadi
open Library
set_option autoImplicit true

namespace ResourceModel

def Up (m : ResourceModel) (workerId : String) : Prop :=
  ∃ worker, m.workers.get? workerId = some worker ∧ worker.status = .up

/-- The replica is available at the location. -/
def AvailableAt (m : ResourceModel) (replicaId locationId : String) : Prop :=
  ∃ replica, m.replicas.get? replicaId = some replica ∧ replica.status = .available ∧
    replica.locationId = locationId

end ResourceModel

/-- A transfer that is under way can go on. -/
def StateTransfer.Grounded (t : StateTransfer) (m : ResourceModel) : Prop :=
  m.Up t.sourceId ∧ m.Up t.destinationId ∧ m.AvailableAt t.replicaId t.sourceId

/-- What holds of the replicas and transfers at any time. -/
structure Replicated (m : ResourceModel) : Prop where
  available : ∀ k r, m.replicas.get? k = some r → r.status = .available → m.Up r.locationId
  single : ∀ k k' t t', m.transfers.get? k = some t → m.transfers.get? k' = some t' →
    t.status.active → t'.status.active → t.replicaId = t'.replicaId → k = k'
  running : ∀ k t, m.transfers.get? k = some t → t.status = .running → t.Grounded m

/-- What any later state owes to an earlier one. -/
structure Settled (m m' : ResourceModel) : Prop where
  lost : ∀ k r, m.replicas.get? k = some r → ∃ r', m'.replicas.get? k = some r' ∧
    (r.status = .lost → r'.status = .lost) ∧
    (r.status = .evicted → r'.status = .evicted ∨ r'.status = .lost)
  ended : ∀ k t, m.transfers.get? k = some t → ∃ t', m'.transfers.get? k = some t' ∧
    (¬ t.status.active → t' = t)

/-- Where a replica is moved, a running transfer from its location has completed. -/
def MovedOnly (m m' : ResourceModel) : Prop :=
  ∀ k r r', m.replicas.get? k = some r → m'.replicas.get? k = some r' → r'.locationId ≠ r.locationId →
    ∃ x t t', m.transfers.get? x = some t ∧ m'.transfers.get? x = some t' ∧
      t.status = .running ∧ t'.status = .completed ∧ t.replicaId = k ∧
      r.locationId = t.sourceId ∧ r'.locationId = t.destinationId

/-- The loss of a replica on a failed worker. -/
def ReplicaRuntime.lostAt (workerId : String) (r : ReplicaRuntime) : ReplicaRuntime :=
  if r.locationId ≠ workerId ∨ r.status = .evicted ∨ r.status = .lost then r
  else { r with status := .lost, completionEventId := none }

/-- The failure of a transfer under way that meets the condition. -/
def StateTransfer.failedIf (affected : StateTransfer → Bool) (now : Time) (t : StateTransfer) :
    StateTransfer :=
  if t.status.active ∧ affected t = true then
    { t with status := .failed, completedAt := some now, completionEventId := none }
  else t

/-- The changes of workers, replicas and transfers that one call or one delivery can make. -/
inductive Change (m m' : ResourceModel) : Prop where
  | unchanged (hw : m'.workers = m.workers) (hr : m'.replicas = m.replicas)
      (ht : m'.transfers = m.transfers)
  | up (hup : worker.status = .up) (hw : m'.workers = m.workers.set workerId worker)
      (hr : m'.replicas = m.replicas) (ht : m'.transfers = m.transfers)
  | down (hw : m'.workers = m.workers.set workerId worker)
      (hr : m'.replicas = m.replicas.mapValues (·.lostAt workerId))
      (ht : m'.transfers = m.transfers.mapValues
        (·.failedIf (fun t => workerId = t.sourceId || workerId = t.destinationId) now))
  | created (hnew : k ∉ m.replicas) (hs : r.status = .materializing) (hw : m'.workers = m.workers)
      (hr : m'.replicas = m.replicas.set k r) (ht : m'.transfers = m.transfers)
  | materialized (hk : m.replicas.get? k = some r) (hs : r.status = .materializing)
      (hl : r'.locationId = r.locationId) (hup : r'.status = .available → m.Up r.locationId)
      (hw : m'.workers = m.workers) (hr : m'.replicas = m.replicas.set k r')
      (ht : m'.transfers = m.transfers)
  | scheduled (hnew : k ∉ m.transfers) (hs : t.status = .scheduled)
      (hfirst : ∀ t' ∈ m.transfers.values, ¬ (t'.replicaId = t.replicaId ∧ t'.status.active))
      (hw : m'.workers = m.workers) (hr : m'.replicas = m.replicas)
      (ht : m'.transfers = m.transfers.set k t)
  | advanced (hk : m.transfers.get? k = some t) (hs : t.status.active)
      (hsame : t'.replicaId = t.replicaId) (hrun : t'.status = .running → t'.Grounded m)
      (hw : m'.workers = m.workers) (hr : m'.replicas = m.replicas)
      (ht : m'.transfers = m.transfers.set k t')
  | moved (hk : m.transfers.get? k = some t) (hs : t.status = .running) (hs' : t'.status = .completed)
      (hreplica : m.replicas.get? t.replicaId = some r) (hl : r.locationId = t.sourceId)
      (hup : m.Up t.destinationId) (hw : m'.workers = m.workers)
      (hr : m'.replicas = m.replicas.set t.replicaId { r with locationId := t.destinationId })
      (ht : m'.transfers = m.transfers.set k t')
  | gone (hk : m.replicas.get? k = some r) (hs : r.status ≠ .lost) (hl : r'.locationId = r.locationId)
      (hgone : r'.status = .evicted ∨ r'.status = .lost) (hw : m'.workers = m.workers)
      (hr : m'.replicas = m.replicas.set k r')
      (ht : m'.transfers = m.transfers.mapValues (·.failedIf (fun t => t.replicaId = k) now))

section Values
variable {affected : StateTransfer → Bool} {now : Time}

theorem lostAt_locationId (r : ReplicaRuntime) : (r.lostAt w).locationId = r.locationId := by
  unfold ReplicaRuntime.lostAt
  split <;> rfl

theorem lostAt_of_available {r : ReplicaRuntime} (h : (r.lostAt w).status = .available) :
    r.lostAt w = r ∧ r.locationId ≠ w := by
  unfold ReplicaRuntime.lostAt at h ⊢
  split at h
  · next hc =>
    rw [if_pos hc]
    refine ⟨rfl, hc.resolve_right ?_⟩
    rw [h]
    exact nofun
  · cases h

theorem lostAt_of_location_ne {r : ReplicaRuntime} (h : r.locationId ≠ w) : r.lostAt w = r :=
  if_pos (.inl h)

theorem lostAt_of_gone {r : ReplicaRuntime} (h : r.status = .evicted ∨ r.status = .lost) :
    r.lostAt w = r :=
  if_pos (.inr h)

theorem failedIf_of_not_active {t : StateTransfer} (h : ¬ t.status.active) :
    t.failedIf affected now = t :=
  if_neg fun hc => h hc.1

theorem failedIf_of_active {t : StateTransfer} (h : (t.failedIf affected now).status.active) :
    t.failedIf affected now = t ∧ affected t = false := by
  unfold StateTransfer.failedIf at h ⊢
  by_cases hc : t.status.active ∧ affected t = true
  · rw [if_pos hc] at h
    cases h with
    | inl h => cases h
    | inr h => cases h
  · rw [if_neg hc] at h ⊢
    exact ⟨rfl, Bool.eq_false_iff.mpr fun ha => hc ⟨h, ha⟩⟩

end Values

namespace Change
variable {m m' : ResourceModel}

theorem up_set {worker : Worker} (hw : m'.workers = m.workers.set w worker)
    (h : w ≠ w' ∨ worker.status = .up) (hup : m.Up w') : m'.Up w' := by
  obtain ⟨worker', hworker', hs⟩ := hup
  by_cases hww : w = w'
  · subst hww
    exact ⟨worker, hw ▸ Dict.get?_set_self _ _ _, h.resolve_left fun hn => hn rfl⟩
  · exact ⟨worker', by rw [hw, Dict.get?_set_ne _ _ hww, hworker'], hs⟩

theorem up_of_eq (hw : m'.workers = m.workers) (hup : m.Up w) : m'.Up w := by
  unfold ResourceModel.Up
  rwa [hw]

theorem availableAt_set {r' : ReplicaRuntime} (hr : m'.replicas = m.replicas.set k r')
    (hne : k ≠ k') (h : m.AvailableAt k' l) : m'.AvailableAt k' l := by
  obtain ⟨r, hk, hs⟩ := h
  exact ⟨r, by rw [hr, Dict.get?_set_ne _ _ hne, hk], hs⟩

theorem availableAt_of_eq (hr : m'.replicas = m.replicas) (h : m.AvailableAt k l) :
    m'.AvailableAt k l := by
  unfold ResourceModel.AvailableAt
  rwa [hr]

theorem availableAt_iff (hk : m.replicas.get? k = some r) :
    m.AvailableAt k l ↔ r.status = .available ∧ r.locationId = l := by
  unfold ResourceModel.AvailableAt
  simp only [hk, Option.some.injEq, exists_eq_left']

theorem grounded_of_eq (hw : m'.workers = m.workers) (hr : m'.replicas = m.replicas)
    (h : StateTransfer.Grounded t m) : t.Grounded m' :=
  ⟨up_of_eq hw h.1, up_of_eq hw h.2.1, availableAt_of_eq hr h.2.2⟩

/-- An available replica after a change was so before at the same place, or has just been put on a
worker that is up. -/
theorem available (hm : Replicated m) (hc : Change m m') (k : String) (r : ReplicaRuntime)
    (hk : m'.replicas.get? k = some r) (hs : r.status = .available) : m'.Up r.locationId := by
  cases hc with
  | unchanged hw hr ht =>
    rw [hr] at hk
    exact up_of_eq hw (hm.available k r hk hs)
  | up hup hw hr ht =>
    rw [hr] at hk
    exact up_set hw (.inr hup) (hm.available k r hk hs)
  | down hw hr ht =>
    rw [hr, Dict.get?_mapValues, Option.map_eq_some_iff] at hk
    obtain ⟨r₀, hk, rfl⟩ := hk
    obtain ⟨he, hne⟩ := lostAt_of_available hs
    rw [he] at hs ⊢
    exact up_set hw (.inl hne.symm) (hm.available k r₀ hk hs)
  | created hnew hs' hw hr ht =>
    rw [hr] at hk
    rcases Dict.get?_set_eq_some_iff.mp hk with ⟨rfl, rfl⟩ | ⟨_, hk⟩
    · rw [hs'] at hs
      cases hs
    · exact up_of_eq hw (hm.available k r hk hs)
  | materialized hk' hs' hl hup hw hr ht =>
    rw [hr] at hk
    rcases Dict.get?_set_eq_some_iff.mp hk with ⟨rfl, rfl⟩ | ⟨_, hk⟩
    · rw [hl]
      exact up_of_eq hw (hup hs)
    · exact up_of_eq hw (hm.available k r hk hs)
  | scheduled hnew hs' hfirst hw hr ht =>
    rw [hr] at hk
    exact up_of_eq hw (hm.available k r hk hs)
  | advanced hk' hs' hsame hrun hw hr ht =>
    rw [hr] at hk
    exact up_of_eq hw (hm.available k r hk hs)
  | moved hk' hs' hs'' hreplica hl hup hw hr ht =>
    rw [hr] at hk
    rcases Dict.get?_set_eq_some_iff.mp hk with ⟨rfl, rfl⟩ | ⟨_, hk⟩
    · exact up_of_eq hw hup
    · exact up_of_eq hw (hm.available k r hk hs)
  | gone hk' hs' hl hgone hw hr ht =>
    rw [hr] at hk
    rcases Dict.get?_set_eq_some_iff.mp hk with ⟨rfl, rfl⟩ | ⟨_, hk⟩
    · rw [hs] at hgone
      rcases hgone with hgone | hgone <;> cases hgone
    · exact up_of_eq hw (hm.available k r hk hs)

theorem active_source (hc : Change m m') (hk : m'.transfers.get? k = some t') (ha : t'.status.active) :
    (∃ t, m.transfers.get? k = some t ∧ t.status.active ∧ t.replicaId = t'.replicaId) ∨
      m.transfers.get? k = none ∧ m'.transfers = m.transfers.set k t' ∧
        ∀ t ∈ m.transfers.values, ¬ (t.replicaId = t'.replicaId ∧ t.status.active) := by
  have hsame (ht : m'.transfers = m.transfers) :
      ∃ t, m.transfers.get? k = some t ∧ t.status.active ∧ t.replicaId = t'.replicaId :=
    ⟨t', ht ▸ hk, ha, rfl⟩
  have hmap {affected : StateTransfer → Bool} {now : Time}
      (ht : m'.transfers = m.transfers.mapValues (·.failedIf affected now)) :
      ∃ t, m.transfers.get? k = some t ∧ t.status.active ∧ t.replicaId = t'.replicaId := by
    rw [ht, Dict.get?_mapValues, Option.map_eq_some_iff] at hk
    obtain ⟨t, hk, rfl⟩ := hk
    have he := (failedIf_of_active ha).1
    rw [he] at ha ⊢
    exact ⟨t, hk, ha, rfl⟩
  cases hc with
  | unchanged hw hr ht => exact .inl (hsame ht)
  | up hup hw hr ht => exact .inl (hsame ht)
  | down hw hr ht => exact .inl (hmap ht)
  | created hnew hs' hw hr ht => exact .inl (hsame ht)
  | materialized hk' hs' hl hup hw hr ht => exact .inl (hsame ht)
  | scheduled hnew hs' hfirst hw hr ht =>
    rw [ht] at hk
    rcases Dict.get?_set_eq_some_iff.mp hk with ⟨rfl, rfl⟩ | ⟨_, hk⟩
    · exact .inr ⟨Dict.get?_eq_none_iff.mpr hnew, ht, hfirst⟩
    · exact .inl ⟨t', hk, ha, rfl⟩
  | advanced hk' hs' hid hrun hw hr ht =>
    rw [ht] at hk
    rcases Dict.get?_set_eq_some_iff.mp hk with ⟨rfl, rfl⟩ | ⟨_, hk⟩
    · exact .inl ⟨_, hk', hs', hid.symm⟩
    · exact .inl ⟨t', hk, ha, rfl⟩
  | moved hk' hs' hs'' hreplica hl hup hw hr ht =>
    rw [ht] at hk
    rcases Dict.get?_set_eq_some_iff.mp hk with ⟨rfl, rfl⟩ | ⟨_, hk⟩
    · rw [hs''] at ha
      rcases ha with ha | ha <;> cases ha
    · exact .inl ⟨t', hk, ha, rfl⟩
  | gone hk' hs' hl hgone hw hr ht => exact .inl (hmap ht)

theorem single (hm : Replicated m) (hc : Change m m') (k k' : String) (t t' : StateTransfer)
    (hk : m'.transfers.get? k = some t) (hk' : m'.transfers.get? k' = some t')
    (ha : t.status.active) (ha' : t'.status.active) (hid : t.replicaId = t'.replicaId) : k = k' := by
  -- a transfer is scheduled only where none of the replica was under way
  have hfresh {k k' : String} {t t' u : StateTransfer} (hk : m'.transfers.get? k = some t)
      (ht : m'.transfers = m.transfers.set k' t') (hid : t.replicaId = t'.replicaId)
      (hu : m.transfers.get? k = some u) (hau : u.status.active) (hidu : u.replicaId = t.replicaId)
      (hfirst : ∀ u ∈ m.transfers.values, ¬ (u.replicaId = t'.replicaId ∧ u.status.active)) :
      k = k' :=
    (hfirst u (Dict.mem_values_iff.mpr ⟨k, hu⟩) ⟨hidu.trans hid, hau⟩).elim
  rcases hc.active_source hk ha with ⟨u, hu, hau, hidu⟩ | ⟨hnone, ht, hfirst⟩ <;>
    rcases hc.active_source hk' ha' with ⟨u', hu', hau', hidu'⟩ | ⟨hnone', ht', hfirst'⟩
  · exact hm.single k k' u u' hu hu' hau hau' (hidu.trans (hid.trans hidu'.symm))
  · exact hfresh hk ht' hid hu hau hidu hfirst'
  · exact (hfresh hk' ht hid.symm hu' hau' hidu' hfirst).symm
  · rw [ht] at hk'
    rcases Dict.get?_set_eq_some_iff.mp hk' with ⟨he, _⟩ | ⟨_, hk'⟩
    · exact he
    · rw [hnone'] at hk'
      cases hk'

theorem running (hm : Replicated m) (hc : Change m m') (k : String) (t : StateTransfer)
    (hk : m'.transfers.get? k = some t) (hs : t.status = .running) : t.Grounded m' := by
  have hactive : t.status.active := .inr hs
  cases hc with
  | unchanged hw hr ht => exact grounded_of_eq hw hr (hm.running k t (ht ▸ hk) hs)
  | up hup hw hr ht =>
    obtain ⟨hsource, hdest, hat⟩ := hm.running k t (ht ▸ hk) hs
    exact ⟨up_set hw (.inr hup) hsource, up_set hw (.inr hup) hdest, availableAt_of_eq hr hat⟩
  | down hw hr ht =>
    rw [ht, Dict.get?_mapValues, Option.map_eq_some_iff] at hk
    obtain ⟨t₀, hk, rfl⟩ := hk
    obtain ⟨he, hne⟩ := failedIf_of_active hactive
    rw [he] at hs ⊢
    simp only [Bool.or_eq_false_iff, decide_eq_false_iff_not] at hne
    obtain ⟨hsource, hdest, r, hreplica, havailable, hl⟩ := hm.running k t₀ hk hs
    refine ⟨up_set hw (.inl hne.1) hsource, up_set hw (.inl hne.2) hdest, r, ?_, havailable, hl⟩
    rw [hr, Dict.get?_mapValues, hreplica, Option.map_some,
      lostAt_of_location_ne (hl ▸ Ne.symm hne.1)]
  | created hnew hs' hw hr ht =>
    obtain ⟨hsource, hdest, hat⟩ := hm.running k t (ht ▸ hk) hs
    refine ⟨up_of_eq hw hsource, up_of_eq hw hdest, availableAt_set hr ?_ hat⟩
    rintro rfl
    obtain ⟨r, hr, _⟩ := hat
    exact hnew (Dict.mem_of_get? hr)
  | materialized hk' hs' hl hup hw hr ht =>
    obtain ⟨hsource, hdest, hat⟩ := hm.running k t (ht ▸ hk) hs
    refine ⟨up_of_eq hw hsource, up_of_eq hw hdest, availableAt_set hr ?_ hat⟩
    rintro rfl
    have h := ((availableAt_iff hk').mp hat).1
    rw [hs'] at h
    cases h
  | scheduled hnew hs' hfirst hw hr ht =>
    rw [ht] at hk
    rcases Dict.get?_set_eq_some_iff.mp hk with ⟨rfl, rfl⟩ | ⟨_, hk⟩
    · rw [hs'] at hs
      cases hs
    · exact grounded_of_eq hw hr (hm.running k t hk hs)
  | advanced hk' hs' hid hrun hw hr ht =>
    rw [ht] at hk
    rcases Dict.get?_set_eq_some_iff.mp hk with ⟨rfl, rfl⟩ | ⟨_, hk⟩
    · exact grounded_of_eq hw hr (hrun hs)
    · exact grounded_of_eq hw hr (hm.running k t hk hs)
  | moved hk' hs' hs'' hreplica hl hup hw hr ht =>
    rw [ht] at hk
    rcases Dict.get?_set_eq_some_iff.mp hk with ⟨rfl, rfl⟩ | ⟨hne, hk⟩
    · rw [hs''] at hs
      cases hs
    · obtain ⟨hsource, hdest, hat⟩ := hm.running k t hk hs
      refine ⟨up_of_eq hw hsource, up_of_eq hw hdest, availableAt_set hr (fun he => hne ?_) hat⟩
      exact hm.single _ _ _ _ hk' hk (.inr hs') hactive he
  | gone hk' hs' hl hgone hw hr ht =>
    rw [ht, Dict.get?_mapValues, Option.map_eq_some_iff] at hk
    obtain ⟨t₀, hk, rfl⟩ := hk
    obtain ⟨he, hne⟩ := failedIf_of_active hactive
    rw [he] at hs ⊢
    obtain ⟨hsource, hdest, hat⟩ := hm.running k t₀ hk hs
    refine ⟨up_of_eq hw hsource, up_of_eq hw hdest, availableAt_set hr ?_ hat⟩
    exact fun he => of_decide_eq_false hne he.symm

/-- A replica keeps its key, its status if it is lost, and is not restored after an eviction. -/
theorem lost (hc : Change m m') (k : String) (r : ReplicaRuntime) (hk : m.replicas.get? k = some r) :
    ∃ r', m'.replicas.get? k = some r' ∧ (r.status = .lost → r'.status = .lost) ∧
      (r.status = .evicted → r'.status = .evicted ∨ r'.status = .lost) := by
  have hset {k' : String} {r' r₀ : ReplicaRuntime} (hr : m'.replicas = m.replicas.set k' r')
      (hk' : m.replicas.get? k' = some r₀) (hl : r₀.status = .lost → r'.status = .lost)
      (he : r₀.status = .evicted → r'.status = .evicted ∨ r'.status = .lost) :
      ∃ r', m'.replicas.get? k = some r' ∧ (r.status = .lost → r'.status = .lost) ∧
        (r.status = .evicted → r'.status = .evicted ∨ r'.status = .lost) := by
    by_cases hkk : k' = k
    · subst hkk
      obtain rfl := Option.some.inj (hk'.symm.trans hk)
      exact ⟨r', hr ▸ Dict.get?_set_self _ _ _, hl, he⟩
    · exact ⟨r, by rw [hr, Dict.get?_set_ne _ _ hkk, hk], id, .inl⟩
  have hsame (hr : m'.replicas = m.replicas) : ∃ r', m'.replicas.get? k = some r' ∧
      (r.status = .lost → r'.status = .lost) ∧
      (r.status = .evicted → r'.status = .evicted ∨ r'.status = .lost) :=
    ⟨r, hr ▸ hk, id, .inl⟩
  cases hc with
  | unchanged hw hr ht => exact hsame hr
  | up hup hw hr ht => exact hsame hr
  | down hw hr ht =>
    refine ⟨r.lostAt _, by rw [hr, Dict.get?_mapValues, hk, Option.map_some], fun hs => ?_,
      fun hs => .inl ?_⟩
    · rwa [lostAt_of_gone (.inr hs)]
    · rwa [lostAt_of_gone (.inl hs)]
  | created hnew hs' hw hr ht =>
    refine ⟨r, ?_, id, .inl⟩
    rw [hr, Dict.get?_set_ne _ _ (Dict.ne_of_get? hnew hk), hk]
  | materialized hk' hs' hl hup hw hr ht =>
    apply hset hr hk' <;> rw [hs'] <;> exact nofun
  | scheduled hnew hs' hfirst hw hr ht => exact hsame hr
  | advanced hk' hs' hid hrun hw hr ht => exact hsame hr
  | moved hk' hs' hs'' hreplica hl hup hw hr ht => exact hset hr hreplica id .inl
  | gone hk' hs' hl hgone hw hr ht =>
    exact hset hr hk' (fun he => (hs' he).elim) fun _ => hgone

theorem ended (hc : Change m m') (k : String) (t : StateTransfer)
    (hk : m.transfers.get? k = some t) :
    ∃ t', m'.transfers.get? k = some t' ∧ (¬ t.status.active → t' = t) := by
  have hsame (ht : m'.transfers = m.transfers) :
      ∃ t', m'.transfers.get? k = some t' ∧ (¬ t.status.active → t' = t) :=
    ⟨t, ht ▸ hk, fun _ => rfl⟩
  have hset {k' : String} {t' t₀ : StateTransfer} (ht : m'.transfers = m.transfers.set k' t')
      (hk' : m.transfers.get? k' = some t₀) (ha : t₀.status.active) :
      ∃ t', m'.transfers.get? k = some t' ∧ (¬ t.status.active → t' = t) := by
    by_cases hkk : k' = k
    · subst hkk
      obtain rfl := Option.some.inj (hk'.symm.trans hk)
      exact ⟨t', ht ▸ Dict.get?_set_self _ _ _, fun hn => (hn ha).elim⟩
    · exact ⟨t, by rw [ht, Dict.get?_set_ne _ _ hkk, hk], fun _ => rfl⟩
  have hmap {affected : StateTransfer → Bool} {now : Time}
      (ht : m'.transfers = m.transfers.mapValues (·.failedIf affected now)) :
      ∃ t', m'.transfers.get? k = some t' ∧ (¬ t.status.active → t' = t) :=
    ⟨t.failedIf affected now, by rw [ht, Dict.get?_mapValues, hk, Option.map_some],
      failedIf_of_not_active⟩
  cases hc with
  | unchanged hw hr ht => exact hsame ht
  | up hup hw hr ht => exact hsame ht
  | down hw hr ht => exact hmap ht
  | created hnew hs' hw hr ht => exact hsame ht
  | materialized hk' hs' hl hup hw hr ht => exact hsame ht
  | scheduled hnew hs' hfirst hw hr ht =>
    refine ⟨t, ?_, fun _ => rfl⟩
    rw [ht, Dict.get?_set_ne _ _ (Dict.ne_of_get? hnew hk), hk]
  | advanced hk' hs' hid hrun hw hr ht => exact hset ht hk' hs'
  | moved hk' hs' hs'' hreplica hl hup hw hr ht => exact hset ht hk' (.inr hs')
  | gone hk' hs' hl hgone hw hr ht => exact hmap ht

theorem settled (hc : Change m m') : Settled m m' := ⟨hc.lost, hc.ended⟩

theorem movedOnly (hc : Change m m') : MovedOnly m m' := by
  intro k r r' hk hk' hne
  have hsame (hr : m'.replicas = m.replicas) : r'.locationId = r.locationId := by
    rw [hr, hk, Option.some.injEq] at hk'
    rw [hk']
  have hset {x : String} {u u' : ReplicaRuntime} (hr : m'.replicas = m.replicas.set x u')
      (hx : m.replicas.get? x = some u) (hl : u'.locationId = u.locationId) :
      r'.locationId = r.locationId := by
    rw [hr] at hk'
    rcases Dict.get?_set_eq_some_iff.mp hk' with ⟨rfl, rfl⟩ | ⟨_, hk'⟩
    · obtain rfl := Option.some.inj (hx.symm.trans hk)
      exact hl
    · rw [Option.some.inj (hk'.symm.trans hk)]
  cases hc with
  | unchanged hw hr ht => exact (hne (hsame hr)).elim
  | up hup hw hr ht => exact (hne (hsame hr)).elim
  | down hw hr ht =>
    rw [hr, Dict.get?_mapValues, hk, Option.map_some, Option.some.injEq] at hk'
    exact (hne (hk' ▸ lostAt_locationId r)).elim
  | created hnew hs' hw hr ht =>
    rw [hr, Dict.get?_set_ne _ _ (Dict.ne_of_get? hnew hk), hk,
      Option.some.injEq] at hk'
    exact (hne (hk' ▸ rfl)).elim
  | materialized hx hs' hl hup hw hr ht => exact (hne (hset hr hx hl)).elim
  | scheduled hnew hs' hfirst hw hr ht => exact (hne (hsame hr)).elim
  | advanced hx hs' hid hrun hw hr ht => exact (hne (hsame hr)).elim
  | moved hx hs' hs'' hreplica hl hup hw hr ht =>
    rw [hr] at hk'
    rcases Dict.get?_set_eq_some_iff.mp hk' with ⟨rfl, rfl⟩ | ⟨_, hk'⟩
    · obtain rfl := Option.some.inj (hreplica.symm.trans hk)
      exact ⟨_, _, _, hx, ht ▸ Dict.get?_set_self _ _ _, hs', hs'', rfl, hl, rfl⟩
    · exact (hne (by rw [Option.some.inj (hk'.symm.trans hk)])).elim
  | gone hx hs' hl hgone hw hr ht => exact (hne (hset hr hx hl)).elim

theorem replicated (hm : Replicated m) (hc : Change m m') : Replicated m' :=
  ⟨hc.available hm, hc.single hm, hc.running hm⟩

end Change

end Cadi
