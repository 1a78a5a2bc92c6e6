import Cadi.Retention.Passes
import Mathlib.Logic.Relation

namespace Cadi.Retention
open Library
set_option autoImplicit true

section Instants
variable {c : RetentionProgramCase} {m : C73RetentionManifest} {run : RetentionRun} {now : Time}

/-- The instant meets the capacity and the expiries: when the expiries are processed no resident
State is stale, and every admission that is processed while the resident bytes exceed the capacity
is granted. -/
def InstantClear (c : RetentionProgramCase) (m : C73RetentionManifest) (now : Time)
    (events : List RetentionEvent) (run : RetentionRun) : Prop :=
  ∀ run₁, settle c m now events run = .ok ⟨⟩ run₁ →
    (m.retentionPolicyId = .fixedTtl →
      ∀ k r, run₁.resident.get? k = some r → r.stale = false) ∧
    ∀ run₂, serve c m now events run₁ = .ok ⟨⟩ run₂ → AdmissionsClear c m events run₂

/-- What an instant that returns leaves. -/
structure Concluded (c : RetentionProgramCase) (m : C73RetentionManifest) (now : Time)
    (events : List RetentionEvent) (v w : Cache) : Prop where
  sound : Cache.Sound c now w
  fits : w.Fits m
  fresh : w.Fresh m now
  size : w.resident.keys.length ≤
    ((v.settled c m now events).served m now events).resident.keys.length + events.length

theorem Cache.Sound.served {v : Cache} (h : Sound c now v) (he : AtInstant c now events) :
    Sound c now (v.served m now events) :=
  List.foldlRecOn events Cache.reuse h.expireAll fun _ hw e hmem => hw.reuse (he e hmem).2

/-- The admissions, the enforcement and the checkpoint return exactly when each admission is
clear. -/
theorem admissions_return_iff (ha : Accepted c) (he : AtInstant c now events)
    (hmem : ∀ e ∈ events, e ∈ c.events) (hs : Admitting c m now run.cache)
    {post : RetentionRun → Prop}
    (hpost : ∀ run', Cache.Sound c now run'.cache → run'.cache.Fits m → run'.cache.Fresh m now →
      run'.resident.keys.length ≤ run.resident.keys.length + events.length → post run') :
    Returns (admitAll c m events >>= conclude c m now) run (fun _ => post) ↔
      AdmissionsClear c m events run := by
  rw [Returns.bind_iff]
  apply admitAll_returns_iff ha he hmem hs
  intro ids run' hs' hlen
  refine (conclude_returns ha hs'.sound hs'.guarded ids).mono ?_
  intro _ run'' ⟨hs'', hf'', hshrinks⟩
  refine hpost run'' hs'' hf'' (hs'.fresh.shrinks hshrinks) ?_
  have hle : run''.resident.keys.length ≤ run'.resident.keys.length :=
    Cache.length_le_of_keys fun _ => hshrinks.mem
  exact hle.trans hlen

theorem instant_returns_iff (ha : Accepted c) (he : AtInstant c now events)
    (hmem : ∀ e ∈ events, e ∈ c.events) (hs : Cache.Sound c now run.cache)
    (hf : Cache.Fits m run.cache) (hd : run.cache.Due m now) (post : RetentionRun → Prop)
    (hpost : ∀ run', Concluded c m now events run.cache run'.cache → post run') :
    Returns (instant c m now events) run (fun _ => post) ↔ InstantClear c m now events run := by
  obtain ⟨run₁, hsettle, hcache₁⟩ := (settle_leaves ha he hs hf).exists
  have hs₁ : Cache.Sound c now run₁.cache := hcache₁ ▸ hs.settled
  have hshrinks₁ : run.cache.Shrinks run₁.cache := hcache₁ ▸ Cache.settled_shrinks _ _ _ _ _
  have hf₁ : Cache.Fits m run₁.cache := hf.shrinks hshrinks₁
  have hd₁ : run₁.cache.Due m now := hd.shrinks hshrinks₁
  have hstale : (∀ k r, run₁.resident.get? k = some r → r.stale = false) ↔
      run₁.cache.Punctual now := hd₁.punctual_iff.symm
  unfold instant InstantClear
  rw [Returns.ok_bind_iff hsettle, Returns.ok_forall_iff hsettle, hstale]
  by_cases hp : m.retentionPolicyId = .fixedTtl → run₁.cache.Punctual now
  · obtain ⟨⟨⟩, run₂, hserve, hcache₂⟩ := (serve_returns_iff ha he hs₁ hf₁
      (fun run' => run'.cache = run₁.cache.served m now events) fun _ h => h).mpr hp
    have hshrinks₂ : run₁.cache.Shrinks run₂.cache := hcache₂ ▸ Cache.served_shrinks _ _ _ _
    have hfresh : run₂.cache.Fresh m now := by
      intro k r x hr hx
      rw [hcache₂] at hr
      obtain ⟨hpolicy, hlt⟩ := hd₁.served hr hx
      exact ⟨hpolicy, .inr hlt⟩
    have hs₂ : Admitting c m now run₂.cache :=
      ⟨hcache₂ ▸ hs₁.served he, (hf₁.shrinks hshrinks₂).guarded, hfresh⟩
    rw [Returns.ok_bind_iff hserve, Returns.ok_forall_iff hserve, and_iff_right hp]
    apply admissions_return_iff ha he hmem hs₂
    intro run' hs' hf' hfresh' hlen
    refine hpost run' ⟨hs', hf', hfresh', ?_⟩
    rw [← hcache₁, ← hcache₂]
    exact hlen
  · refine ⟨fun h => ?_, fun h => absurd h.1 hp⟩
    rw [Returns.bind_iff] at h
    exact absurd ((serve_returns_iff ha he hs₁ hf₁ _ fun _ _ => trivial).mp
      (h.mono fun _ _ _ => trivial)) hp

end Instants

end Cadi.Retention
