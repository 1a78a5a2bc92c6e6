import Cadi.Retention.Loop

namespace Cadi.Retention
open Library
set_option autoImplicit true

section Passes
variable {c : RetentionProgramCase} {m : C73RetentionManifest} {h h' : Head} {now : Time}
  {run : RetentionRun}

/-- One pass leads from the first head to the second. -/
def Next (c : RetentionProgramCase) (m : C73RetentionManifest) (h h' : Head) : Prop :=
  ∃ now events rest run', nextInstant c m h = some ((now, events), rest) ∧
    instant c m now events h.run = .ok ⟨⟩ run' ∧ h' = ⟨rest, now.toNumber, run'⟩

/-- Passes lead from the first head to the second. -/
def Reaches (c : RetentionProgramCase) (m : C73RetentionManifest) : Head → Head → Prop :=
  Relation.ReflTransGen (Next c m)

theorem Concluded.head (hp : Passing c m h now events rest)
    (hc : Concluded c m now events h.run.cache run.cache) :
    HeadSound c m ⟨rest, now.toNumber, run⟩ :=
  ⟨hp.remaining, hc.fits, .inr ⟨now, rfl, hc.sound, hc.fresh, hp.within, hp.later⟩⟩

/-- A pass takes an external instant or removes a resident State. -/
theorem Concluded.decreases (hp : Passing c m h now events rest)
    (hc : Concluded c m now events h.run.cache run.cache) :
    work rest + run.resident.keys.length < work h.external + h.run.resident.keys.length := by
  have hsettled : h.run.cache.Shrinks (h.run.cache.settled c m now events) :=
    Cache.settled_shrinks _ _ _ _ _
  have hshrinks : h.run.cache.Shrinks ((h.run.cache.settled c m now events).served m now events) :=
    hsettled.trans (Cache.served_shrinks _ _ _ _)
  have hsize : run.resident.keys.length ≤
      ((h.run.cache.settled c m now events).served m now events).resident.keys.length +
        events.length := hc.size
  rcases hp.advances with ⟨i, hl, hevents⟩ | ⟨hrest, hnil, k, r, hr, hx⟩
  · have hle : ((h.run.cache.settled c m now events).served m now events).resident.keys.length ≤
        h.run.resident.keys.length := Cache.length_le_of_keys fun _ => hshrinks.mem
    rw [hl, work_cons, hevents]
    omega
  · have hgone : ∀ x ∈ ((h.run.cache.settled c m now events).served m now events).resident,
        x ∈ h.run.resident.erase k := by
      intro x hx'
      refine Dict.mem_erase.mpr ⟨?_, hshrinks.mem hx'⟩
      rintro rfl
      obtain ⟨r', hr'⟩ := Dict.mem_iff.mp hx'
      obtain ⟨r'', hr'', _, hexp⟩ := hshrinks k r' hr'
      obtain rfl := Option.some.inj (hr.symm.trans hr'')
      exact lt_irrefl _ ((hp.due.shrinks hsettled).served hr' (hexp.trans hx)).2
    have hlen := Cache.length_le_of_keys hgone
    have herase := Dict.keys_erase_length (Dict.mem_of_get? hr)
    rw [hnil, List.length_nil] at hsize
    rw [hrest]
    rw [hnil] at hlen
    omega

/-- The instant of the next pass is clear, if there is one. -/
def PassClear (c : RetentionProgramCase) (m : C73RetentionManifest) (h : Head) : Prop :=
  ∀ now events rest, nextInstant c m h = some ((now, events), rest) →
    InstantClear c m now events h.run

theorem Next.unique (h₁ : Next c m h a) (h₂ : Next c m h b) : a = b := by
  obtain ⟨now, events, rest, run₁, hn, hrun, rfl⟩ := h₁
  obtain ⟨now', events', rest', run₂, hn', hrun', rfl⟩ := h₂
  rw [hn] at hn'
  simp only [Option.some.injEq, Prod.mk.injEq] at hn'
  obtain ⟨⟨rfl, rfl⟩, rfl⟩ := hn'
  rw [hrun, EStateM.Result.ok.injEq] at hrun'
  rw [hrun'.2]

/-- A clear pass returns, and leads to a sound head with less to do. -/
theorem HeadSound.advance (ha : Accepted c) (hs : HeadSound c m h)
    (hn : nextInstant c m h = some ((now, events), rest))
    (hclear : InstantClear c m now events h.run) :
    ∃ run', instant c m now events h.run = .ok ⟨⟩ run' ∧ HeadSound c m ⟨rest, now.toNumber, run'⟩ ∧
      work rest + run'.resident.keys.length < work h.external + h.run.resident.keys.length := by
  have hp := hs.passing hn
  obtain ⟨⟨⟩, run', hrun', hhead, hless⟩ := (instant_returns_iff ha hp.atInstant hp.declared hp.sound
    hs.fits hp.due (fun run' => HeadSound c m ⟨rest, now.toNumber, run'⟩ ∧
      work rest + run'.resident.keys.length < work h.external + h.run.resident.keys.length)
    fun run' hc => ⟨hc.head hp, hc.decreases hp⟩).mpr hclear
  exact ⟨run', hrun', hhead, hless⟩

theorem HeadSound.clear_of_ok (ha : Accepted c) (hs : HeadSound c m h)
    (hn : nextInstant c m h = some ((now, events), rest))
    (hok : instant c m now events h.run = .ok ⟨⟩ run) : InstantClear c m now events h.run := by
  have hp := hs.passing hn
  exact (instant_returns_iff ha hp.atInstant hp.declared hp.sound hs.fits hp.due _
    fun _ _ => trivial).mp ⟨⟨⟩, run, hok, trivial⟩

theorem HeadSound.after (ha : Accepted c) (hs : HeadSound c m h)
    (hn : nextInstant c m h = some ((now, events), rest))
    (hok : instant c m now events h.run = .ok ⟨⟩ run) : After c m now ⟨rest, now.toNumber, run⟩ := by
  have hp := hs.passing hn
  obtain ⟨⟨⟩, run', hrun', hafter⟩ := (instant_returns_iff ha hp.atInstant hp.declared hp.sound
    hs.fits hp.due (fun run' => After c m now ⟨rest, now.toNumber, run'⟩)
    fun run' hc => ⟨rfl, hc.sound, hc.fresh, hp.within, hp.later⟩).mpr (hs.clear_of_ok ha hn hok)
  rw [hok, EStateM.Result.ok.injEq] at hrun'
  exact hrun'.2 ▸ hafter

theorem HeadSound.next_sound (ha : Accepted c) (hs : HeadSound c m h) (hn : Next c m h h') :
    HeadSound c m h' := by
  obtain ⟨now, events, rest, run', hnext, hrun, rfl⟩ := hn
  obtain ⟨run'', hrun', hhead, _⟩ := hs.advance ha hnext (hs.clear_of_ok ha hnext hrun)
  rw [hrun, EStateM.Result.ok.injEq] at hrun'
  exact hrun'.2 ▸ hhead

theorem HeadSound.reaches (ha : Accepted c) (hs : HeadSound c m h) (hr : Reaches c m h h') :
    HeadSound c m h' := by
  induction hr with
  | refl => exact hs
  | tail _ hn ih => exact ih.next_sound ha hn

/-- The loop returns what the rest accepts exactly when every pass is clear and the rest accepts the
head it ends in. -/
theorem passes_return_iff (ha : Accepted c) {post : Option (List Instant) → RetentionRun → Prop}
    (hs : HeadSound c m h) {fuel : Nat}
    (hfuel : work h.external + h.run.resident.keys.length < fuel) :
    Returns (passes c m fuel h.external h.lastTime) h.run post ↔
      ∀ h', Reaches c m h h' → PassClear c m h' ∧
        (nextInstant c m h' = none → post (some []) h'.run) := by
  induction fuel generalizing h with
  | zero => exact absurd hfuel (Nat.not_lt_zero _)
  | succ fuel ih =>
    unfold passes
    rw [Returns.get_bind_iff]
    cases hn : nextInstant c m h with
    | none =>
      have honly (h' : Head) (hr : Reaches c m h h') : h' = h := by
        rcases Relation.ReflTransGen.cases_head hr with he | ⟨x, ⟨_, _, _, _, hnext, _⟩, _⟩
        · exact he.symm
        · rw [hn] at hnext
          cases hnext
      have hclear : PassClear c m h := fun _ _ _ hnext => by
        rw [hn] at hnext
        cases hnext
      dsimp only
      rw [Returns.pure_iff, hs.finished hn]
      constructor
      · intro hpost h' hr
        obtain rfl := honly h' hr
        exact ⟨hclear, fun _ => hpost⟩
      · exact fun hall => (hall h .refl).2 hn
    | some next =>
      obtain ⟨⟨now, events⟩, rest⟩ := next
      dsimp only
      by_cases hclear : InstantClear c m now events h.run
      · obtain ⟨run', hrun', hhead, hless⟩ := hs.advance ha hn hclear
        have hnext : Next c m h ⟨rest, now.toNumber, run'⟩ :=
          ⟨now, events, rest, run', hn, hrun', rfl⟩
        rw [Returns.ok_bind_iff hrun', ih (h := ⟨rest, now.toNumber, run'⟩) hhead (by
          dsimp only
          omega)]
        constructor
        · intro hall h' hr
          rcases Relation.ReflTransGen.cases_head hr with rfl | ⟨x, hx, hr⟩
          · refine ⟨fun now' events' rest' hn' => ?_, fun hnone => ?_⟩
            · rw [hn] at hn'
              simp only [Option.some.injEq, Prod.mk.injEq] at hn'
              obtain ⟨⟨rfl, rfl⟩, rfl⟩ := hn'
              exact hclear
            · rw [hn] at hnone
              cases hnone
          · exact hall h' (hx.unique hnext ▸ hr)
        · exact fun hall h' hr => hall h' (.head hnext hr)
      · refine ⟨fun hret => ?_, fun hall => absurd ((hall h .refl).1 now events rest hn) hclear⟩
        obtain ⟨⟨⟩, run', hrun', _⟩ := Returns.bind_iff.mp hret
        exact absurd (hs.clear_of_ok ha hn hrun') hclear

end Passes

end Cadi.Retention
