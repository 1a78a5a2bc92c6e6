import Cadi.Retention.Journal

namespace Cadi.Retention
open Library
set_option autoImplicit true

/-- An interval that the engine classifies, as useful when a reuse ends it and else as wasted. -/
structure Closing where
  stateId : String
  start : Time
  finish : Time
  reason : ResidencyEndReason
deriving DecidableEq

/-- The interval that the entry closes. -/
def Entry.closing : Entry → Option Closing
  | .hit start now k => some ⟨k, start, now, .reuse⟩
  | .drop start now k reason => some ⟨k, start, now, reason⟩
  | _ => none

def closings (entries : List Entry) : List Closing := entries.filterMap Entry.closing

/-- The stay of a State in the cache, from its admission to its end. -/
structure Residency where
  stateId : String
  admitted : Time
  hits : List Time
  ended : Time
  reason : ResidencyEndReason

/-- The last reuse hit, or the admission when there is none. -/
def lastTouch (admitted : Time) (hits : List Time) : Time := hits.getLast?.getD admitted

/-- The intervals that end at the hits. -/
def hitTiles (k : String) : Time → List Time → List Closing
  | _, [] => []
  | start, t :: ts => ⟨k, start, t, .reuse⟩ :: hitTiles k t ts

/-- The intervals between the admission, the hits and the end. -/
def Residency.tiles (x : Residency) : List Closing :=
  hitTiles x.stateId x.admitted x.hits ++
    [⟨x.stateId, lastTouch x.admitted x.hits, x.ended, x.reason⟩]

/-- The residencies that are open, with their admissions and hits, and those that ended. -/
structure Stays where
  opened : Dict String (Time × List Time) := ∅
  ended : List Residency := []

def Stays.enter (s : Stays) : Entry → Stays
  | .admission now k => { s with opened := s.opened.set k (now, []) }
  | .hit _ now k =>
    match s.opened.get? k with
    | some (admitted, hits) => { s with opened := s.opened.set k (admitted, hits ++ [now]) }
    | none => s
  | .drop _ now k reason =>
    match s.opened.get? k with
    | some (admitted, hits) =>
      { opened := s.opened.erase k, ended := s.ended ++ [⟨k, admitted, hits, now, reason⟩] }
    | none => s
  | _ => s

def stays (entries : List Entry) : Stays := entries.foldl Stays.enter {}

/-- The residencies that ended. -/
def residencies (entries : List Entry) : List Residency := (stays entries).ended

section Charges
variable (c : RetentionProgramCase)

/-- What the code computes for the interval. -/
def Closing.byteSeconds (x : Closing) : Except PyError (Extent × Extent) := do
  let spec ← item c.specs x.stateId
  residencyIntervalByteSeconds spec.sizeBytes x.start x.finish x.reason

/-- The code adds the byte-seconds of the interval to its sums. -/
def charge (sums : Extent × Extent) (x : Closing) : Except PyError (Extent × Extent) := do
  let (useful, wasted) ← x.byteSeconds c
  return (sums.1.add useful, sums.2.add wasted)

variable {c}

theorem charge_ordered (h : charge c sums x = .ok sums') : x.start ≤ x.finish := by
  obtain ⟨_, hbytes, _⟩ := Except.bind_eq_ok.mp h
  obtain ⟨spec, _, hinterval⟩ := Except.bind_eq_ok.mp hbytes
  unfold residencyIntervalByteSeconds at hinterval
  split at hinterval
  · assumption
  · cases hinterval

end Charges

section Tiles

theorem lastTouch_append (a : Time) (hits : List Time) (t : Time) : lastTouch a (hits ++ [t]) = t := by
  rw [lastTouch, List.getLast?_concat, Option.getD_some]

theorem lastTouch_cons (a t : Time) (hits : List Time) : lastTouch a (t :: hits) = lastTouch t hits := by
  rw [lastTouch, lastTouch, List.getLast?_cons, Option.getD_some]

theorem hitTiles_append (k : String) (a : Time) (hits : List Time) (t : Time) :
    hitTiles k a (hits ++ [t]) = hitTiles k a hits ++ [⟨k, lastTouch a hits, t, .reuse⟩] := by
  induction hits generalizing a with
  | nil => rfl
  | cons h hits ih => rw [List.cons_append, hitTiles, ih, hitTiles, lastTouch_cons, List.cons_append]

end Tiles

section Steps
variable {c : RetentionProgramCase} {m : C73RetentionManifest} {s t : RetentionRun}

/-- What the step of the entry does to the residents and the sums. -/
def Entry.Does (c : RetentionProgramCase) (s t : RetentionRun) : Entry → Prop
  | .other | .note _ _ _ _ =>
    t.resident = s.resident ∧ (t.useful, t.wasted) = (s.useful, s.wasted)
  | .admission now k => k ∉ s.resident ∧ (t.useful, t.wasted) = (s.useful, s.wasted) ∧
    ∃ r, r.intervalStartSeconds = now ∧ t.resident = s.resident.set k r
  | .hit start now k => ∃ r, s.resident.get? k = some r ∧ r.intervalStartSeconds = start ∧
    charge c (s.useful, s.wasted) ⟨k, start, now, .reuse⟩ = .ok (t.useful, t.wasted) ∧
    t.resident = s.resident.set k
      { r with intervalStartSeconds := now, lastTouchTimeSeconds := now }
  | .drop start now k reason => ∃ r, s.resident.get? k = some r ∧ r.intervalStartSeconds = start ∧
    reason ≠ .reuse ∧
    charge c (s.useful, s.wasted) ⟨k, start, now, reason⟩ = .ok (t.useful, t.wasted) ∧
    t.resident = s.resident.erase k

theorem charge_of_interval (hspec : c.specs.get? k = some spec)
    (h : residencyIntervalByteSeconds spec.sizeBytes start now reason = .ok (useful, wasted)) :
    charge c (u, w) ⟨k, start, now, reason⟩ = .ok (u.add useful, w.add wasted) :=
  Except.bind_eq_ok.mpr ⟨_, Except.bind_eq_ok.mpr ⟨spec, item_eq_ok.mpr hspec, h⟩, rfl⟩

theorem Enters.does (h : Enters c m s e t) : e.Does c s t := by
  cases h with
  | other h =>
    exact ⟨congrArg Books.resident h, congrArg (fun b : Books => (b.useful, b.wasted)) h⟩
  | note _ h =>
    obtain ⟨_, a, _, h⟩ := record_effect h
    exact ⟨congrArg Books.resident h, congrArg (fun b : Books => (b.useful, b.wasted)) h⟩
  | admission hk h =>
    obtain ⟨ordinal, rfl⟩ := makeResident_effect h
    exact ⟨hk, rfl, _, rfl, rfl⟩
  | hit hr h =>
    obtain ⟨_, u, hclose, h⟩ := bind_eq_ok.mp h
    obtain ⟨r, spec, useful, wasted, hr', hspec, hinterval, rfl⟩ := closeInterval_effect hclose
    obtain rfl := Option.some.inj (hr.symm.trans hr')
    obtain ⟨_, a, _, h⟩ := record_effect h
    have hsums : (t.useful, t.wasted) = (s.useful.add useful, s.wasted.add wasted) :=
      congrArg (fun b : Books => (b.useful, b.wasted)) h
    refine ⟨_, hr, rfl, ?_, congrArg Books.resident h⟩
    rw [hsums]
    exact charge_of_interval hspec hinterval
  | drop hr hend h =>
    obtain ⟨r, spec, useful, wasted, hr', hspec, hinterval, rfl⟩ := closeInterval_effect h
    obtain rfl := Option.some.inj (hr.symm.trans hr')
    exact ⟨_, hr, rfl, hend, charge_of_interval hspec hinterval, rfl⟩

/-- The intervals of an open residency that are classified already. -/
def openTiles (p : String × Time × List Time) : List Closing := hitTiles p.1 p.2.1 p.2.2

/-- What holds of the entries so far and the engine: the open residencies are those of the
residents, and the intervals that were closed are those of the residencies. -/
structure Kept (c : RetentionProgramCase) (done : List Entry) (run : RetentionRun) : Prop where
  opened : ∀ k p, (stays done).opened.get? k = some p →
    ∃ r, run.resident.get? k = some r ∧ r.intervalStartSeconds = lastTouch p.1 p.2
  known : ∀ k ∈ run.resident, k ∈ (stays done).opened
  tiled : (closings done).Perm
    ((residencies done).flatMap Residency.tiles ++ (stays done).opened.entries.flatMap openTiles)
  ordered : ∀ x ∈ closings done, x.start ≤ x.finish
  wasted : ∀ x ∈ residencies done, x.reason ≠ .reuse
  charged : (closings done).foldlM (charge c) (.zero, .zero) = .ok (run.useful, run.wasted)

theorem stays_append (done : List Entry) (e : Entry) : stays (done ++ [e]) = (stays done).enter e :=
  List.foldl_concat ..

theorem closings_append (done : List Entry) (e : Entry) :
    closings (done ++ [e]) = closings done ++ e.closing.toList := by
  unfold closings
  rw [List.filterMap_append]
  cases e <;> rfl

theorem Kept.idle (h : Kept c done s) (hstays : (stays done).enter e = stays done)
    (hclosing : e.closing = none) (hresident : t.resident = s.resident)
    (hsums : (t.useful, t.wasted) = (s.useful, s.wasted)) : Kept c (done ++ [e]) t := by
  have hclosings : closings (done ++ [e]) = closings done := by
    rw [closings_append, hclosing, Option.toList_none, List.append_nil]
  have hsame : stays (done ++ [e]) = stays done := (stays_append done e).trans hstays
  refine ⟨?_, ?_, ?_, ?_, ?_, ?_⟩
  · rw [hsame, hresident]
    exact h.opened
  · rw [hsame, hresident]
    exact h.known
  · unfold residencies
    rw [hclosings, hsame]
    exact h.tiled
  · rw [hclosings]
    exact h.ordered
  · unfold residencies
    rw [hsame]
    exact h.wasted
  · rw [hclosings, hsums]
    exact h.charged

theorem Kept.close (h : Kept c done s) (hclosing : e.closing = some x)
    (hcharge : charge c (s.useful, s.wasted) x = .ok sums) :
    closings (done ++ [e]) = closings done ++ [x] ∧
      (∀ y ∈ closings (done ++ [e]), y.start ≤ y.finish) ∧
      (closings (done ++ [e])).foldlM (charge c) (.zero, .zero) = .ok sums := by
  have hclosings : closings (done ++ [e]) = closings done ++ [x] := by
    rw [closings_append, hclosing, Option.toList_some]
  refine ⟨hclosings, fun y hy => ?_, ?_⟩
  · rw [hclosings] at hy
    rcases List.mem_append.mp hy with hy | hy
    · exact h.ordered y hy
    · rw [List.mem_singleton] at hy
      exact hy ▸ charge_ordered hcharge
  · rw [hclosings, List.foldlM_append, h.charged, Except.ok_bind, List.foldlM_cons, hcharge,
      Except.ok_bind]
    rfl

theorem Kept.admission (h : Kept c done s) (hk : k ∉ s.resident)
    (hsums : (t.useful, t.wasted) = (s.useful, s.wasted)) (hstart : r.intervalStartSeconds = now)
    (hresident : t.resident = s.resident.set k r) : Kept c (done ++ [.admission now k]) t := by
  have hout : k ∉ (stays done).opened := by
    intro hin
    obtain ⟨p, hp⟩ := Dict.mem_iff.mp hin
    obtain ⟨r, hr, _⟩ := h.opened k p hp
    exact hk (Dict.mem_of_get? hr)
  have hstays : stays (done ++ [.admission now k]) =
      { stays done with opened := (stays done).opened.set k (now, []) } := stays_append _ _
  have hclosings : closings (done ++ [.admission now k]) = closings done := by
    rw [closings_append]
    exact List.append_nil _
  refine ⟨fun k' p hp => ?_, fun k' hk' => ?_, ?_, ?_, ?_, ?_⟩
  · rw [hstays] at hp
    rw [hresident]
    rcases Dict.get?_set_eq_some_iff.mp hp with ⟨rfl, rfl⟩ | ⟨hne, hp⟩
    · exact ⟨r, Dict.get?_set_self _ _ _, hstart⟩
    · obtain ⟨r', hr', hlast⟩ := h.opened k' p hp
      exact ⟨r', Dict.get?_set_eq_some_iff.mpr (.inr ⟨hne, hr'⟩), hlast⟩
  · rw [hresident, Dict.mem_set] at hk'
    rw [hstays, Dict.mem_set]
    exact hk'.imp_right (h.known k')
  · unfold residencies
    rw [hclosings, hstays, Dict.entries_set_new hout, List.flatMap_append, List.flatMap_singleton]
    change (closings done).Perm (_ ++ (_ ++ []))
    rw [List.append_nil]
    exact h.tiled
  · rw [hclosings]
    exact h.ordered
  · unfold residencies
    rw [hstays]
    exact h.wasted
  · rw [hclosings, hsums]
    exact h.charged

theorem Kept.hit (h : Kept c done s) (hr : s.resident.get? k = some r)
    (hcharge : charge c (s.useful, s.wasted) ⟨k, r.intervalStartSeconds, now, .reuse⟩ =
      .ok (t.useful, t.wasted))
    (hresident : t.resident = s.resident.set k
      { r with intervalStartSeconds := now, lastTouchTimeSeconds := now }) :
    Kept c (done ++ [.hit r.intervalStartSeconds now k]) t := by
  obtain ⟨⟨admitted, hits⟩, hopen⟩ := Dict.mem_iff.mp (h.known k (Dict.mem_of_get? hr))
  obtain ⟨r', hr', hlast⟩ := h.opened k _ hopen
  obtain rfl := Option.some.inj (hr.symm.trans hr')
  have hstays : stays (done ++ [.hit r.intervalStartSeconds now k]) = { stays done with
      opened := (stays done).opened.set k (admitted, hits ++ [now]) } := by
    rw [stays_append, Stays.enter, hopen]
  obtain ⟨hclosings, hordered, hcharged⟩ := h.close (e := .hit r.intervalStartSeconds now k) rfl hcharge
  refine ⟨fun k' p hp => ?_, fun k' hk' => ?_, ?_, hordered, ?_, hcharged⟩
  · rw [hstays] at hp
    rw [hresident]
    rcases Dict.get?_set_eq_some_iff.mp hp with ⟨rfl, rfl⟩ | ⟨hne, hp⟩
    · exact ⟨_, Dict.get?_set_self _ _ _, (lastTouch_append _ _ _).symm⟩
    · obtain ⟨r', hr', hlast⟩ := h.opened k' p hp
      exact ⟨r', Dict.get?_set_eq_some_iff.mpr (.inr ⟨hne, hr'⟩), hlast⟩
  · rw [hresident, Dict.mem_set] at hk'
    rw [hstays, Dict.mem_set]
    exact hk'.imp_right (h.known k')
  · -- the open residency has one interval more
    have hbefore : ((stays done).opened.entries.flatMap openTiles).Perm
        (hitTiles k admitted hits ++ ((stays done).opened.erase k).entries.flatMap openTiles) :=
      (Dict.perm_erase hopen).flatMap_right openTiles
    have hafter : (((stays done).opened.set k (admitted, hits ++ [now])).entries.flatMap
        openTiles).Perm (hitTiles k admitted (hits ++ [now]) ++
          ((stays done).opened.erase k).entries.flatMap openTiles) :=
      (Dict.perm_set hopen _).flatMap_right openTiles
    unfold residencies
    rw [hclosings, hstays]
    refine (h.tiled.append_right _).trans ?_
    rw [List.append_assoc]
    refine List.Perm.append_left _ (((hbefore.append_right _).trans ?_).trans hafter.symm)
    rw [hitTiles_append, hlast, List.append_assoc, List.append_assoc]
    exact List.Perm.append_left _ List.perm_append_comm
  · unfold residencies
    rw [hstays]
    exact h.wasted

theorem Kept.drop (h : Kept c done s) (hr : s.resident.get? k = some r) (hend : reason ≠ .reuse)
    (hcharge : charge c (s.useful, s.wasted) ⟨k, r.intervalStartSeconds, now, reason⟩ =
      .ok (t.useful, t.wasted))
    (hresident : t.resident = s.resident.erase k) :
    Kept c (done ++ [.drop r.intervalStartSeconds now k reason]) t := by
  obtain ⟨⟨admitted, hits⟩, hopen⟩ := Dict.mem_iff.mp (h.known k (Dict.mem_of_get? hr))
  obtain ⟨r', hr', hlast⟩ := h.opened k _ hopen
  obtain rfl := Option.some.inj (hr.symm.trans hr')
  have hstays : stays (done ++ [.drop r.intervalStartSeconds now k reason]) =
      { opened := (stays done).opened.erase k,
        ended := (stays done).ended ++ [⟨k, admitted, hits, now, reason⟩] } := by
    rw [stays_append, Stays.enter, hopen]
  obtain ⟨hclosings, hordered, hcharged⟩ :=
    h.close (e := .drop r.intervalStartSeconds now k reason) rfl hcharge
  refine ⟨fun k' p hp => ?_, fun k' hk' => ?_, ?_, hordered, fun x hx => ?_, hcharged⟩
  · rw [hstays] at hp
    rw [hresident]
    obtain ⟨hne, hp⟩ := Dict.get?_erase_eq_some_iff.mp hp
    obtain ⟨r', hr', hlast⟩ := h.opened k' p hp
    exact ⟨r', Dict.get?_erase_eq_some_iff.mpr ⟨hne, hr'⟩, hlast⟩
  · rw [hresident, Dict.mem_erase] at hk'
    rw [hstays, Dict.mem_erase]
    exact ⟨hk'.1, h.known k' hk'.2⟩
  · -- the open residency ends with its last interval
    have hbefore : ((stays done).opened.entries.flatMap openTiles).Perm
        (hitTiles k admitted hits ++ ((stays done).opened.erase k).entries.flatMap openTiles) :=
      (Dict.perm_erase hopen).flatMap_right openTiles
    unfold residencies
    rw [hclosings, hstays, List.flatMap_append, List.flatMap_singleton]
    refine (h.tiled.append_right _).trans ?_
    rw [List.append_assoc, List.append_assoc]
    refine List.Perm.append_left _ ((hbefore.append_right _).trans ?_)
    unfold Residency.tiles
    dsimp only
    rw [hlast, List.append_assoc, List.append_assoc]
    exact List.Perm.append_left _ List.perm_append_comm
  · unfold residencies at hx
    rw [hstays] at hx
    rcases List.mem_append.mp hx with hx | hx
    · exact h.wasted x hx
    · rw [List.mem_singleton] at hx
      exact hx ▸ hend

theorem Kept.step (h : Kept c done s) (he : Enters c m s e t) : Kept c (done ++ [e]) t := by
  have hdoes := he.does
  cases e with
  | other => exact h.idle rfl rfl hdoes.1 hdoes.2
  | note now kind k reason => exact h.idle rfl rfl hdoes.1 hdoes.2
  | admission now k =>
    obtain ⟨hk, hsums, r, hstart, hresident⟩ := hdoes
    exact h.admission hk hsums hstart hresident
  | hit start now k =>
    obtain ⟨r, hr, rfl, hcharge, hresident⟩ := hdoes
    exact h.hit hr hcharge hresident
  | drop start now k reason =>
    obtain ⟨r, hr, rfl, hend, hcharge, hresident⟩ := hdoes
    exact h.drop hr hend hcharge hresident

/-- Once nothing is resident, the intervals are exactly those of the residencies. -/
theorem Kept.tiles (h : Kept c done s) (hempty : s.resident = ∅) :
    (closings done).Perm ((residencies done).flatMap Residency.tiles) := by
  have hnone : (stays done).opened.entries = [] := by
    rw [List.eq_nil_iff_forall_not_mem]
    intro p hp
    obtain ⟨r, hr, _⟩ := h.opened p.1 p.2 (Dict.get?_eq_some_iff.mpr hp)
    rw [hempty] at hr
    cases hr
  have htiled := h.tiled
  rw [hnone, List.flatMap_nil, List.append_nil] at htiled
  exact htiled

end Steps

section Sums
variable {c : RetentionProgramCase}

def sizeOf (c : RetentionProgramCase) (k : String) : Nat :=
  ((c.specs.get? k).map (·.sizeBytes)).getD 0

/-- The byte-time of the interval in exact arithmetic, in bytes times the unit of the times. -/
def Closing.byteUnits (c : RetentionProgramCase) (x : Closing) : Nat :=
  sizeOf c x.stateId * (x.finish.units - x.start.units)

def totalUnits (c : RetentionProgramCase) (xs : List Closing) : Nat :=
  (xs.map (·.byteUnits c)).sum

/-- The byte-time of the intervals that the code classifies as useful. -/
def usefulUnits (c : RetentionProgramCase) (xs : List Closing) : Nat :=
  totalUnits c (xs.filter (·.reason = .reuse))

/-- The size times the time from the admission to the last hit, zero when there is none. -/
def Residency.usefulUnits (c : RetentionProgramCase) (x : Residency) : Nat :=
  match x.hits.getLast? with
  | some t => sizeOf c x.stateId * (t.units - x.admitted.units)
  | none => 0

/-- The size times the time from the admission to the end. -/
def Residency.byteUnits (c : RetentionProgramCase) (x : Residency) : Nat :=
  sizeOf c x.stateId * (x.ended.units - x.admitted.units)

/-- The interval covers the instant. -/
def Closing.Covers (u : Nat) (x : Closing) : Prop := x.start.units ≤ u ∧ u < x.finish.units

instance (u : Nat) (x : Closing) : Decidable (x.Covers u) := inferInstanceAs (Decidable (_ ∧ _))

theorem covers_cons (x : Closing) (xs : List Closing) (u : Nat) :
    ((x :: xs).filter (·.Covers u)).length =
      (if x.start.units ≤ u ∧ u < x.finish.units then 1 else 0) +
        (xs.filter (·.Covers u)).length := by
  rw [List.filter_cons]
  split
  · next hin =>
    have hcovers : x.start.units ≤ u ∧ u < x.finish.units := of_decide_eq_true hin
    rw [if_pos hcovers, List.length_cons, Nat.add_comm]
  · next hout =>
    have hnot : ¬ (x.start.units ≤ u ∧ u < x.finish.units) := fun h => hout (decide_eq_true h)
    rw [if_neg hnot, Nat.zero_add]

theorem hitTiles_spec (h : ∀ x ∈ hitTiles k a hits, x.start ≤ x.finish) :
    a ≤ lastTouch a hits ∧
      totalUnits c (hitTiles k a hits) = sizeOf c k * ((lastTouch a hits).units - a.units) ∧
      ∀ u, ((hitTiles k a hits).filter (·.Covers u)).length =
        if a.units ≤ u ∧ u < (lastTouch a hits).units then 1 else 0 := by
  induction hits generalizing a with
  | nil =>
    refine ⟨le_rfl, ?_, fun u => ?_⟩
    · change 0 = sizeOf c k * (a.units - a.units)
      rw [Nat.sub_self, Nat.mul_zero]
    · have hnot : ¬ (a.units ≤ u ∧ u < (lastTouch a []).units) := fun h => Nat.not_lt.mpr h.1 h.2
      rw [if_neg hnot]
      rfl
  | cons t hits ih =>
    have hfirst : a.units ≤ t.units := h _ List.mem_cons_self
    obtain ⟨hle, htotal, hcovers⟩ := ih fun x hx => h x (List.mem_cons_of_mem _ hx)
    have hle' : t.units ≤ (lastTouch t hits).units := hle
    rw [lastTouch_cons]
    refine ⟨hfirst.trans hle', ?_, fun u => ?_⟩
    · change sizeOf c k * (t.units - a.units) + totalUnits c (hitTiles k t hits) = _
      rw [htotal, ← Nat.mul_add]
      congr 1
      omega
    · rw [hitTiles, covers_cons, hcovers]
      dsimp only
      split
      · rw [if_neg (by omega), if_pos (by omega)]
      · split
        · rw [if_pos (by omega)]
        · rw [if_neg (by omega)]

theorem hitTiles_reuse (k : String) (a : Time) (hits : List Time) :
    ∀ x ∈ hitTiles k a hits, x.reason = .reuse := by
  induction hits generalizing a with
  | nil => exact fun _ h => (List.not_mem_nil h).elim
  | cons t hits ih => exact List.forall_mem_cons.mpr ⟨rfl, ih t⟩

/-- The intervals of a residency cover each of its instants once, are useful up to the last hit and
wasted after it. -/
theorem Residency.tiles_spec (x : Residency) (hend : x.reason ≠ .reuse)
    (h : ∀ y ∈ x.tiles, y.start ≤ y.finish) :
    totalUnits c x.tiles = x.byteUnits c ∧
      Retention.usefulUnits c x.tiles = x.usefulUnits c ∧
      ∀ u, (x.tiles.filter (·.Covers u)).length =
        if x.admitted.units ≤ u ∧ u < x.ended.units then 1 else 0 := by
  unfold tiles at h ⊢
  obtain ⟨hle, htotal, hcovers⟩ := hitTiles_spec (c := c)
    fun y hy => h y (List.mem_append_left _ hy)
  have hle' : x.admitted.units ≤ (lastTouch x.admitted x.hits).units := hle
  have hlast : (lastTouch x.admitted x.hits).units ≤ x.ended.units :=
    h _ (List.mem_append_right _ List.mem_cons_self)
  refine ⟨?_, ?_, fun u => ?_⟩
  · unfold totalUnits at htotal ⊢
    rw [List.map_append, List.sum_append_nat, htotal, List.map_singleton, List.sum_singleton]
    unfold Closing.byteUnits Residency.byteUnits
    rw [← Nat.mul_add]
    congr 1
    dsimp only
    omega
  · unfold Retention.usefulUnits
    rw [List.filter_append, List.filter_cons_of_neg (by simpa only [decide_eq_true_eq] using hend),
      List.filter_nil, List.append_nil, List.filter_eq_self.mpr fun y hy =>
        decide_eq_true (hitTiles_reuse _ _ _ y hy), htotal]
    unfold Residency.usefulUnits lastTouch
    cases x.hits.getLast? with
    | none => rw [Option.getD_none, Nat.sub_self, Nat.mul_zero]
    | some t => rfl
  · rw [List.filter_append, List.length_append, hcovers, covers_cons, List.filter_nil,
      List.length_nil, Nat.add_zero]
    dsimp only
    split
    · rw [if_neg (by omega), if_pos (by omega)]
    · split
      · rw [if_pos (by omega)]
      · rw [if_neg (by omega)]

theorem totalUnits_append (xs ys : List Closing) :
    totalUnits c (xs ++ ys) = totalUnits c xs + totalUnits c ys := by
  unfold totalUnits
  rw [List.map_append, List.sum_append_nat]

theorem totalUnits_flatMap {f : Residency → List Closing} {g : Residency → Nat} {l : List Residency}
    (h : ∀ x ∈ l, totalUnits c (f x) = g x) : totalUnits c (l.flatMap f) = (l.map g).sum := by
  induction l with
  | nil => rfl
  | cons x l ih =>
    obtain ⟨hx, hl⟩ := List.forall_mem_cons.mp h
    rw [List.flatMap_cons, totalUnits_append, hx, ih hl, List.map_cons, List.sum_cons]

theorem totalUnits_perm (h : xs.Perm ys) : totalUnits c xs = totalUnits c ys :=
  (h.map _).sum_nat

theorem Kept.sums {s : RetentionRun} (h : Kept c done s) (hempty : s.resident = ∅) :
    totalUnits c (closings done) = ((residencies done).map (·.byteUnits c)).sum ∧
      usefulUnits c (closings done) = ((residencies done).map (·.usefulUnits c)).sum ∧
      ∀ x ∈ residencies done, ∀ u, (x.tiles.filter (·.Covers u)).length =
        if x.admitted.units ≤ u ∧ u < x.ended.units then 1 else 0 := by
  have hperm := h.tiles hempty
  have hspec (x : Residency) (hx : x ∈ residencies done) := x.tiles_spec (c := c) (h.wasted x hx)
    fun y hy => h.ordered y (hperm.mem_iff.mpr (List.mem_flatMap.mpr ⟨x, hx, hy⟩))
  refine ⟨?_, ?_, fun x hx => (hspec x hx).2.2⟩
  · rw [totalUnits_perm hperm]
    exact totalUnits_flatMap fun x hx => (hspec x hx).1
  · unfold usefulUnits
    rw [totalUnits_perm (hperm.filter _), List.filter_flatMap]
    exact totalUnits_flatMap fun x hx => (hspec x hx).2.1

end Sums

end Cadi.Retention
