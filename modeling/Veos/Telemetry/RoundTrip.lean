import Veos.Telemetry.ControlRuns
import Veos.Telemetry.PayloadKeys

/-!
# A payload that comes back as a reading

The server stores what the service sends and returns it as its latest reading.  The
names that `applyControls` looks up are names that `PropMapping` gives to properties of
the sweep, but for the cabin temperature, which is not sent.  Three of the other four
controls write the property that is sent under their name.  The speed does not: it is
read from one property and written to another, which `PropMapping` calls
`veos_ev_instant_efficiency`.
-/

namespace Veos
namespace Telemetry

open Java Vhal

/-- The property that a sweep sends under the name of a control. -/
def Control.sent? (c : Control) : Option PropId :=
  (sweep.map Reading.propId).find? fun propId => PropMapping.getName propId = c.name

/-- The controls that write what a sweep sends under their name. -/
theorem Control.sent?_eq_propId_iff (c : Control) :
    c.sent? = some c.propId ↔ c = .distance ∨ c = .duration ∨ c = .battery := by
  cases c <;> decide

/-- What a sweep of `v` reports of a property. -/
def reported (v : Service) (propId : PropId) : Int32 :=
  (v.store (propId, 0)).headD 0

/-- No call of the VHAL fails, and every property of the sweep has a value. -/
def SweepReadable (v : Service) : Prop :=
  v.Faultless ∧ ∀ reading ∈ sweep, v.store (reading.propId, 0) ≠ []

/-- A name that is neither fixed nor that of a reading is not sent. -/
theorem sendTelemetry_lookup_of_ne {ptr : ClientPtr} (hptr : ptr ≠ 0) (around : Surroundings)
    (v : Service) {name : String}
    (hname : ∀ reading ∈ sweep, name ≠ PropMapping.getName reading.propId)
    (hother : name ∉ fixedNames) : (sendTelemetry ptr around v).1.lookup name = none := by
  rw [sendTelemetry_eq, addReadings_lookup_of_ne hptr _ _ _ hname, List.lookup_eq_none_iff]
  intro binding hbinding
  have hfixed := fixedEntries_names around binding hbinding
  rw [bne_iff_ne]
  rintro rfl
  exact hother hfixed

/-- The entry of an `int32` reading. -/
theorem sendTelemetry_lookup_int {ptr : ClientPtr} (hptr : ptr ≠ 0) (around : Surroundings)
    {v : Service} (hv : SweepReadable v) {propId : PropId} (hmem : .int propId ∈ sweep) :
    (sendTelemetry ptr around v).1.lookup (PropMapping.getName propId) =
      some (.number (.integer (reported v propId))) := by
  obtain ⟨i, hi⟩ := List.getElem?_of_mem hmem
  have hentry := addReadings_lookup hptr sweep (fixedEntries around) v sweep_names_nodup hi
  rw [hv.1.2, Reading.answer_eq_held _ (hv.2 _ hmem)] at hentry
  exact hentry

/-- What the returned reading asks of the control that is not sent. -/
theorem requested_temp {ptr : ClientPtr} (hptr : ptr ≠ 0) (around : Surroundings) (v : Service)
    {reading : JMap} (hreturned : (sendTelemetry ptr around v).1.SameValues reading) :
    requested (some reading) .temp = none := by
  have habsent : (sendTelemetry ptr around v).1.lookup Control.temp.name = none :=
    sendTelemetry_lookup_of_ne hptr around v (by decide) (by decide)
  have hentry := hreturned Control.temp.name
  rw [habsent] at hentry
  rw [requested]
  cases hlookup : reading.lookup Control.temp.name with
  | none => rfl
  | some object =>
      rw [hlookup] at hentry
      cases hentry

/-- What a sweep sends under the name of a control is an `int32` reading. -/
theorem Control.sent?_spec {c : Control} {propId : PropId} (hsent : c.sent? = some propId) :
    .int propId ∈ sweep ∧ PropMapping.getName propId = c.name := by
  cases c with
  | speed =>
      obtain rfl : 557846353 = propId := Option.some.inj hsent
      exact ⟨by decide, rfl⟩
  | distance =>
      obtain rfl : 557846362 = propId := Option.some.inj hsent
      exact ⟨by decide, rfl⟩
  | duration =>
      obtain rfl : 557846363 = propId := Option.some.inj hsent
      exact ⟨by decide, rfl⟩
  | battery =>
      obtain rfl : 557846354 = propId := Option.some.inj hsent
      exact ⟨by decide, rfl⟩
  | temp => cases hsent

/-- What the returned reading asks of a control that is sent. -/
theorem requested_sent {ptr : ClientPtr} (hptr : ptr ≠ 0) (around : Surroundings) {v : Service}
    (hv : SweepReadable v) {reading : JMap}
    (hreturned : (sendTelemetry ptr around v).1.SameValues reading) {c : Control}
    {propId : PropId} (hsent : c.sent? = some propId) :
    requested (some reading) c = some (.ok (reported v propId)) := by
  obtain ⟨hmem, hname⟩ := Control.sent?_spec hsent
  have hentry := hreturned (PropMapping.getName propId)
  rw [sendTelemetry_lookup_int hptr around hv hmem, hname] at hentry
  cases hlookup : reading.lookup c.name with
  | none =>
      rw [hlookup] at hentry
      cases hentry
  | some object =>
      rw [hlookup] at hentry
      obtain ⟨hsame⟩ := hentry
      apply (requested_ok_iff reading c _).2
      rw [hlookup]
      cases hsame with
      | refl => exact ⟨_, rfl, rfl⟩
      | number hx hy =>
          obtain rfl := Option.some.inj hx
          exact ⟨_, rfl, Number.intValue_of_value? hy⟩

/-- The service after a sweep. -/
theorem sendTelemetry_snd {ptr : ClientPtr} (hptr : ptr ≠ 0) (around : Surroundings)
    (v : Service) :
    (sendTelemetry ptr around v).2 = { v with gets := v.gets + sweep.length } :=
  addReadings_connected hptr sweep _ v

section Returned

variable {ptr ptr' : ClientPtr} (hptr : ptr ≠ 0) (hptr' : ptr' ≠ 0) (around : Surroundings)
  {v : Service} (hv : SweepReadable v) {reading : JMap}
  (hreturned : (sendTelemetry ptr around v).1.SameValues reading) (caches : Caches)

include hptr hptr' hv hreturned

/-- The returned reading holds numbers only, so that the call runs to its end. -/
theorem applyControls_returned_completes :
    (applyControls ptr' (some reading) ⟨caches, (sendTelemetry ptr around v).2⟩).1 = none := by
  have hfaultless : (sendTelemetry ptr around v).2.Faultless := by
    rw [sendTelemetry_snd hptr]
    exact hv.1
  apply applyControls_completes_of_no_error hptr' _ hfaultless
  intro c e herror
  cases hsent : c.sent? with
  | some propId =>
      rw [requested_sent hptr around hv hreturned hsent] at herror
      cases herror
  | none =>
      cases c with
      | temp =>
          rw [requested_temp hptr around v hreturned] at herror
          cases herror
      | _ => cases hsent

/-- Each control that is sent stores what was sent, unless that is cached. -/
theorem store_returned {c : Control} {propId : PropId} (hsent : c.sent? = some propId) :
    (applyControls ptr' (some reading) ⟨caches, (sendTelemetry ptr around v).2⟩).2.vhal.store
        c.key =
      if reported v propId = caches.get c then v.store c.key else [reported v propId] := by
  rw [store_of_completed
    (applyControls_returned_completes hptr hptr' around hv hreturned caches) c _
    (requested_sent hptr around hv hreturned hsent), sendTelemetry_snd hptr]

omit hptr' hv in
/-- No other property is set. -/
theorem store_returned_of_ne {key : Key} (hkey : ∀ c : Control, c.key = key → c.sent? = none) :
    (applyControls ptr' (some reading) ⟨caches, (sendTelemetry ptr around v).2⟩).2.vhal.store
      key = v.store key := by
  rw [store_of_not_requested, sendTelemetry_snd hptr]
  intro c hc
  have hnotSent := hkey c hc
  cases c with
  | temp => exact requested_temp hptr around v hreturned
  | _ => cases hnotSent

/-- The VHAL is as before exactly when every control that is sent asks for what is cached
or for what its property holds. -/
theorem store_returned_eq_iff :
    (applyControls ptr' (some reading) ⟨caches, (sendTelemetry ptr around v).2⟩).2.vhal.store =
        v.store ↔
      ∀ c propId, c.sent? = some propId →
        reported v propId = caches.get c ∨ v.store c.key = [reported v propId] := by
  constructor
  · intro hsame c propId hsent
    have hkey := congrFun hsame c.key
    rw [store_returned hptr hptr' around hv hreturned caches hsent] at hkey
    split at hkey
    · rename_i hcached
      exact Or.inl hcached
    · exact Or.inr hkey.symm
  · intro hall
    funext key
    by_cases hkey : ∃ c propId, Control.key c = key ∧ c.sent? = some propId
    · obtain ⟨c, propId, rfl, hsent⟩ := hkey
      rw [store_returned hptr hptr' around hv hreturned caches hsent]
      rcases hall c propId hsent with hcached | hstored
      · rw [if_pos hcached]
      · rw [hstored, ite_self]
    · apply store_returned_of_ne hptr around hreturned caches
      intro c hc
      cases hsent : c.sent? with
      | none => rfl
      | some propId => exact absurd ⟨c, propId, hc, hsent⟩ hkey

end Returned

/-- **Export and import.**  When the server returns what a sweep has sent, applying the
reading leaves the VHAL as it is exactly under two conditions.  The speed that was read is
the cached one, or the property that the speed is written to holds it already.  And each of
the other three values is the cached one, or its property has one component.  For these
three the control writes the property that was read, for the speed and the cabin
temperature it does not. -/
theorem roundTrip_iff {ptr ptr' : ClientPtr} (hptr : ptr ≠ 0) (hptr' : ptr' ≠ 0)
    (around : Surroundings) {v : Service} (hv : SweepReadable v) {reading : JMap}
    (hreturned : (sendTelemetry ptr around v).1.SameValues reading) (caches : Caches) :
    ((applyControls ptr' (some reading) ⟨caches, (sendTelemetry ptr around v).2⟩).2.vhal.store =
        v.store ↔
      (reported v 557846353 = caches.currentSpeed ∨
        v.store (557846375, 0) = [reported v 557846353]) ∧
      ∀ c, c = .distance ∨ c = .duration ∨ c = .battery →
        reported v c.propId = caches.get c ∨ (v.store c.key).length = 1) ∧
    ∀ c : Control, c.sent? = some c.propId ↔ c = .distance ∨ c = .duration ∨ c = .battery := by
  refine ⟨?_, Control.sent?_eq_propId_iff⟩
  rw [store_returned_eq_iff hptr hptr' around hv hreturned caches]
  constructor
  · intro hall
    refine ⟨hall .speed _ rfl, fun c hc => ?_⟩
    rcases hall c c.propId (c.sent?_eq_propId_iff.2 hc) with hcached | hstored
    · exact Or.inl hcached
    · exact Or.inr (by rw [hstored]; rfl)
  · rintro ⟨hspeed, hothers⟩ c propId hsent
    by_cases hc : c = .distance ∨ c = .duration ∨ c = .battery
    · obtain rfl : propId = c.propId :=
        Option.some.inj (hsent.symm.trans (c.sent?_eq_propId_iff.2 hc))
      rcases hothers c hc with hcached | hlength
      · exact Or.inl hcached
      -- the property has one component, which is the one reported
      · obtain ⟨value, hvalue⟩ := List.length_eq_one_iff.1 hlength
        refine Or.inr ?_
        rw [reported, show (c.propId, (0 : AreaId)) = c.key from rfl, hvalue]
        rfl
    · cases c with
      | speed =>
          obtain rfl : 557846353 = propId := Option.some.inj hsent
          exact hspeed
      | temp => cases hsent
      | _ => simp at hc

/-- A VHAL on which the speed is 50 and every other property 7. -/
def cruising : Service := .fresh fun key => if key = (557846353, 0) then [50] else [7]

theorem cruising_readable : SweepReadable cruising :=
  ⟨Service.fresh_faultless _, by decide⟩

/-- The speed that comes back overwrites the efficiency. -/
theorem speed_overwrites_efficiency :
    let sent := sendTelemetry 1 ⟨0, none⟩ cruising
    SweepReadable cruising ∧ sent.1.SameValues sent.1.decodeDoubles ∧
    cruising.store (557846375, 0) = [7] ∧
    (applyControls 1 (some sent.1.decodeDoubles) ⟨{}, sent.2⟩).2.vhal.store (557846375, 0) =
      [50] := by
  have hptr : (1 : ClientPtr) ≠ 0 := by decide
  have hstore := store_returned hptr hptr ⟨0, none⟩ cruising_readable
    (JMap.sameValues_decodeDoubles _) {} (c := .speed) rfl
  exact ⟨cruising_readable, JMap.sameValues_decodeDoubles _, rfl, hstore⟩

/-- With a speed of 50 in the cache nothing changes. -/
theorem cruising_roundTrip :
    let sent := sendTelemetry 1 ⟨0, none⟩ cruising
    (applyControls 1 (some sent.1.decodeDoubles)
      ⟨{ currentSpeed := 50 }, sent.2⟩).2.vhal.store = cruising.store := by
  have hptr : (1 : ClientPtr) ≠ 0 := by decide
  refine (roundTrip_iff hptr hptr ⟨0, none⟩ cruising_readable
    (JMap.sameValues_decodeDoubles _) { currentSpeed := 50 }).1.2 ?_
  refine ⟨Or.inl rfl, fun c hc => Or.inr ?_⟩
  rcases hc with rfl | rfl | rfl <;> rfl

end Telemetry
end Veos
