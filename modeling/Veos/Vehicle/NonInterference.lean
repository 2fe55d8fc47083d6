import Mathlib.Data.List.Forall2
import Veos.Telemetry.Service
import Veos.Vehicle.Indicators

/-!
# Which signals reach which readers

Two runs whose messages differ only in some hidden signals are compared.  What the
runs store agrees on every property that carries no hidden signal, and so does
everything a reader derives from such properties alone: a part of the dashboard,
or an entry of the telemetry payload.

The three components number their properties separately, so which parts are
concerned is a question about the ids.  The left turn signal is written to the
property that the readers take for the high beam, and the hazard lights to the one
that they take for the low-battery warning.  The right turn signal and the air
conditioning reach no reader of the quantities considered here.
-/

namespace Veos
namespace Vehicle

open Vhal Someip Dashboard Telemetry Java

/-! ## Agreement of two runs -/

/-- The property `key` carries none of the signals `hidden`. -/
def Clear (hidden : List Signal) (key : Key) : Prop :=
  ∀ signal ∈ hidden, signal.key ≠ key

instance (hidden : List Signal) (key : Key) : Decidable (Clear hidden key) :=
  inferInstanceAs (Decidable (∀ signal ∈ hidden, signal.key ≠ key))

/-- The messages agree on all signals but those `hidden`. -/
def DifferOnlyIn (hidden : List Signal) (s s' : PrimaryVehicleState) : Prop :=
  ∀ signal, signal ∉ hidden → signal.field s = signal.field s'

/-- The steps are refreshes, or messages that differ only in `hidden`. -/
inductive StepsDifferOnlyIn (hidden : List Signal) : Step → Step → Prop
  | message {s s' : PrimaryVehicleState} (h : DifferOnlyIn hidden s s') :
      StepsDifferOnlyIn hidden (.message s) (.message s')
  | refresh : StepsDifferOnlyIn hidden .refresh .refresh

/-- The services have answered alike, up to the values of hidden properties. -/
structure ServicesAgree (hidden : List Signal) (v v' : Service) : Prop where
  store : ∀ key, Clear hidden key → v.store key = v'.store key
  sets : v.sets.length = v'.sets.length
  gets : v.gets = v'.gets
  setFault : v.setFault = v'.setFault
  getFault : v.getFault = v'.getFault

theorem ServicesAgree.refl (hidden : List Signal) (v : Service) : ServicesAgree hidden v v :=
  ⟨fun _ _ => rfl, rfl, rfl, rfl, rfl⟩

/-- One set call with values that may differ only if the key is hidden. -/
theorem ServicesAgree.set {hidden : List Signal} {v v' : Service}
    (h : ServicesAgree hidden v v') (key : Key) (values values' : List Int32)
    (hvalues : Clear hidden key → values = values') :
    ServicesAgree hidden (v.setValueSync key values).2 (v'.setValueSync key values').2 where
  store := by
    intro other hother
    -- both calls meet the same entry of the schedule
    have hfault : v.setFault v.sets.length = v'.setFault v'.sets.length := by
      rw [h.setFault, h.sets]
    simp only [Service.setValueSync, ← hfault]
    split
    · by_cases hkey : other = key
      · subst hkey
        simp [hvalues hother]
      · simp [Function.update_of_ne hkey, h.store other hother]
    · exact h.store other hother
  sets := by simp [Service.setValueSync, h.sets]
  gets := h.gets
  setFault := h.setFault
  getFault := h.getFault

/-- The twelve calls for two messages that differ only in hidden signals. -/
theorem ServicesAgree.setAll {hidden : List Signal} {v v' : Service}
    (h : ServicesAgree hidden v v') {s s' : PrimaryVehicleState} (hs : DifferOnlyIn hidden s s') :
    ServicesAgree hidden (v.setAll (statusRequests s)) (v'.setAll (statusRequests s')) := by
  refine List.rel_foldl (P := ServicesAgree hidden)
    (R := fun request request' => request.1 = request'.1 ∧
      (Clear hidden request.1 → request.2 = request'.2)) ?_ h ?_
  · rintro w w' hw ⟨key, values⟩ ⟨_, values'⟩ ⟨rfl, hvalues⟩
    exact hw.set key values values' hvalues
  · rw [statusRequests, statusRequests, List.forall₂_map_left_iff, List.forall₂_map_right_iff,
      List.forall₂_same]
    refine fun signal _ => ⟨rfl, fun hclear => ?_⟩
    rw [hs signal fun hmem => hclear signal hmem rfl]

theorem ServicesAgree.process {hidden : List Signal} {v v' : Service}
    (h : ServicesAgree hidden v v') (c : ClientPtr) {s s' : PrimaryVehicleState}
    (hs : DifferOnlyIn hidden s s') :
    ServicesAgree hidden (processPrimaryVehicleState c s v)
      (processPrimaryVehicleState c s' v') := by
  by_cases hc : c = 0
  · simpa [processPrimaryVehicleState, hc] using h
  · rw [process_eq_setAll c s v hc, process_eq_setAll c s' v' hc]
    exact h.setAll hs

/-! ## The dashboard -/

/-- Two states of a run: the services agree, and so do the indicators that depend
on no hidden signal. -/
structure StatesAgree (hidden : List Signal) (t t' : State) : Prop where
  vhal : ServicesAgree hidden t.vhal t'.vhal
  lighting : Clear hidden (PROP_HEADLIGHTS_STATE, 0) → Clear hidden (PROP_HIGH_BEAM_LIGHTS, 0) →
    t.views.lighting = t'.views.lighting
  batteryWarning : Clear hidden (PROP_BATTERY_WARNING, 0) →
    t.views.battery.batteryCharge = t'.views.battery.batteryCharge

theorem StatesAgree.refl (hidden : List Signal) (t : State) : StatesAgree hidden t t :=
  ⟨.refl hidden t.vhal, fun _ _ => rfl, fun _ => rfl⟩

theorem updateBatteryIndicator_batteryCharge (level : Int32) (warning : Bool) :
    (updateBatteryIndicator level warning).batteryCharge =
      if warning then .VISIBLE else .INVISIBLE := by
  unfold updateBatteryIndicator
  split_ifs <;> rfl

theorem StatesAgree.refresh {hidden : List Signal} {t t' : State} (h : StatesAgree hidden t t')
    (handles : Handles) :
    StatesAgree hidden (step handles t .refresh) (step handles t' .refresh) := by
  by_cases hptr : handles.clientPtr = 0
  · simpa only [step, hptr, updateVehicleData_null] using h
  · simp only [step, updateVehicleData_connected hptr]
    refine ⟨⟨h.vhal.store, h.vhal.sets, ?_, h.vhal.setFault, h.vhal.getFault⟩,
      fun hheadlights hhighBeam => ?_, fun hwarning => ?_⟩
    · simp [h.vhal.gets]
    · simp only [updateViews, dataOf, h.vhal.gets, h.vhal.getFault, h.vhal.store _ hheadlights,
        h.vhal.store _ hhighBeam]
    · simp only [updateViews, updateBatteryIndicator_batteryCharge, dataOf, h.vhal.gets,
        h.vhal.getFault, h.vhal.store _ hwarning]

theorem StatesAgree.run {hidden : List Signal} {t t' : State} (h : StatesAgree hidden t t')
    (handles : Handles) {steps steps' : List Step}
    (hsteps : List.Forall₂ (StepsDifferOnlyIn hidden) steps steps') :
    StatesAgree hidden (run handles steps t) (run handles steps' t') := by
  refine List.rel_foldl ?_ h hsteps
  rintro t t' ht next next' hnext
  cases hnext with
  | message hs => exact ⟨ht.vhal.process handles.vhalClient hs, ht.lighting, ht.batteryWarning⟩
  | refresh => exact ht.refresh handles

/-! ## The telemetry payload -/

theorem addReading_agree {hidden : List Signal} {v v' : Service} (h : ServicesAgree hidden v v')
    (ptr : ClientPtr) (reading : Reading) (payload payload' : JMap) (name : String)
    (hclear : PropMapping.getName reading.propId = name → Clear hidden (reading.propId, 0))
    (hpayload : payload.lookup name = payload'.lookup name) :
    (addReading ptr payload reading 0 v).1.lookup name =
      (addReading ptr payload' reading 0 v').1.lookup name ∧
    ServicesAgree hidden (addReading ptr payload reading 0 v).2
      (addReading ptr payload' reading 0 v').2 := by
  by_cases hptr : ptr = 0
  · subst hptr
    rw [addReading_null, addReading_null]
    exact ⟨hpayload, h⟩
  · rw [addReading_connected hptr, addReading_connected hptr]
    refine ⟨?_, h.store, h.sets, by simp [h.gets], h.setFault, h.getFault⟩
    by_cases hname : PropMapping.getName reading.propId = name
    · rw [← hname, JMap.lookup_put_self, JMap.lookup_put_self, h.gets, h.getFault,
        h.store _ (hclear hname)]
    · rw [JMap.lookup_put_of_ne _ _ _ _ (Ne.symm hname),
        JMap.lookup_put_of_ne _ _ _ _ (Ne.symm hname), hpayload]

theorem addReadings_agree {hidden : List Signal} (ptr : ClientPtr) (name : String)
    (readings : List Reading)
    (hclear : ∀ reading ∈ readings, PropMapping.getName reading.propId = name →
      Clear hidden (reading.propId, 0))
    {v v' : Service} (h : ServicesAgree hidden v v') (payload payload' : JMap)
    (hpayload : payload.lookup name = payload'.lookup name) :
    (addReadings ptr readings payload v).1.lookup name =
      (addReadings ptr readings payload' v').1.lookup name := by
  induction readings generalizing v v' payload payload' with
  | nil => exact hpayload
  | cons reading readings ih =>
      obtain ⟨hentry, hagree⟩ := addReading_agree h ptr reading payload payload' name
        (hclear reading List.mem_cons_self) hpayload
      exact ih (fun other hother => hclear other (List.mem_cons_of_mem reading hother)) hagree
        _ _ hentry

/-- An entry of the payload all of whose readings are clear of the hidden signals. -/
theorem sendTelemetry_agree {hidden : List Signal} {v v' : Service}
    (h : ServicesAgree hidden v v') (ptr : ClientPtr) (around : Surroundings) (name : String)
    (hclear : ∀ reading ∈ sweep, PropMapping.getName reading.propId = name →
      Clear hidden (reading.propId, 0)) :
    (sendTelemetry ptr around v).1.lookup name = (sendTelemetry ptr around v').1.lookup name :=
  addReadings_agree ptr name sweep hclear h _ _ rfl

/-- An entry of the payload that the telemetry service would send from a state. -/
def payloadEntry (ptr : ClientPtr) (around : Surroundings) (name : String) (t : State) :
    Option JObject :=
  (sendTelemetry ptr around t.vhal).1.lookup name

theorem payloadEntry_agree {hidden : List Signal} {t t' : State} (h : StatesAgree hidden t t')
    (ptr : ClientPtr) (around : Surroundings) (reading : Reading) (hmem : reading ∈ sweep)
    (hclear : Clear hidden (reading.propId, 0)) :
    payloadEntry ptr around (PropMapping.getName reading.propId) t =
      payloadEntry ptr around (PropMapping.getName reading.propId) t' := by
  refine sendTelemetry_agree h.vhal ptr around _ fun other hother hname => ?_
  -- no other reading of the sweep has this name
  rw [List.inj_on_of_nodup_map sweep_names_nodup hother hmem hname]
  exact hclear

/-! ## The four signals -/

/-- **Which readers a signal stays away from.**  In two runs from the same state, with
the same steps up to hidden signals:

* the headlight and brake-warning entries of the payload are the same when any of
  the turn signals, the hazard lights and the air conditioning are hidden;
* the headlight indicator and the high-beam entry are the same when all but the
  left turn signal are;
* the battery warning and the low-battery entry are the same when all but the
  hazard lights are. -/
theorem run_observations (handles : Handles) (t : State) (ptr : ClientPtr)
    (around : Surroundings) (steps steps' : List Step) :
    let final := run handles steps t
    let final' := run handles steps' t
    let entry := payloadEntry ptr around
    (List.Forall₂ (StepsDifferOnlyIn [.turnLeft, .turnRight, .hazard, .ac]) steps steps' →
      entry "veos_headlights_state" final = entry "veos_headlights_state" final' ∧
      entry "veos_brake_system_warning" final = entry "veos_brake_system_warning" final') ∧
    (List.Forall₂ (StepsDifferOnlyIn [.turnRight, .hazard, .ac]) steps steps' →
      final.views.lighting = final'.views.lighting ∧
      entry "veos_high_beam_lights_state" final = entry "veos_high_beam_lights_state" final') ∧
    (List.Forall₂ (StepsDifferOnlyIn [.turnLeft, .turnRight, .ac]) steps steps' →
      final.views.battery.batteryCharge = final'.views.battery.batteryCharge ∧
      entry "veos_ev_low_battery_warning" final =
        entry "veos_ev_low_battery_warning" final') := by
  intro final final' entry
  refine ⟨fun hsteps => ?_, fun hsteps => ?_, fun hsteps => ?_⟩
  · have hagree := (StatesAgree.refl _ t).run handles hsteps
    exact ⟨payloadEntry_agree hagree ptr around (.bool 555749214) (by decide) (by decide),
      payloadEntry_agree hagree ptr around (.bool 555749220) (by decide) (by decide)⟩
  · have hagree := (StatesAgree.refl _ t).run handles hsteps
    exact ⟨hagree.lighting (by decide) (by decide),
      payloadEntry_agree hagree ptr around (.bool 555749215) (by decide) (by decide)⟩
  · have hagree := (StatesAgree.refl _ t).run handles hsteps
    exact ⟨hagree.batteryWarning (by decide),
      payloadEntry_agree hagree ptr around (.bool 555749217) (by decide) (by decide)⟩

/-- Whether an entry of the payload is there and true. -/
def isTrue : Option JObject → Bool
  | some (.boolean b) => b
  | _ => false

/-- The left turn signal reaches the headlight indicator and the high-beam entry, and
the hazard lights reach the battery warning and the low-battery entry. -/
theorem signals_reach_readers :
    let start : State := { views := .initial, vhal := .fresh fun _ => [] }
    let after (s : PrimaryVehicleState) := run ⟨1, 2⟩ [.message s, .refresh] start
    let entry (name : String) (t : State) := payloadEntry 3 ⟨0, none⟩ name t
    DifferOnlyIn [.turnLeft, .turnRight, .hazard, .ac] {} { turnSignalLeft := true } ∧
    (after {}).views.lighting ≠ (after { turnSignalLeft := true }).views.lighting ∧
    entry "veos_high_beam_lights_state" (after {}) ≠
      entry "veos_high_beam_lights_state" (after { turnSignalLeft := true }) ∧
    DifferOnlyIn [.turnLeft, .turnRight, .hazard, .ac] {} { hazardLightsOn := true } ∧
    (after {}).views.battery.batteryCharge ≠
      (after { hazardLightsOn := true }).views.battery.batteryCharge ∧
    entry "veos_ev_low_battery_warning" (after {}) ≠
      entry "veos_ev_low_battery_warning" (after { hazardLightsOn := true }) := by
  refine ⟨?_, by decide, fun hsame => ?_, ?_, by decide, fun hsame => ?_⟩
  · intro signal _
    cases signal <;> first | rfl | contradiction
  · exact absurd (congrArg isTrue hsame) (by decide)
  · intro signal _
    cases signal <;> first | rfl | contradiction
  · exact absurd (congrArg isTrue hsame) (by decide)

end Vehicle
end Veos
