import Mathlib.Data.List.Nodup
import Veos.Vhal.Native

/-!
# The telemetry service

`TelemetryService` sends one sweep of VHAL readings to the server when it starts,
and then polls the server for a reading whose values it applies to the VHAL.

`applyControls` treats five controls in a fixed order inside one `try` block.
Each block compares the requested number with the value the instance cached at
its last write, writes the property when they differ, and then updates the cache.
An exception of any block ends the call.
-/

namespace Veos
namespace Telemetry

open Java Vhal

/-! ## `PropMapping` -/

namespace PropMapping

/-- The static table. -/
def table : List (PropId × String) :=
  [(557846352, "veos_gear_selection"),
   (557846353, "veos_perf_vehicle_speed"),
   (557846354, "veos_ev_battery_level"),
   (557846355, "veos_ev_battery_temp"),
   (557846357, "veos_ev_charging_state"),
   (557846358, "veos_ev_charge_time_remaining"),
   (557846360, "veos_perf_odometer"),
   (557846362, "veos_trip_distance"),
   (557846363, "veos_trip_duration"),
   (555749214, "veos_headlights_state"),
   (555749215, "veos_high_beam_lights_state"),
   (555749217, "veos_ev_low_battery_warning"),
   (555749220, "veos_brake_system_warning"),
   (555749221, "veos_vehicle_ready_state"),
   (557846374, "veos_last_update_timestamp"),
   (557846375, "veos_ev_instant_efficiency"),
   (557846376, "veos_ev_avg_efficiency")]

/-- `PropMapping.getName`: an id outside the table is its own decimal name. -/
def getName (propId : PropId) : String :=
  (table.lookup propId).getD (toString propId)

end PropMapping

/-! ## Sending telemetry -/

/-- One `addInt` or `addBool` line of `sendTelemetry`. -/
inductive Reading
  | int (propId : PropId)
  | bool (propId : PropId)
  deriving DecidableEq, Repr

def Reading.propId : Reading → PropId
  | .int propId => propId
  | .bool propId => propId

/-- `addInt` and `addBool`: an exception of the read is logged and leaves the
payload as it is. -/
def addReading (clientPtr : ClientPtr) (payload : JMap) (reading : Reading) (areaId : AreaId)
    (v : Service) : JMap × Service :=
  match reading with
  | .int propId =>
      match VhalNative.getInt32 clientPtr propId areaId v with
      | (.ok value, v) =>
          (payload.put (PropMapping.getName propId) (.number (.integer value)), v)
      | (.error _, v) => (payload, v)
  | .bool propId =>
      match VhalNative.getBool clientPtr propId areaId v with
      | (.ok value, v) => (payload.put (PropMapping.getName propId) (.boolean value), v)
      | (.error _, v) => (payload, v)

/-- The object that a reading puts into the payload. -/
def Reading.answer (fault : Option ReadFault) (values : List Int32) : Reading → JObject
  | .int _ => .number (.integer (VhalNative.int32Answer fault values))
  | .bool _ => .boolean (VhalNative.boolAnswer fault values)

/-- With a handle every reading makes its entry. -/
theorem addReading_connected {clientPtr : ClientPtr} (hptr : clientPtr ≠ 0) (payload : JMap)
    (reading : Reading) (areaId : AreaId) (v : Service) :
    addReading clientPtr payload reading areaId v =
      (payload.put (PropMapping.getName reading.propId)
        (reading.answer (v.getFault v.gets) (v.store (reading.propId, areaId))),
      { v with gets := v.gets + 1 }) := by
  cases reading with
  | int propId => simp only [addReading, VhalNative.getInt32_connected hptr]; rfl
  | bool propId => simp only [addReading, VhalNative.getBool_connected hptr]; rfl

theorem addReading_null (payload : JMap) (reading : Reading) (areaId : AreaId) (v : Service) :
    addReading 0 payload reading areaId v = (payload, v) := by
  cases reading with
  | int propId => simp only [addReading, VhalNative.getInt32_null]
  | bool propId => simp only [addReading, VhalNative.getBool_null]

/-- The readings of `sendTelemetry`, in order. -/
def sweep : List Reading :=
  [.int 557846352, .int 557846353, .int 557846354, .int 557846355, .int 557846357,
   .int 557846358, .int 557846360, .int 557846362, .int 557846363, .bool 555749214,
   .bool 555749215, .bool 555749217, .bool 555749220, .bool 555749221, .int 557846374]

/-- Every reading of the sweep has an entry of its own. -/
theorem sweep_names_nodup :
    (sweep.map fun reading => PropMapping.getName reading.propId).Nodup := by
  decide

def addReadings (clientPtr : ClientPtr) : List Reading → JMap → Service → JMap × Service
  | [], payload, v => (payload, v)
  | reading :: readings, payload, v =>
      let (payload, v) := addReading clientPtr payload reading 0 v
      addReadings clientPtr readings payload v

/-- What `sendTelemetry` draws from outside: the clock, and the last known
location if the location manager returns one. -/
structure Surroundings where
  currentTimeMillis : Int64
  location : Option (JavaDouble × JavaDouble)

/-- `addLocation`. -/
def addLocation (around : Surroundings) (payload : JMap) : JMap :=
  match around.location with
  -- no provider knows a location: the payload has no coordinates
  | none => payload
  | some (latitude, longitude) =>
      (payload.put "latitude" (.number (.double latitude))).put "longitude"
        (.number (.double longitude))

/-- The payload that `sendTelemetry` posts. -/
def sendTelemetry (clientPtr : ClientPtr) (around : Surroundings) (v : Service) :
    JMap × Service :=
  let payload : JMap := []
  let payload := payload.put "vehicle_id" (.string "rpi5-001")
  let payload := payload.put "timestamp" (.number (.long around.currentTimeMillis))
  addReadings clientPtr sweep (addLocation around payload) v

/-! ## Applying controls -/

/-- The private fields that remember the last applied values. -/
structure Caches where
  currentSpeed : Int32 := 0
  currentDistance : Int32 := 0
  currentDuration : Int32 := 0
  currentBattery : Int32 := 100
  currentTemp : Int32 := 22
  deriving DecidableEq, Repr

/-- The five blocks of `applyControls`. -/
inductive Control
  | speed | distance | duration | battery | temp
  deriving DecidableEq, Repr

namespace Control

/-- The blocks in the order of the source. -/
def all : List Control := [.speed, .distance, .duration, .battery, .temp]

/-- The key a block looks up. -/
def name : Control → String
  | .speed => "veos_perf_vehicle_speed"
  | .distance => "veos_trip_distance"
  | .duration => "veos_trip_duration"
  | .battery => "veos_ev_battery_level"
  | .temp => "veos_cabin_temp"

/-- The property a block writes. -/
def propId : Control → PropId
  | .speed => 557846375
  | .distance => 557846362
  | .duration => 557846363
  | .battery => 557846354
  | .temp => 557846376

def key (c : Control) : Key := (c.propId, 0)

theorem mem_all (c : Control) : c ∈ all := by
  cases c <;> decide

theorem all_nodup : all.Nodup := by
  decide

theorem key_injective : Function.Injective key := by
  intro a b hkey
  have hnodup : (all.map key).Nodup := by decide
  exact List.inj_on_of_nodup_map hnodup (mem_all a) (mem_all b) hkey

end Control

namespace Caches

/-- The field a block compares with. -/
def get (caches : Caches) : Control → Int32
  | .speed => caches.currentSpeed
  | .distance => caches.currentDistance
  | .duration => caches.currentDuration
  | .battery => caches.currentBattery
  | .temp => caches.currentTemp

/-- The assignment at the end of a block. -/
def set (caches : Caches) (c : Control) (value : Int32) : Caches :=
  match c with
  | .speed => { caches with currentSpeed := value }
  | .distance => { caches with currentDistance := value }
  | .duration => { caches with currentDuration := value }
  | .battery => { caches with currentBattery := value }
  | .temp => { caches with currentTemp := value }

@[simp] theorem get_set_self (caches : Caches) (c : Control) (value : Int32) :
    (caches.set c value).get c = value := by
  cases c <;> rfl

theorem get_set_of_ne (caches : Caches) (c other : Control) (value : Int32) (hne : other ≠ c) :
    (caches.set c value).get other = caches.get other := by
  cases c <;> cases other <;> first | rfl | exact absurd rfl hne

theorem ext_get {caches caches' : Caches} (h : ∀ c, caches.get c = caches'.get c) :
    caches = caches' := by
  cases caches
  cases caches'
  simp only [mk.injEq]
  exact ⟨h .speed, h .distance, h .duration, h .battery, h .temp⟩

end Caches

/-- What a call of `applyControls` works on: the fields of the instance and the
VHAL. -/
structure ServiceState where
  caches : Caches
  vhal : Service

/-- One `if` block of `applyControls`, with the exception that leaves it.  A null
map fails at `containsKey`. -/
def applyControl (clientPtr : ClientPtr) (controls : Option JMap) (c : Control)
    (t : ServiceState) : Except JavaException Unit × ServiceState :=
  match controls with
  | none => (.error .nullPointerException, t)
  | some controls =>
      if controls.containsKey c.name then
        match numberIntValue (controls.get c.name) with
        | .error e => (.error e, t)
        | .ok newValue =>
            if newValue ≠ t.caches.get c then
              match VhalNative.setInt32 clientPtr c.propId 0 newValue t.vhal with
              | (.error e, vhal) => (.error e, { t with vhal := vhal })
              -- the cache is assigned only after the write has returned
              | (.ok _, vhal) => (.ok (), { caches := t.caches.set c newValue, vhal := vhal })
            else (.ok (), t)
      else (.ok (), t)

/-- The blocks one after the other, up to the first exception. -/
def applyBlocks (clientPtr : ClientPtr) (controls : Option JMap) :
    List Control → ServiceState → Except JavaException Unit × ServiceState
  | [], t => (.ok (), t)
  | c :: cs, t =>
      match applyControl clientPtr controls c t with
      | (.error e, t) => (.error e, t)
      | (.ok _, t) => applyBlocks clientPtr controls cs t

/-- `applyControls`: the exception caught and logged, if any, and the new state. -/
def applyControls (clientPtr : ClientPtr) (controls : Option JMap) (t : ServiceState) :
    Option JavaException × ServiceState :=
  match applyBlocks clientPtr controls Control.all t with
  | (.error e, t) => (some e, t)
  | (.ok _, t) => (none, t)

/-! ## Receiving a reading -/

/-- A `retrofit2.Response`. -/
structure Response where
  code : Nat
  body : Option JMap

/-- `Response.isSuccessful`. -/
def Response.isSuccessful (response : Response) : Bool :=
  200 ≤ response.code ∧ response.code < 300

/-- The `onResponse` callback of `fetchControls`, with the exception that escapes
from it.  The casts of `results` and of its first element let `null` through. -/
def onResponse (clientPtr : ClientPtr) (response : Response) (t : ServiceState) :
    Except JavaException Unit × ServiceState :=
  if response.isSuccessful then
    match response.body with
    | none => (.ok (), t)
    | some responseData =>
        match responseData.get "results" with
        -- `null` and the empty list are logged as no readings
        | .null => (.ok (), t)
        | .list [] => (.ok (), t)
        | .list (.null :: _) => (.ok (), (applyControls clientPtr none t).2)
        | .list (.map latestReading :: _) =>
            (.ok (), (applyControls clientPtr (some latestReading) t).2)
        | _ => (.error .classCastException, t)
  else (.ok (), t)

end Telemetry
end Veos
