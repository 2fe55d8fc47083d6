import Veos.Someip.SecureChannel
import Veos.Vhal.Shim

/-!
# `ProtobufDataHandler`: from vehicle messages to VHAL properties

The SOME/IP client decrypts and parses each Status event and writes the state's
fields to twelve VHAL properties, one set call each, discarding the results.

`Signal` names the twelve properties together with the field each one carries.
The handler's twelve calls are this table in order (`process_eq_setAll`), and the
twelve ids are pairwise distinct, which is why a failed write is confined to its
own property.
-/

namespace Veos
namespace Someip

open Vhal Base128

/-! ## Property ids -/

def VEOS_GEAR_SELECTION : PropId := 557846352
def VEOS_PERF_VEHICLE_SPEED : PropId := 557846353
def VEOS_EV_BATTERY_LEVEL : PropId := 557846354
def VEOS_EV_BATTERY_TEMP : PropId := 557846355
def VEOS_EV_CHARGING_STATE : PropId := 557846357
def VEOS_CABIN_TEMP : PropId := 557846364
def VEOS_HEADLIGHTS_STATE : PropId := 555749214
def VEOS_LAST_UPDATE_TIMESTAMP : PropId := 557846374
def VEOS_TURN_SIGNAL_LEFT_STATE : PropId := 555749215
def VEOS_TURN_SIGNAL_RIGHT_STATE : PropId := 555749216
def VEOS_HAZARD_LIGHTS_STATE : PropId := 555749217
def VEOS_AC_STATE : PropId := 555749218

/-! ## The handler -/

/-- The implicit conversion of a C++ `bool` to `int`. -/
def boolToInt (b : Bool) : Int32 := if b then 1 else 0

/-- `ProtobufDataHandler::processPrimaryVehicleState`. -/
def processPrimaryVehicleState (vhalClient : ClientPtr) (state : PrimaryVehicleState)
    (v : Service) : Service :=
  if vhalClient = 0 then v
  else
    let v := (vhalSetInt32 vhalClient VEOS_GEAR_SELECTION 0 state.currentGear v).2
    let v := (vhalSetInt32 vhalClient VEOS_PERF_VEHICLE_SPEED 0 state.speedKmh.toInt32 v).2
    let v := (vhalSetInt32 vhalClient VEOS_EV_BATTERY_LEVEL 0 state.batteryLevel.toInt32 v).2
    -- the source's placeholder: the state has no battery temperature
    let v := (vhalSetInt32 vhalClient VEOS_EV_BATTERY_TEMP 0 state.engineTempC v).2
    let v := (vhalSetBool vhalClient VEOS_EV_CHARGING_STATE 0 (boolToInt state.isCharging) v).2
    let v := (vhalSetInt32 vhalClient VEOS_CABIN_TEMP 0 state.cabinTempC v).2
    -- automatic lights count as off
    let v := (vhalSetBool vhalClient VEOS_HEADLIGHTS_STATE 0
      (boolToInt (state.exteriorLightsStatus = LIGHTS_ON)) v).2
    let v := (vhalSetInt32 vhalClient VEOS_LAST_UPDATE_TIMESTAMP 0 state.timestampMs.toInt32 v).2
    -- the last four ids are those of other properties, reused on request
    let v := (vhalSetBool vhalClient VEOS_TURN_SIGNAL_LEFT_STATE 0
      (boolToInt state.turnSignalLeft) v).2
    let v := (vhalSetBool vhalClient VEOS_TURN_SIGNAL_RIGHT_STATE 0
      (boolToInt state.turnSignalRight) v).2
    let v := (vhalSetBool vhalClient VEOS_HAZARD_LIGHTS_STATE 0
      (boolToInt state.hazardLightsOn) v).2
    (vhalSetBool vhalClient VEOS_AC_STATE 0 (boolToInt state.acOn) v).2

/-- The `try` block of the Status callback up to the handler call. -/
def decodeStatus (p : Platform) (buffer : Bytes) : Except RuntimeError PrimaryVehicleState :=
  decryptByteBufferRSA p buffer >>= fromByteBuffer

/-- The Status event callback that `main` registers. -/
def statusCallback (p : Platform) (vhalClient : ClientPtr) (buffer : Bytes) (v : Service) :
    Service :=
  match decodeStatus p buffer with
  | .ok state => processPrimaryVehicleState vhalClient state v
  | .error _ => v

/-- A sequence of Status events. -/
def runStatus (p : Platform) (vhalClient : ClientPtr) (events : List Bytes) (v : Service) :
    Service :=
  events.foldl (fun v buffer => statusCallback p vhalClient buffer v) v

/-! ## The twelve signals -/

/-- The quantities that the handler publishes, in the order of its calls. -/
inductive Signal
  | gear | speed | batteryLevel | batteryTemp | charging | cabinTemp
  | headlights | timestamp | turnLeft | turnRight | hazard | ac
  deriving DecidableEq, Repr

namespace Signal

/-- The property a signal is written to. -/
def propId : Signal → PropId
  | .gear => VEOS_GEAR_SELECTION
  | .speed => VEOS_PERF_VEHICLE_SPEED
  | .batteryLevel => VEOS_EV_BATTERY_LEVEL
  | .batteryTemp => VEOS_EV_BATTERY_TEMP
  | .charging => VEOS_EV_CHARGING_STATE
  | .cabinTemp => VEOS_CABIN_TEMP
  | .headlights => VEOS_HEADLIGHTS_STATE
  | .timestamp => VEOS_LAST_UPDATE_TIMESTAMP
  | .turnLeft => VEOS_TURN_SIGNAL_LEFT_STATE
  | .turnRight => VEOS_TURN_SIGNAL_RIGHT_STATE
  | .hazard => VEOS_HAZARD_LIGHTS_STATE
  | .ac => VEOS_AC_STATE

/-- The field of the message that a signal carries. -/
def field (s : PrimaryVehicleState) : Signal → Int32
  | .gear => s.currentGear
  | .speed => s.speedKmh.toInt32
  | .batteryLevel => s.batteryLevel.toInt32
  | .batteryTemp => s.engineTempC
  | .charging => boolToInt s.isCharging
  | .cabinTemp => s.cabinTempC
  | .headlights => boolToInt (s.exteriorLightsStatus = LIGHTS_ON)
  | .timestamp => s.timestampMs.toInt32
  | .turnLeft => boolToInt s.turnSignalLeft
  | .turnRight => boolToInt s.turnSignalRight
  | .hazard => boolToInt s.hazardLightsOn
  | .ac => boolToInt s.acOn

/-- Every property lives in the global area. -/
def key (signal : Signal) : Key := (signal.propId, 0)

/-- All signals, in the order of the handler's calls. -/
def all : List Signal :=
  [.gear, .speed, .batteryLevel, .batteryTemp, .charging, .cabinTemp, .headlights, .timestamp,
    .turnLeft, .turnRight, .hazard, .ac]

theorem mem_all (signal : Signal) : signal ∈ all := by
  cases signal <;> decide

theorem key_nodup : (all.map key).Nodup := by
  decide

theorem key_injective : Function.Injective key := by
  intro a b hkey
  exact List.inj_on_of_nodup_map key_nodup (mem_all a) (mem_all b) hkey

end Signal

/-- The set requests that handling a message makes. -/
def statusRequests (s : PrimaryVehicleState) : List (Key × List Int32) :=
  Signal.all.map fun signal => (signal.key, [signal.field s])

/-- The requests of a message set twelve different keys. -/
theorem statusRequests_keys_nodup (s : PrimaryVehicleState) :
    ((statusRequests s).map Prod.fst).Nodup := by
  have hkeys : (statusRequests s).map Prod.fst = Signal.all.map Signal.key := by
    simp [statusRequests, Function.comp_def]
  rw [hkeys]
  exact Signal.key_nodup

theorem vhalSetInt32_snd (c : ClientPtr) (propId : PropId) (areaId : AreaId) (value : Int32)
    (v : Service) (hc : c ≠ 0) :
    (vhalSetInt32 c propId areaId value v).2 = (v.setValueSync (propId, areaId) [value]).2 := by
  rw [vhalSetInt32, setOne_connected hc]

theorem vhalSetBool_snd (c : ClientPtr) (propId : PropId) (areaId : AreaId) (b : Bool)
    (v : Service) (hc : c ≠ 0) :
    (vhalSetBool c propId areaId (boolToInt b) v).2 =
      (v.setValueSync (propId, areaId) [boolToInt b]).2 := by
  have hvalue : (if boolToInt b ≠ 0 then (1 : Int32) else 0) = boolToInt b := by
    cases b <;> rfl
  rw [vhalSetBool, hvalue]
  exact vhalSetInt32_snd c propId areaId (boolToInt b) v hc

/-- A connected handler makes exactly the twelve requests of the table. -/
theorem process_eq_setAll (c : ClientPtr) (s : PrimaryVehicleState) (v : Service) (hc : c ≠ 0) :
    processPrimaryVehicleState c s v = v.setAll (statusRequests s) := by
  simp only [processPrimaryVehicleState, hc, if_false, vhalSetInt32_snd c _ _ _ _ hc,
    vhalSetBool_snd c _ _ _ _ hc]
  rfl

/-- The set calls that handling a message adds to the trace. -/
def statusCalls (c : ClientPtr) (s : PrimaryVehicleState) (v : Service) : List SetCall :=
  if c = 0 then [] else v.answers (statusRequests s)

theorem process_extends (c : ClientPtr) (s : PrimaryVehicleState) (v : Service) :
    Extends v (statusCalls c s v) (processPrimaryVehicleState c s v) := by
  by_cases hc : c = 0
  · simpa [statusCalls, processPrimaryVehicleState, hc] using Extends.refl v
  · rw [process_eq_setAll c s v hc, statusCalls, if_neg hc]
    exact v.setAll_extends (statusRequests s)

end Someip
end Veos
