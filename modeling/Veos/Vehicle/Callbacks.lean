import Veos.Dashboard.Lifecycle
import Veos.Someip.DataHandler
import Veos.Telemetry.Lifecycle
import Veos.Tool.VehicleTool
import Veos.Vhal.Programs

/-!
# The callbacks, call by call

What the SOME/IP client does with a Status event, the telemetry service when it is created
and when a response arrives, the dashboard in a refresh and the tool in an invocation, as
programs over the VHAL.  Left alone, each of them is the function of the same name; between
two of its calls other processes may make theirs.
-/

namespace Veos
namespace Vehicle
namespace Callback

open Java Vhal Someip Telemetry Dashboard Tool CallPrograms

/-! ## The SOME/IP client -/

/-- `ProtobufDataHandler::processPrimaryVehicleState`. -/
def processPrimaryVehicleState (vhalClient : ClientPtr) (state : PrimaryVehicleState) :
    VhalProgram Unit :=
  if vhalClient = 0 then .ret () else .setAll (statusRequests state)

/-- The Status event callback. -/
def statusCallback (p : Platform) (vhalClient : ClientPtr) (buffer : List UInt8) :
    VhalProgram Unit :=
  match decodeStatus p buffer with
  | .ok state => processPrimaryVehicleState vhalClient state
  | .error _ => .ret ()

theorem alone_statusCallback (p : Platform) (c : ClientPtr) (buffer : List UInt8) (v : Service) :
    (statusCallback p c buffer).alone v = ((), Someip.statusCallback p c buffer v) := by
  unfold statusCallback Someip.statusCallback
  cases decodeStatus p buffer with
  | error e => rfl
  | ok state =>
      by_cases hc : c = 0
      · subst hc
        rfl
      · simp only [processPrimaryVehicleState, if_neg hc, VhalProgram.alone_setAll,
          process_eq_setAll c state v hc]

/-! ## The telemetry service -/

/-- `addInt` and `addBool`. -/
def addReading (clientPtr : ClientPtr) (payload : JMap) (reading : Reading) (areaId : AreaId) :
    VhalProgram JMap :=
  match reading with
  | .int propId => do
      match ← VhalProgram.getInt32 clientPtr propId areaId with
      | .ok value => return payload.put (PropMapping.getName propId) (.number (.integer value))
      | .error _ => return payload
  | .bool propId => do
      match ← VhalProgram.getBool clientPtr propId areaId with
      | .ok value => return payload.put (PropMapping.getName propId) (.boolean value)
      | .error _ => return payload

def addReadings (clientPtr : ClientPtr) : List Reading → JMap → VhalProgram JMap
  | [], payload => return payload
  | reading :: readings, payload => do
      let payload ← addReading clientPtr payload reading 0
      addReadings clientPtr readings payload

/-- `sendTelemetry`: the payload that it posts. -/
def sendTelemetry (clientPtr : ClientPtr) (around : Surroundings) : VhalProgram JMap :=
  let payload : JMap := []
  let payload := payload.put "vehicle_id" (.string "rpi5-001")
  let payload := payload.put "timestamp" (.number (.long around.currentTimeMillis))
  addReadings clientPtr sweep (addLocation around payload)

/-- One block of `applyControls`: the exception that leaves it, and the caches. -/
def applyControl (clientPtr : ClientPtr) (controls : Option JMap) (c : Control) (caches : Caches) :
    VhalProgram (Except JavaException Unit × Caches) :=
  match controls with
  | none => return (.error .nullPointerException, caches)
  | some controls =>
      if controls.containsKey c.name then
        match numberIntValue (controls.get c.name) with
        | .error e => return (.error e, caches)
        | .ok newValue =>
            if newValue ≠ caches.get c then do
              match ← VhalProgram.setInt32 clientPtr c.propId 0 newValue with
              | .error e => return (.error e, caches)
              | .ok _ => return (.ok (), caches.set c newValue)
            else return (.ok (), caches)
      else return (.ok (), caches)

def applyBlocks (clientPtr : ClientPtr) (controls : Option JMap) :
    List Control → Caches → VhalProgram (Except JavaException Unit × Caches)
  | [], caches => return (.ok (), caches)
  | c :: cs, caches => do
      match ← applyControl clientPtr controls c caches with
      | (.error e, caches) => return (.error e, caches)
      | (.ok _, caches) => applyBlocks clientPtr controls cs caches

/-- `applyControls`, which catches what its blocks throw. -/
def applyControls (clientPtr : ClientPtr) (controls : Option JMap) (caches : Caches) :
    VhalProgram Caches := do
  let (_, caches) ← applyBlocks clientPtr controls Control.all caches
  return caches

/-- `onResponse`: the exception that escapes from it, and the caches. -/
def onResponse (clientPtr : ClientPtr) (response : Response) (caches : Caches) :
    VhalProgram (Except JavaException Unit × Caches) :=
  if response.isSuccessful then
    match response.body with
    | none => return (.ok (), caches)
    | some responseData =>
        match responseData.get "results" with
        | .null => return (.ok (), caches)
        | .list [] => return (.ok (), caches)
        | .list (.null :: _) => do
            let caches ← applyControls clientPtr none caches
            return (.ok (), caches)
        | .list (.map latestReading :: _) => do
            let caches ← applyControls clientPtr (some latestReading) caches
            return (.ok (), caches)
        | _ => return (.error .classCastException, caches)
  else return (.ok (), caches)

theorem alone_addReading (clientPtr : ClientPtr) (payload : JMap) (reading : Reading)
    (areaId : AreaId) (v : Service) :
    (addReading clientPtr payload reading areaId).alone v =
      Telemetry.addReading clientPtr payload reading areaId v := by
  cases reading with
  | int propId =>
      simp only [addReading, Telemetry.addReading, VhalProgram.alone_bind,
        VhalProgram.alone_getInt32]
      rcases VhalNative.getInt32 clientPtr propId areaId v with ⟨_ | _, v'⟩ <;> rfl
  | bool propId =>
      simp only [addReading, Telemetry.addReading, VhalProgram.alone_bind,
        VhalProgram.alone_getBool]
      rcases VhalNative.getBool clientPtr propId areaId v with ⟨_ | _, v'⟩ <;> rfl

theorem alone_addReadings (clientPtr : ClientPtr) (readings : List Reading) (payload : JMap)
    (v : Service) :
    (addReadings clientPtr readings payload).alone v =
      Telemetry.addReadings clientPtr readings payload v := by
  induction readings generalizing payload v with
  | nil => rfl
  | cons reading readings ih =>
      simp only [addReadings, Telemetry.addReadings, VhalProgram.alone_bind, alone_addReading, ih]

theorem alone_sendTelemetry (clientPtr : ClientPtr) (around : Surroundings) (v : Service) :
    (sendTelemetry clientPtr around).alone v = Telemetry.sendTelemetry clientPtr around v :=
  alone_addReadings clientPtr sweep _ v

/-- What a function on the caches and the VHAL returns, with the caches. -/
def returned {α : Type} (r : α × ServiceState) : (α × Caches) × Service :=
  ((r.1, r.2.caches), r.2.vhal)

theorem alone_applyControl (clientPtr : ClientPtr) (controls : Option JMap) (c : Control)
    (caches : Caches) (v : Service) :
    (applyControl clientPtr controls c caches).alone v =
      returned (Telemetry.applyControl clientPtr controls c ⟨caches, v⟩) := by
  unfold applyControl Telemetry.applyControl
  cases controls with
  | none => rfl
  | some controls =>
      cases hkey : controls.containsKey c.name with
      | false => simp [hkey, returned]
      | true =>
          cases hvalue : numberIntValue (controls.get c.name) with
          | error e => simp [hkey, hvalue, returned]
          | ok newValue =>
              by_cases hnew : newValue = caches.get c
              · simp [hkey, hvalue, hnew, returned]
              · simp only [hkey, hvalue, hnew, ne_eq, not_false_eq_true, if_true,
                  VhalProgram.alone_bind, VhalProgram.alone_setInt32]
                rcases VhalNative.setInt32 clientPtr c.propId 0 newValue v with ⟨_ | _, v'⟩ <;> rfl

theorem alone_applyBlocks (clientPtr : ClientPtr) (controls : Option JMap) (cs : List Control)
    (caches : Caches) (v : Service) :
    (applyBlocks clientPtr controls cs caches).alone v =
      returned (Telemetry.applyBlocks clientPtr controls cs ⟨caches, v⟩) := by
  induction cs generalizing caches v with
  | nil => rfl
  | cons c cs ih =>
      simp only [applyBlocks, Telemetry.applyBlocks, VhalProgram.alone_bind, alone_applyControl]
      rcases Telemetry.applyControl clientPtr controls c ⟨caches, v⟩ with ⟨_ | _, t⟩
      · rfl
      · exact ih t.caches t.vhal

theorem alone_applyControls (clientPtr : ClientPtr) (controls : Option JMap) (caches : Caches)
    (v : Service) :
    (applyControls clientPtr controls caches).alone v =
      ((Telemetry.applyControls clientPtr controls ⟨caches, v⟩).2.caches,
        (Telemetry.applyControls clientPtr controls ⟨caches, v⟩).2.vhal) := by
  rw [applyControls, VhalProgram.alone_bind, alone_applyBlocks, applyControls_snd]
  rfl

theorem alone_onResponse (clientPtr : ClientPtr) (response : Response) (caches : Caches)
    (v : Service) :
    (onResponse clientPtr response caches).alone v =
      returned (Telemetry.onResponse clientPtr response ⟨caches, v⟩) := by
  unfold onResponse Telemetry.onResponse
  cases response.isSuccessful with
  | false => rfl
  | true =>
      cases response.body with
      | none => rfl
      | some responseData =>
          simp only [if_true]
          generalize responseData.get "results" = results
          cases results with
          | list readings =>
              cases readings with
              | nil => rfl
              | cons latest others => cases latest <;> simp [alone_applyControls, returned]
          | _ => rfl

/-! ## The dashboard -/

/-- The reads of `updateVehicleData`. -/
def readVehicleData (clientPtr : ClientPtr) : ExceptT JavaException VhalProgram VehicleData := do
  let speed ← ExceptT.mk (VhalProgram.getInt32 clientPtr PROP_VEHICLE_SPEED 0)
  let batteryLevel ← ExceptT.mk (VhalProgram.getInt32 clientPtr PROP_BATTERY_LEVEL 0)
  let headlightsOn ← ExceptT.mk (VhalProgram.getBool clientPtr PROP_HEADLIGHTS_STATE 0)
  let highBeamOn ← ExceptT.mk (VhalProgram.getBool clientPtr PROP_HIGH_BEAM_LIGHTS 0)
  let batteryWarning ← ExceptT.mk (VhalProgram.getBool clientPtr PROP_BATTERY_WARNING 0)
  let tireWarning ← ExceptT.mk (VhalProgram.getBool clientPtr PROP_TPMS_WARNING 0)
  let gearPosition ← ExceptT.mk (VhalProgram.getInt32 clientPtr PROP_GEAR_SELECTION 0)
  return { speed, batteryLevel, headlightsOn, highBeamOn, batteryWarning, tireWarning,
           gearPosition }

/-- `updateVehicleData`: the exception logged if any, and the new views. -/
def updateVehicleData (clientPtr : ClientPtr) (views : Views) :
    VhalProgram (Option JavaException × Views) := do
  match ← (readVehicleData clientPtr).run with
  | .error e => return (some e, views)
  | .ok data => return (none, updateViews data views)

/-- A program with exceptions and the function it is when left alone. -/
def Performs {α : Type} (x : ExceptT JavaException VhalProgram α) (x' : VhalM α) : Prop :=
  ∀ v, x.run.alone v = x' v

theorem Performs.bind {α β : Type} {x : ExceptT JavaException VhalProgram α} {x' : VhalM α}
    {f : α → ExceptT JavaException VhalProgram β} {f' : α → VhalM β} (hx : Performs x x')
    (hf : ∀ a, Performs (f a) (f' a)) : Performs (x >>= f) (x' >>= f') := by
  intro v
  have hbind : (x >>= f).run.alone v =
      match x.run.alone v with
      | (.ok a, v) => (f a).run.alone v
      | (.error e, v) => (.error e, v) := by
    rw [ExceptT.run_bind, VhalProgram.alone_bind]
    rcases x.run.alone v with ⟨_ | _, v'⟩ <;> rfl
  have hbind' : (x' >>= f') v =
      match x' v with
      | (.ok a, v) => f' a v
      | (.error e, v) => (.error e, v) := by
    simp only [Bind.bind, ExceptT.bind, ExceptT.bindCont, ExceptT.mk, StateT.bind]
    rcases x' v with ⟨_ | _, v'⟩ <;> rfl
  rw [hbind, hbind', hx v]
  rcases x' v with ⟨_ | a, v'⟩
  · rfl
  · exact hf a v'

theorem performs_readVehicleData (clientPtr : ClientPtr) :
    Performs (readVehicleData clientPtr) (Dashboard.readVehicleData clientPtr) := by
  unfold readVehicleData Dashboard.readVehicleData
  refine .bind (VhalProgram.alone_getInt32 clientPtr _ 0) fun _ => ?_
  refine .bind (VhalProgram.alone_getInt32 clientPtr _ 0) fun _ => ?_
  refine .bind (VhalProgram.alone_getBool clientPtr _ 0) fun _ => ?_
  refine .bind (VhalProgram.alone_getBool clientPtr _ 0) fun _ => ?_
  refine .bind (VhalProgram.alone_getBool clientPtr _ 0) fun _ => ?_
  refine .bind (VhalProgram.alone_getBool clientPtr _ 0) fun _ => ?_
  refine .bind (VhalProgram.alone_getInt32 clientPtr _ 0) fun _ => ?_
  exact fun _ => rfl

theorem alone_updateVehicleData (clientPtr : ClientPtr) (views : Views) (v : Service) :
    (updateVehicleData clientPtr views).alone v =
      (((Dashboard.updateVehicleData clientPtr views v).1,
        (Dashboard.updateVehicleData clientPtr views v).2.1),
        (Dashboard.updateVehicleData clientPtr views v).2.2) := by
  rw [updateVehicleData, Dashboard.updateVehicleData, VhalProgram.alone_bind,
    performs_readVehicleData clientPtr v]
  rcases Dashboard.readVehicleData clientPtr v with ⟨_ | _, v'⟩ <;> rfl

/-! ## The tool -/

/-- A command of a connected process. -/
def perform : Command → VhalProgram Tool.Outcome
  | .usage => return ⟨1, "", Tool.usage⟩
  | .get key => .call (.get key) fun answer => return readOutcome (readAnswer answer)
  | .set key value => .call (.set key [value]) fun error => return writeOutcome (returnCode error)
  | .missingValue => return ⟨1, "", "Missing value for set\n"⟩
  | .unknown cmd => return ⟨0, "", "Unknown command: " ++ cmd ++ "\n"⟩

/-- What a new process prints. -/
def invoke (i : Invocation) : VhalProgram Tool.Outcome :=
  if Command.ofArgs i.argv = .usage then return ⟨1, "", usage⟩
  else if i.connects then perform (Command.ofArgs i.argv)
  else return ⟨1, "", "Failed to connect to VHAL\n"⟩

theorem alone_perform (command : Command) (v : Service) :
    (perform command).alone v = command.perform v := by
  cases command <;> rfl

theorem alone_invoke (i : Invocation) (v : Service) : (invoke i).alone v = Tool.invoke v i := by
  unfold invoke Tool.invoke
  rw [main_eq]
  by_cases husage : Command.ofArgs i.argv = .usage
  · simp [husage]
  · cases hconnects : i.connects <;> simp [husage, alone_perform]

end Callback
end Vehicle
end Veos
