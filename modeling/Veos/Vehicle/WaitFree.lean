import Veos.Library.BoundedPrograms
import Veos.Vehicle.Provenance

/-!
# How long a callback can take

No callback loops or waits for another process: the number of its VHAL calls has a bound.
A process that gets its turns therefore finishes what it is in, whatever the others do
(`wait_free`), and what it asks of the VHAL in a run is bounded by its events.
-/

namespace Veos
namespace Vehicle

open Java Vhal Someip Telemetry Dashboard Tool CallPrograms

/-! ## The calls of a callback -/

/-- The VHAL calls that an event entitles its process to. -/
def callsFor : (role : Role) → role.Event → Nat
  | .client, _ => 12
  | .telemetry, .onCreate _ => 15
  | .telemetry, .response _ _ => 5
  | .telemetry, _ => 0
  | .dashboard, .update _ => 7
  | .dashboard, _ => 0
  | .shell _, _ => 1

/-- The most calls that a callback of the process makes. -/
def mostCalls : Role → Nat
  | .client => 12
  | .telemetry => 15
  | .dashboard => 7
  | .shell _ => 1

theorem callsFor_le (role : Role) (event : role.Event) : callsFor role event ≤ mostCalls role := by
  cases role with
  | client => exact Nat.le_refl 12
  | telemetry => cases event <;> simp [callsFor, mostCalls]
  | dashboard => cases event <;> simp [callsFor, mostCalls]
  | shell n => exact Nat.le_refl 1

theorem getInt32_atMost (ptr : ClientPtr) (propId : PropId) (areaId : AreaId) :
    (VhalProgram.getInt32 ptr propId areaId).AtMost 1 := by
  unfold VhalProgram.getInt32
  split
  · trivial
  · exact Program.atMost_one _ _

theorem getBool_atMost (ptr : ClientPtr) (propId : PropId) (areaId : AreaId) :
    (VhalProgram.getBool ptr propId areaId).AtMost 1 := by
  unfold VhalProgram.getBool
  split
  · trivial
  · exact Program.atMost_one _ _

theorem setInt32_atMost (ptr : ClientPtr) (propId : PropId) (areaId : AreaId) (value : Int32) :
    (VhalProgram.setInt32 ptr propId areaId value).AtMost 1 := by
  unfold VhalProgram.setInt32
  split
  · trivial
  · refine Program.AtMost.bind (n := 1) (m := 0) ?_ fun result => ?_
    · unfold VhalProgram.setOne
      split
      · trivial
      · exact Program.atMost_one _ _
    · split <;> trivial

theorem setAll_atMost (requests : List (Key × List Int32)) :
    (VhalProgram.setAll requests).AtMost requests.length := by
  induction requests with
  | nil => trivial
  | cons request requests ih => exact ⟨requests.length, rfl, fun _ => ih⟩

theorem statusCallback_atMost (p : Platform) (c : ClientPtr) (buffer : List UInt8) :
    (Callback.statusCallback p c buffer).AtMost 12 := by
  unfold Callback.statusCallback
  split
  · unfold Callback.processPrimaryVehicleState
    split
    · trivial
    · exact setAll_atMost _
  · trivial

theorem addReading_atMost (ptr : ClientPtr) (payload : JMap) (reading : Reading)
    (areaId : AreaId) : (Callback.addReading ptr payload reading areaId).AtMost 1 := by
  cases reading with
  | int propId =>
      refine (getInt32_atMost ptr propId areaId).bind (m := 0) ?_
      rintro (_ | _) <;> trivial
  | bool propId =>
      refine (getBool_atMost ptr propId areaId).bind (m := 0) ?_
      rintro (_ | _) <;> trivial

theorem addReadings_atMost (ptr : ClientPtr) (readings : List Reading) (payload : JMap) :
    (Callback.addReadings ptr readings payload).AtMost readings.length := by
  induction readings generalizing payload with
  | nil => trivial
  | cons reading readings ih =>
      rw [List.length_cons, Nat.add_comm]
      exact (addReading_atMost ptr payload reading 0).bind ih

theorem applyControl_atMost (ptr : ClientPtr) (controls : Option JMap) (c : Control)
    (caches : Caches) : (Callback.applyControl ptr controls c caches).AtMost 1 := by
  unfold Callback.applyControl
  cases controls with
  | none => trivial
  | some controls =>
      simp only
      split
      · split
        · trivial
        · split
          · refine (setInt32_atMost ptr c.propId 0 _).bind (m := 0) ?_
            rintro (_ | _) <;> trivial
          · trivial
      · trivial

theorem applyBlocks_atMost (ptr : ClientPtr) (controls : Option JMap) (cs : List Control)
    (caches : Caches) : (Callback.applyBlocks ptr controls cs caches).AtMost cs.length := by
  induction cs generalizing caches with
  | nil => trivial
  | cons c cs ih =>
      rw [List.length_cons, Nat.add_comm]
      refine (applyControl_atMost ptr controls c caches).bind ?_
      rintro ⟨_ | _, caches⟩
      · trivial
      · exact ih caches

theorem onResponse_atMost (ptr : ClientPtr) (response : Response) (caches : Caches) :
    (Callback.onResponse ptr response caches).AtMost 5 := by
  have hcontrols (controls : Option JMap) :
      (Callback.applyControls ptr controls caches).AtMost 5 :=
    (applyBlocks_atMost ptr controls Control.all caches).bind (m := 0) fun _ => trivial
  unfold Callback.onResponse
  split
  · split
    · trivial
    · split
      · trivial
      · trivial
      · exact (hcontrols none).bind (m := 0) fun _ => trivial
      · exact (hcontrols _).bind (m := 0) fun _ => trivial
      · trivial
  · trivial

theorem atMost_exceptBind {α β : Type} {x : ExceptT JavaException VhalProgram α}
    {f : α → ExceptT JavaException VhalProgram β} {n m : Nat} (hx : x.run.AtMost n)
    (hf : ∀ a, (f a).run.AtMost m) : (x >>= f).run.AtMost (n + m) := by
  rw [ExceptT.run_bind]
  refine hx.bind ?_
  rintro (_ | a)
  · trivial
  · exact hf a

theorem updateVehicleData_atMost (ptr : ClientPtr) (views : Views) :
    (Callback.updateVehicleData ptr views).AtMost 7 := by
  -- one call for each of the seven reads
  have hreads : (Callback.readVehicleData ptr).run.AtMost
      (1 + (1 + (1 + (1 + (1 + (1 + (1 + 0))))))) := by
    unfold Callback.readVehicleData
    refine atMost_exceptBind (getInt32_atMost ptr _ 0) fun _ => ?_
    refine atMost_exceptBind (getInt32_atMost ptr _ 0) fun _ => ?_
    refine atMost_exceptBind (getBool_atMost ptr _ 0) fun _ => ?_
    refine atMost_exceptBind (getBool_atMost ptr _ 0) fun _ => ?_
    refine atMost_exceptBind (getBool_atMost ptr _ 0) fun _ => ?_
    refine atMost_exceptBind (getBool_atMost ptr _ 0) fun _ => ?_
    exact atMost_exceptBind (getInt32_atMost ptr _ 0) fun _ => trivial
  refine hreads.bind (m := 0) ?_
  rintro (_ | _) <;> trivial

theorem invoke_atMost (i : Invocation) : (Callback.invoke i).AtMost 1 := by
  unfold Callback.invoke
  split
  · trivial
  · split
    · cases Command.ofArgs i.argv with
      | get key => exact Program.atMost_one _ _
      | set key value => exact Program.atMost_one _ _
      | _ => trivial
    · trivial

/-- An event starts a program of so many calls at most. -/
theorem handle_atMost (p : Platform) (role : Role) (l : role.Local) (event : role.Event)
    (program : VhalProgram (Option role.Local)) (hhandle : role.handle p l event = some program) :
    program.AtMost (callsFor role event) := by
  cases role with
  | client =>
      obtain rfl := Option.some.inj hhandle
      exact (statusCallback_atMost p l event).bind (m := 0) fun _ => trivial
  | telemetry =>
      cases event with
      | onCreate around =>
          simp only [Role.handle, TelemetryProcess.handle] at hhandle
          split at hhandle
          · cases hhandle
          · split at hhandle
            · obtain rfl := Option.some.inj hhandle
              trivial
            · obtain rfl := Option.some.inj hhandle
              exact (addReadings_atMost _ sweep _).bind (m := 0) fun _ => trivial
      | response request response =>
          simp only [Role.handle, TelemetryProcess.handle] at hhandle
          split at hhandle
          · cases hhandle
          · split at hhandle
            · cases hhandle
            · obtain rfl := Option.some.inj hhandle
              refine (onResponse_atMost l.clientPtr response _).bind (m := 0) ?_
              rintro ⟨_ | _, caches⟩ <;> trivial
      | _ =>
          simp only [Role.handle, TelemetryProcess.handle] at hhandle
          split at hhandle <;> first | cases hhandle; trivial | cases hhandle
  | dashboard =>
      cases event with
      | onCreate =>
          simp only [Role.handle, DashboardProcess.handle] at hhandle
          split at hhandle
          · cases hhandle
          · split at hhandle <;>
            · obtain rfl := Option.some.inj hhandle
              trivial
      | onDestroy =>
          simp only [Role.handle, DashboardProcess.handle] at hhandle
          split at hhandle
          · cases hhandle
          · obtain rfl := Option.some.inj hhandle
            trivial
      | update owner =>
          simp only [Role.handle, DashboardProcess.handle] at hhandle
          split at hhandle
          · obtain rfl := Option.some.inj hhandle
            exact (updateVehicleData_atMost l.clientPtr l.views).bind (m := 0) fun _ => trivial
          · cases hhandle
  | shell n =>
      obtain rfl := Option.some.inj hhandle
      exact (invoke_atMost event).bind (m := 0) fun _ => trivial

/-! ## Runs -/

/-- **No process holds up another.**  Whatever its calls are answered, a callback makes at
most twelve of them for a Status event, fifteen for a new instance of the service, five for
a response, seven for an update of the dashboard and one for an invocation of the tool.  In
any run, with any interleaving, any failing calls and any restarts, a process makes in all
no more than its events allow.  However the run goes on, it returns from the callback that
it is in before it has had more turns than the longest of its callbacks has calls. -/
theorem wait_free (p : Platform) (actions : List ProcessAction) (st st' : Processes)
    (hidle : st.Idle) (hrun : runProcesses p actions st = some st') (role : Role) :
    (∀ l event program, role.handle p l event = some program →
      program.AtMost (callsFor role event)) ∧
    turns role actions ≤ allowance callsFor role actions ∧
    ∀ more st'', runProcesses p more st' = some st'' → mostCalls role ≤ turns role more →
      ∃ before after between, more = before ++ after ∧
        runProcesses p before st' = some between ∧ (between.processes role).Returned := by
  obtain ⟨left, hbound, hleft, hle⟩ :=
    run_turns_le (i := role) (fun l event program => handle_atMost p role l event program)
      (callsFor_le role) hidle hrun
  refine ⟨handle_atMost p role, le_trans (Nat.le_add_right _ _) hle,
    fun more st'' hmore hturns => ?_⟩
  exact run_returns hbound (le_trans hleft hturns) hmore

/-- At the end of the meeting the client is in the middle of a callback. -/
theorem meeting_returns :
    (∀ l event program, Role.client.handle paddingPlatform l event = some program →
      program.AtMost (callsFor .client event)) ∧
    turns .client meeting ≤ allowance callsFor .client meeting ∧
    ∀ more st'', runProcesses paddingPlatform more
        ((runProcesses paddingPlatform meeting beforeMeeting).get rfl) = some st'' →
      mostCalls .client ≤ turns .client more →
      ∃ before after between, more = before ++ after ∧
        runProcesses paddingPlatform before
          ((runProcesses paddingPlatform meeting beforeMeeting).get rfl) = some between ∧
        (between.processes .client).Returned :=
  wait_free paddingPlatform meeting beforeMeeting _ (Programs.processes_idle _)
    (Option.some_get rfl).symm .client

end Vehicle
end Veos
