import Veos.Telemetry.Responses
import Veos.Vehicle.Processes
import Veos.Vehicle.Writers

/-!
# Where the values of the VHAL come from

Runs of all processes, with any interleaving of their calls, any calls that fail, and any
process replaced by a new one at any time.

Every value that was ever set was sent by the vehicle, by the server or by an operator
(`set_provenance`), so a property other than the battery level has one owner among the
programs (`store_owner`).  On a VHAL whose reads do not fail, the dashboard, the telemetry
that is sent and the tool's `get` can be taken out of a run, and the others do the same
without them (`readers_erased`).
-/

namespace Veos
namespace Vehicle

open Java Vhal Someip Telemetry Dashboard Tool CallPrograms

/-! ## What a callback may set -/

/-- The reading that a response hands on to `applyControls`. -/
def latestReading (response : Response) : Option JMap :=
  if response.isSuccessful then
    match response.body with
    | none => none
    | some responseData =>
        match responseData.get "results" with
        | .list (.map reading :: _) => some reading
        | _ => none
  else none

/-- What an event entitles its process to set: a decoded message its fields, a response
the numbers of its reading, and a `set` command its value. -/
def MaySet (p : Platform) :
    (role : Role) → role.Event → (key : Key) → (values : List Int32) → Prop
  | .client, buffer, key, values =>
      ∃ state, decodeStatus p buffer = .ok state ∧
        ∃ signal : Signal, key = signal.key ∧ values = [signal.field state]
  | .telemetry, event, key, values =>
      ∃ request response reading, event = .response request response ∧
        latestReading response = some reading ∧
        ∃ c : Control, ∃ number : Number, reading.lookup c.name = some (.number number) ∧
          key = c.key ∧ values = [number.intValue]
  | .dashboard, _, _, _ => False
  | .shell _, i, key, values =>
      ∃ value, Command.ofArgs i.argv = .set key value ∧ values = [value]

/-- The call sets nothing, or what `allowed` allows. -/
def SetsOnly (allowed : Key → List Int32 → Prop) : VhalCall → Prop
  | .get _ => True
  | .set key values => allowed key values

theorem setsOnly_of_isRead (allowed : Key → List Int32 → Prop) (call : VhalCall)
    (h : call.IsRead) : SetsOnly allowed call := by
  cases call with
  | get key => trivial
  | set key values => exact h.elim

section Callbacks

theorem statusCallback_calls (p : Platform) (c : ClientPtr) (buffer : List UInt8) :
    (Callback.statusCallback p c buffer).Calls (SetsOnly (MaySet p .client buffer)) := by
  unfold Callback.statusCallback
  split
  · rename_i state hdecode
    unfold Callback.processPrimaryVehicleState
    split
    · trivial
    · refine (VhalProgram.setAll_calls _).mono ?_
      rintro call ⟨request, hmem, rfl⟩
      obtain ⟨signal, -, rfl⟩ := List.mem_map.1 hmem
      exact ⟨state, hdecode, signal, rfl, rfl⟩
  · trivial

theorem addReading_calls (ptr : ClientPtr) (payload : JMap) (reading : Reading) (areaId : AreaId) :
    (Callback.addReading ptr payload reading areaId).Calls VhalCall.IsRead := by
  cases reading with
  | int propId =>
      exact (VhalProgram.getInt32_calls ptr propId areaId).bind fun value => by
        cases value <;> trivial
  | bool propId =>
      exact (VhalProgram.getBool_calls ptr propId areaId).bind fun value => by
        cases value <;> trivial

theorem addReadings_calls (ptr : ClientPtr) (readings : List Reading) (payload : JMap) :
    (Callback.addReadings ptr readings payload).Calls VhalCall.IsRead := by
  induction readings generalizing payload with
  | nil => trivial
  | cons reading readings ih =>
      exact (addReading_calls ptr payload reading 0).bind fun payload => ih payload

theorem sendTelemetry_calls (ptr : ClientPtr) (around : Surroundings) :
    (Callback.sendTelemetry ptr around).Calls VhalCall.IsRead :=
  addReadings_calls ptr sweep _

variable {P : VhalCall → Prop}

theorem applyControl_calls (ptr : ClientPtr) (controls : Option JMap) (c : Control)
    (caches : Caches)
    (hset : ∀ reading number, controls = some reading →
      reading.lookup c.name = some (.number number) → P (.set c.key [number.intValue])) :
    (Callback.applyControl ptr controls c caches).Calls P := by
  unfold Callback.applyControl
  cases controls with
  | none => trivial
  | some controls =>
      simp only
      split
      · rename_i hkey
        split
        · trivial
        · rename_i newValue hvalue
          split
          · refine Program.Calls.bind ?_ fun result => by cases result <;> trivial
            refine (VhalProgram.setInt32_calls ptr c.propId 0 newValue).mono ?_
            rintro call rfl
            have hrequested : requested (some controls) c = some (.ok newValue) := by
              obtain ⟨object, hobject⟩ := Option.isSome_iff_exists.1 hkey
              simp only [JMap.get, hobject, Option.getD_some] at hvalue
              simp [requested, hobject, hvalue]
            obtain ⟨number, hnumber, rfl⟩ := (requested_ok_iff controls c newValue).1 hrequested
            exact hset controls number rfl hnumber
          · trivial
      · trivial

theorem applyBlocks_calls (ptr : ClientPtr) (controls : Option JMap) (cs : List Control)
    (caches : Caches)
    (hset : ∀ c ∈ cs, ∀ reading number, controls = some reading →
      reading.lookup c.name = some (.number number) → P (.set c.key [number.intValue])) :
    (Callback.applyBlocks ptr controls cs caches).Calls P := by
  induction cs generalizing caches with
  | nil => trivial
  | cons c cs ih =>
      have hrest := fun other hmem => hset other (List.mem_cons_of_mem c hmem)
      refine (applyControl_calls ptr controls c caches (hset c List.mem_cons_self)).bind ?_
      rintro ⟨_ | _, caches⟩
      · trivial
      · exact ih caches hrest

theorem onResponse_calls (ptr : ClientPtr) (response : Response) (caches : Caches)
    (hset : ∀ (c : Control) reading number, latestReading response = some reading →
      reading.lookup c.name = some (.number number) → P (.set c.key [number.intValue])) :
    (Callback.onResponse ptr response caches).Calls P := by
  unfold Callback.onResponse
  split
  · rename_i hsuccessful
    split
    · trivial
    · rename_i responseData hbody
      split
      · trivial
      · trivial
      · refine Program.Calls.bind (Program.Calls.bind ?_ fun _ => trivial) fun _ => trivial
        exact applyBlocks_calls ptr none Control.all caches fun _ _ _ _ h => by cases h
      · rename_i reading others hresults
        refine Program.Calls.bind (Program.Calls.bind ?_ fun _ => trivial) fun _ => trivial
        refine applyBlocks_calls ptr (some reading) Control.all caches fun c _ latest number h => ?_
        obtain rfl := Option.some.inj h
        exact hset c reading number (by simp [latestReading, hsuccessful, hbody, hresults])
      · trivial
  · trivial

/-- A program that may throw goes on with its next part only if it did not. -/
theorem calls_exceptBind {α β : Type} {P : VhalCall → Prop}
    {x : ExceptT JavaException VhalProgram α} {f : α → ExceptT JavaException VhalProgram β}
    (hx : x.run.Calls P) (hf : ∀ a, (f a).run.Calls P) : (x >>= f).run.Calls P := by
  rw [ExceptT.run_bind]
  refine hx.bind ?_
  rintro (_ | a)
  · trivial
  · exact hf a

theorem updateVehicleData_calls (ptr : ClientPtr) (views : Views) :
    (Callback.updateVehicleData ptr views).Calls VhalCall.IsRead := by
  have hreads : (Callback.readVehicleData ptr).run.Calls VhalCall.IsRead := by
    unfold Callback.readVehicleData
    refine calls_exceptBind (VhalProgram.getInt32_calls ptr _ 0) fun _ => ?_
    refine calls_exceptBind (VhalProgram.getInt32_calls ptr _ 0) fun _ => ?_
    refine calls_exceptBind (VhalProgram.getBool_calls ptr _ 0) fun _ => ?_
    refine calls_exceptBind (VhalProgram.getBool_calls ptr _ 0) fun _ => ?_
    refine calls_exceptBind (VhalProgram.getBool_calls ptr _ 0) fun _ => ?_
    refine calls_exceptBind (VhalProgram.getBool_calls ptr _ 0) fun _ => ?_
    exact calls_exceptBind (VhalProgram.getInt32_calls ptr _ 0) fun _ => trivial
  exact hreads.bind fun data => by cases data <;> trivial

theorem invoke_calls (p : Platform) (n : Nat) (i : Invocation) :
    (Callback.invoke i).Calls (SetsOnly (MaySet p (.shell n) i)) := by
  unfold Callback.invoke
  split
  · trivial
  · split
    · cases hcommand : Command.ofArgs i.argv with
      | get key => exact ⟨trivial, fun _ => trivial⟩
      | set key value => exact ⟨⟨value, hcommand, rfl⟩, fun _ => trivial⟩
      | _ => trivial
    · trivial

end Callbacks

/-- An event starts no call but those that it entitles its process to. -/
theorem handle_calls (p : Platform) (role : Role) (event : role.Event) :
    StartsCalls (Role.handle p) (SetsOnly (MaySet p role event)) role event := by
  intro l program hhandle
  cases role with
  | client =>
      obtain rfl := Option.some.inj hhandle
      exact (statusCallback_calls p l event).bind fun _ => trivial
  | telemetry =>
      cases event with
      | onCreate around =>
          simp only [Role.handle, TelemetryProcess.handle] at hhandle
          split at hhandle
          · cases hhandle
          · split at hhandle
            · obtain rfl := Option.some.inj hhandle
              trivial
            · obtain rfl := Option.some.inj hhandle
              refine Program.Calls.bind ?_ fun _ => trivial
              exact (sendTelemetry_calls _ around).mono (setsOnly_of_isRead _)
      | response request response =>
          simp only [Role.handle, TelemetryProcess.handle] at hhandle
          split at hhandle
          · cases hhandle
          · split at hhandle
            · cases hhandle
            · obtain rfl := Option.some.inj hhandle
              refine Program.Calls.bind (onResponse_calls _ response _ ?_) ?_
              · intro c reading number hreading hnumber
                exact ⟨request, response, reading, rfl, hreading, c, number, hnumber, rfl, rfl⟩
              · rintro ⟨_ | _, caches⟩ <;> trivial
      | _ =>
          -- the other events start programs without calls
          simp only [Role.handle, TelemetryProcess.handle] at hhandle
          split at hhandle <;> first | cases hhandle; trivial | cases hhandle
  | dashboard =>
      cases event with
      | onCreate =>
          simp only [Role.handle, DashboardProcess.handle] at hhandle
          split at hhandle
          · cases hhandle
          · split at hhandle <;>
            · obtain rfl := Option.some.inj hhandle
              trivial
      | onDestroy =>
          simp only [Role.handle, DashboardProcess.handle] at hhandle
          split at hhandle
          · cases hhandle
          · obtain rfl := Option.some.inj hhandle
            trivial
      | update owner =>
          simp only [Role.handle, DashboardProcess.handle] at hhandle
          split at hhandle
          · obtain rfl := Option.some.inj hhandle
            refine Program.Calls.bind ?_ fun _ => trivial
            exact (updateVehicleData_calls _ _).mono (setsOnly_of_isRead _)
          · cases hhandle
  | shell n =>
      obtain rfl := Option.some.inj hhandle
      exact (invoke_calls p n event).bind fun _ => trivial

/-! ## Provenance -/

/-- An event among `actions` entitles its process to set `values` under `key`. -/
def Sent (p : Platform) (actions : List ProcessAction) (key : Key) (values : List Int32) : Prop :=
  ∃ role event, Started actions role event ∧ MaySet p role event key values

/-- Every set call between two states of the VHAL was sent for. -/
def Accounted (p : Platform) (actions : List ProcessAction) (start v : Service) : Prop :=
  ∃ calls, Extends start calls v ∧ ∀ call ∈ calls, Sent p actions call.key call.values

theorem run_accounted (p : Platform) {actions : List ProcessAction} {st st' : Processes}
    (hidle : st.Idle) (hrun : runProcesses p actions st = some st') :
    Accounted p actions st.service st'.service := by
  refine run_invariant (P := SetsOnly (Sent p actions)) ?_ ?_ (hidle.calls _ _)
    ⟨[], Extends.refl st.service, by simp⟩ hrun
  · rintro call v hcall ⟨calls, hextends, hsent⟩
    cases call with
    | get key =>
        have hread := hextends.trans (Extends.read v key)
        rw [List.append_nil] at hread
        exact ⟨calls, hread, hsent⟩
    | set key values =>
        refine ⟨_, hextends.trans (Extends.set v key values), ?_⟩
        intro call hmem
        rcases List.mem_append.1 hmem with hmem | hmem
        · exact hsent call hmem
        · rw [List.mem_singleton.1 hmem]
          exact hcall
  · intro role event hstarted l program hhandle
    refine (handle_calls p role event l program hhandle).mono ?_
    rintro (key | ⟨key, values⟩) hset
    · trivial
    · exact ⟨role, event, hstarted, hset⟩

/-- A property that is not what it was holds what was sent for it. -/
theorem Accounted.store {p : Platform} {actions : List ProcessAction} {start v : Service}
    (h : Accounted p actions start v) (key : Key) :
    v.store key = start.store key ∨ Sent p actions key (v.store key) := by
  obtain ⟨calls, hextends, hsent⟩ := h
  rw [hextends.store_apply, lastStored_eq_successes]
  cases hlast : (successes key calls).getLast? with
  | none => exact Or.inl rfl
  | some call =>
      obtain ⟨hmem, hcall⟩ := List.mem_filter.1 (List.mem_of_getLast? hlast)
      simp only [Bool.and_eq_true, decide_eq_true_eq] at hcall
      rw [← hcall.1]
      exact Or.inr (hsent call hmem)

theorem run_store (p : Platform) {actions : List ProcessAction} {st st' : Processes}
    (hidle : st.Idle) (hrun : runProcesses p actions st = some st') (key : Key) :
    st'.service.store key = st.service.store key ∨ Sent p actions key (st'.service.store key) :=
  (run_accounted p hidle hrun).store key

/-- **Where every value comes from.**  In any run of the processes from a state in which
none is in the middle of a callback, with any interleaving of their calls and whichever
calls fail: every set call carries a field of a message that the client decoded, for the
signal of its property, or a number of a reading that a response brought, for the control
of its property, or the value of a `set` command for its property.  What a property holds
was set so, or was there before. -/
theorem set_provenance (p : Platform) (actions : List ProcessAction) (st st' : Processes)
    (hidle : st.Idle) (hrun : runProcesses p actions st = some st') :
    (∀ call ∈ st'.service.setsSince st.service, Sent p actions call.key call.values) ∧
    ∀ key, st'.service.store key = st.service.store key ∨
      Sent p actions key (st'.service.store key) := by
  refine ⟨?_, run_store p hidle hrun⟩
  obtain ⟨calls, hextends, hsent⟩ := run_accounted p hidle hrun
  rw [hextends.setsSince]
  exact hsent

/-- The client makes the first of its calls, the server's battery level is applied, and the
client goes on. -/
def meeting : List ProcessAction :=
  .start .telemetry (.onCreate ⟨0, none⟩) :: List.replicate 15 (.turn .telemetry) ++
    [.start .telemetry (.timer 0), .start .client [0], .turn .client,
      .start .telemetry (.response 0 (App.fullResponse 80)), .turn .telemetry, .turn .client]

/-- The head unit before the meeting. -/
def beforeMeeting : Processes :=
  (Programs.launched 1 (fun _ => false) (.fresh fun _ => [])).processes

theorem meeting_sent :
    (∀ call ∈ ((runProcesses paddingPlatform meeting beforeMeeting).get rfl).service.setsSince
      beforeMeeting.service, Sent paddingPlatform meeting call.key call.values) ∧
    ∀ key, ((runProcesses paddingPlatform meeting beforeMeeting).get rfl).service.store key =
        beforeMeeting.service.store key ∨
      Sent paddingPlatform meeting key
        (((runProcesses paddingPlatform meeting beforeMeeting).get rfl).service.store key) :=
  set_provenance paddingPlatform meeting beforeMeeting _ (Programs.processes_idle _)
    (Option.some_get rfl).symm

/-! ## Owners -/

/-- No `set` command for the property is among the events. -/
def NotOperated (actions : List ProcessAction) (key : Key) : Prop :=
  ∀ n (i : Invocation), Started actions (.shell n) i →
    ∀ value, Command.ofArgs i.argv ≠ .set key value

/-- **Who can change a property.**  In any run of the processes, a property that no `set`
command names changes only as follows.  That of a signal other than the battery level
comes to hold the signal's field of a decoded message, that of a control other than the
battery level the control's number in a response, and a property of neither kind stays as
it is. -/
theorem store_owner (p : Platform) (actions : List ProcessAction) (st st' : Processes)
    (hidle : st.Idle) (hrun : runProcesses p actions st = some st') (key : Key)
    (hkey : NotOperated actions key) :
    let before := st.service.store key
    let after := st'.service.store key
    (∀ signal : Signal, key = signal.key → signal ≠ .batteryLevel →
      after = before ∨ ∃ buffer state, Started actions .client buffer ∧
        decodeStatus p buffer = .ok state ∧ after = [signal.field state]) ∧
    (∀ c : Control, key = c.key → c ≠ .battery →
      after = before ∨ ∃ request response reading, ∃ number : Number,
        Started actions .telemetry (.response request response) ∧
        latestReading response = some reading ∧
        reading.lookup c.name = some (.number number) ∧ after = [number.intValue]) ∧
    ((∀ signal : Signal, key ≠ signal.key) → (∀ c : Control, key ≠ c.key) → after = before) := by
  intro before after
  rcases run_store p hidle hrun key with hsame | ⟨role, event, hstarted, hset⟩
  · exact ⟨fun _ _ _ => Or.inl hsame, fun _ _ _ => Or.inl hsame, fun _ _ => hsame⟩
  · cases role with
    | client =>
        obtain ⟨state, hdecode, signal, hsignal, hvalues⟩ := hset
        refine ⟨fun other hother _ => Or.inr ⟨event, state, hstarted, hdecode, ?_⟩,
          fun c hc hne => ?_, fun hnone _ => absurd hsignal (hnone signal)⟩
        · rw [Signal.key_injective (hother.symm.trans hsignal)]
          exact hvalues
        · exact absurd ((shared_key_iff signal c).1 (hsignal.symm.trans hc)).2 hne
    | telemetry =>
        obtain ⟨request, response, reading, rfl, hreading, c, number, hnumber, hc, hvalues⟩ := hset
        refine ⟨fun signal hsignal hne => ?_, fun other hother _ => Or.inr ⟨request, response,
          reading, number, hstarted, hreading, ?_, hvalues⟩, fun _ hnone => absurd hc (hnone c)⟩
        · exact absurd ((shared_key_iff signal c).1 (hsignal.symm.trans hc)).1 hne
        · rw [Control.key_injective (hother.symm.trans hc)]
          exact hnumber
    | dashboard => exact hset.elim
    | shell n =>
        obtain ⟨value, hcommand, -⟩ := hset
        exact absurd hcommand (hkey n event hstarted value)

/-- The gear after the meeting is the one the client decoded. -/
theorem meeting_gear :
    ((runProcesses paddingPlatform meeting beforeMeeting).get rfl).service.store Signal.gear.key =
        beforeMeeting.service.store Signal.gear.key ∨
      ∃ buffer state, Started meeting .client buffer ∧
        decodeStatus paddingPlatform buffer = .ok state ∧
        ((runProcesses paddingPlatform meeting beforeMeeting).get rfl).service.store
          Signal.gear.key = [Signal.gear.field state] :=
  (store_owner paddingPlatform meeting beforeMeeting _ (Programs.processes_idle _)
    (Option.some_get rfl).symm Signal.gear.key (by
      intro n i hstarted
      simp [Started, meeting] at hstarted)).1 .gear rfl (by decide)

/-! ## Readers -/

/-- The event entitles its process to set nothing. -/
def ReadsOnly (p : Platform) (role : Role) (event : role.Event) : Prop :=
  ∀ key values, ¬MaySet p role event key values

/-- The services differ in nothing but the number of reads, and reads do not fail. -/
structure SameButReads (v v' : Service) : Prop where
  service : v = { v' with gets := v.gets }
  reads : ∀ n, v.getFault n = none

theorem SameButReads.get {v v' : Service} (h : SameButReads v v') (key : Key) :
    SameButReads (v.getValueSync key).2 v' := by
  obtain ⟨hservice, hreads⟩ := h
  refine ⟨?_, hreads⟩
  rw [hservice]
  rfl

theorem SameButReads.serve {v v' : Service} (h : SameButReads v v') (call : VhalCall) :
    (call.serve v).1 = (call.serve v').1 ∧ SameButReads (call.serve v).2 (call.serve v').2 := by
  obtain ⟨hservice, hreads⟩ := h
  obtain ⟨store, sets, gets, setFault, getFault⟩ := v
  obtain ⟨store', sets', gets', setFault', getFault'⟩ := v'
  simp only [Service.mk.injEq, true_and] at hservice
  obtain ⟨rfl, rfl, rfl, rfl⟩ := hservice
  cases call with
  | get key =>
      have hanswer (n : Nat) : getFault n = none := hreads n
      refine ⟨?_, rfl, hreads⟩
      simp only [VhalCall.serve, Service.getValueSync, hanswer]
      rfl
  | set key values => exact ⟨rfl, rfl, hreads⟩

theorem reads_invisible (call : VhalCall) (v v' : Service) (hread : call.IsRead)
    (h : SameButReads v v') : SameButReads (call.serve v).2 v' := by
  cases call with
  | get key => exact h.get key
  | set key values => exact hread.elim

theorem readsOnly_startsCalls (p : Platform) {role : Role} {event : role.Event}
    (h : ReadsOnly p role event) : StartsCalls (Role.handle p) VhalCall.IsRead role event := by
  intro l program hhandle
  refine (handle_calls p role event l program hhandle).mono ?_
  rintro (key | ⟨key, values⟩) hset
  · trivial
  · exact h key values hset

/-- **Readers leave no trace.**  Take a run of the processes on a VHAL whose reads do not
fail, and hide any processes that take no events but reading ones: the dashboard, a
telemetry service that gets no reading, shells without a `set` command.  The run without
their actions is possible, the other processes come to the same states in it, and the VHAL
to the same store and the same set calls. -/
theorem readers_erased (p : Platform) (hidden : Role → Bool) (actions : List ProcessAction)
    (st st' : Processes) (hidle : st.Idle) (hfaults : ∀ n, st.service.getFault n = none)
    (hreads : ∀ role event, hidden role = true → Started actions role event →
      ReadsOnly p role event)
    (hrun : runProcesses p actions st = some st') :
    ∃ st'', runProcesses p (actions.filter fun action => !hidden action.process) st = some st'' ∧
      (∀ role, hidden role = false → st'.processes role = st''.processes role) ∧
      st'.service = { st''.service with gets := st'.service.gets } := by
  have hself : Agree hidden SameButReads st st := ⟨fun _ _ => rfl, rfl, hfaults⟩
  obtain ⟨st'', hrun'', hagree⟩ :=
    erase (fun call v v' h => h.serve call) reads_invisible
      (fun role event hhidden hstarted =>
        readsOnly_startsCalls p (hreads role event hhidden hstarted))
      (hidle.calls _ _) hself hrun
  exact ⟨st'', hrun'', hagree.processes, hagree.service.service⟩

/-- The dashboard refreshes between the calls of the client. -/
def watched : List ProcessAction :=
  [.start .dashboard .onCreate, .start .client [0], .turn .client, .start .dashboard (.update 0),
    .turn .dashboard, .turn .client, .turn .dashboard]

/-- The client does the same unwatched. -/
theorem unwatched :
    ∃ st'', runProcesses paddingPlatform [.start .client [0], .turn .client, .turn .client]
        beforeMeeting = some st'' ∧
      (∀ role, decide (role = .dashboard) = false →
        ((runProcesses paddingPlatform watched beforeMeeting).get rfl).processes role =
          st''.processes role) ∧
      ((runProcesses paddingPlatform watched beforeMeeting).get rfl).service =
        { st''.service with
          gets := ((runProcesses paddingPlatform watched beforeMeeting).get rfl).service.gets } :=
  readers_erased paddingPlatform (fun role => role = .dashboard) watched beforeMeeting _
    (Programs.processes_idle _) (fun _ => rfl)
    (by
      rintro role event hrole -
      obtain rfl : role = .dashboard := by simpa using hrole
      exact fun _ _ h => h)
    (Option.some_get rfl).symm

end Vehicle
end Veos
