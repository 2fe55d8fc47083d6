import Veos.Vehicle.NonInterference
import Veos.Vehicle.Provenance

/-!
# From a Status event to the display

Between two calls of the client any other process may make its own, and the properties of
one message are for a while partly old.  When the client waits again they have settled:
each signal's property holds the field of the last message (`client_settles`).  A refresh
of the dashboard that is not interrupted then shows the last message (`settled_refresh`).

The invariant says what a property will hold once the calls that the client has before it
are made (`Sending`).  The client keeps it up with each call, and the other processes
leave the property alone.
-/

namespace Veos
namespace Vehicle

open Java Vhal Someip Telemetry Dashboard Tool CallPrograms LastWrite

/-- The message that an action makes the client handle. -/
def handledMessage (p : Platform) : ProcessAction → Option PrimaryVehicleState
  | .start .client buffer => (decodeStatus p buffer).toOption
  | _ => none

/-- The last message that the client began to handle. -/
def lastMessage (p : Platform) (actions : List ProcessAction) : Option PrimaryVehicleState :=
  (actions.filterMap (handledMessage p)).getLast?

theorem lastMessage_append_singleton (p : Platform) (actions : List ProcessAction)
    (action : ProcessAction) :
    lastMessage p (actions ++ [action]) =
      (handledMessage p action).or (lastMessage p actions) := by
  cases hhandled : handledMessage p action <;> simp [lastMessage, hhandled]

theorem handledMessage_of_ne (p : Platform) {action : ProcessAction}
    (hne : action.process ≠ .client) : handledMessage p action = none := by
  cases action with
  | start role event =>
      cases role with
      | client => exact absurd rfl hne
      | _ => rfl
  | _ => rfl

/-! ## The client -/

/-- A client with the set calls `rest` before it. -/
def clientSending (c : ClientPtr) (rest : List (Key × List Int32)) :
    Process VhalCall VhalCall.Answer ClientPtr :=
  .ofProgram do
    VhalProgram.setAll rest
    return some c

theorem clientSending_eq_waiting {c l : ClientPtr} {rest : List (Key × List Int32)}
    (h : clientSending c rest = .waiting l) : rest = [] ∧ l = c := by
  cases rest with
  | nil =>
      cases h
      exact ⟨rfl, rfl⟩
  | cons request rest => cases h

/-- The process of the client has some calls before it, and once they are made the
property of the signal holds the field of the message `last`, or without a message what it
held at the start.  Set calls do not fail. -/
structure Sending (c : ClientPtr) (signal : Signal) (start : Service)
    (last : Option PrimaryVehicleState) (process : Process VhalCall VhalCall.Answer ClientPtr)
    (v : Service) : Prop where
  pending : ∃ rest, process = clientSending c rest ∧
    (lastValue signal.key rest).getD (v.store signal.key) =
      last.elim (start.store signal.key) fun s => [signal.field s]
  setFault : ∀ n, v.setFault n = none

namespace Sending

variable {c : ClientPtr} {signal : Signal} {start v : Service} {last : Option PrimaryVehicleState}

/-- An event gives a client that waits the calls of its message. -/
theorem take (p : Platform) (hc : c ≠ 0) {past : List ProcessAction} {l : ClientPtr}
    {buffer : List UInt8} {program : VhalProgram (Option ClientPtr)}
    (hhandle : Role.handle p .client l buffer = some program)
    (h : Sending c signal start (lastMessage p past) (.waiting l) v) :
    Sending c signal start (lastMessage p (past ++ [.start .client buffer])) (.ofProgram program)
      v := by
  obtain ⟨⟨rest, hrest, hvalue⟩, hfault⟩ := h
  obtain ⟨rfl, rfl⟩ := clientSending_eq_waiting hrest.symm
  obtain rfl := Option.some.inj hhandle
  rw [lastMessage_append_singleton]
  simp only [handledMessage, Callback.statusCallback]
  cases hdecode : decodeStatus p buffer with
  | error e => exact ⟨⟨[], rfl, hvalue⟩, hfault⟩
  | ok s =>
      refine ⟨⟨statusRequests s, ?_, ?_⟩, hfault⟩
      · simp only [Callback.processPrimaryVehicleState, if_neg hc]
        rfl
      · have hmem : (signal.key, [signal.field s]) ∈ statusRequests s :=
          List.mem_map.2 ⟨signal, signal.mem_all, rfl⟩
        rw [lastValue_of_nodup (statusRequests_keys_nodup s) hmem]
        rfl

/-- A call of the client makes the first of the writes before it. -/
theorem make {call : VhalCall} {next : call.Answer → VhalProgram (Option ClientPtr)}
    (h : Sending c signal start last (.working call next) v) :
    Sending c signal start last (.ofProgram (next (call.serve v).1)) (call.serve v).2 := by
  obtain ⟨⟨rest, hrest, hvalue⟩, hfault⟩ := h
  cases rest with
  | nil => cases hrest
  | cons request rest =>
      cases hrest
      refine ⟨⟨rest, rfl, ?_⟩, hfault⟩
      have hstore : (v.setValueSync request.1 request.2).2.store = applyWrite v.store request := by
        simp [Service.setValueSync, hfault, applyWrite]
      -- a write more in the store and one less before it make the same value
      rw [← hvalue, ← applyWrites_apply, ← applyWrites_apply, applyWrites_cons]
      exact congrArg (fun store => applyWrites store rest signal.key) hstore

/-- A call that does not set the property leaves it alone. -/
theorem leave {process : Process VhalCall VhalCall.Answer ClientPtr} {call : VhalCall}
    (hcall : SetsOnly (fun key _ => key ≠ signal.key) call)
    (h : Sending c signal start last process v) :
    Sending c signal start last process (call.serve v).2 := by
  obtain ⟨⟨rest, hrest, hvalue⟩, hfault⟩ := h
  cases call with
  | get key => exact ⟨⟨rest, hrest, hvalue⟩, hfault⟩
  | set key values =>
      refine ⟨⟨rest, hrest, ?_⟩, hfault⟩
      have hstore : (v.setValueSync key values).2.store signal.key = v.store signal.key := by
        simp [Service.setValueSync, hfault, Function.update_of_ne (Ne.symm hcall)]
      rw [← hvalue]
      exact congrArg _ hstore

/-- A client that waits has no call before it. -/
theorem store_of_waiting {process : Process VhalCall VhalCall.Answer ClientPtr}
    (h : Sending c signal start last process v) {l : ClientPtr} (hwaits : process = .waiting l) :
    v.store signal.key = last.elim (start.store signal.key) fun s => [signal.field s] := by
  obtain ⟨rest, hrest, hvalue⟩ := h.pending
  rw [hwaits] at hrest
  obtain ⟨rfl, -⟩ := clientSending_eq_waiting hrest.symm
  exact hvalue

end Sending

/-- The other processes set no property of the vehicle but the battery level, unless an
operator tells them to. -/
theorem others_leave (p : Platform) {actions : List ProcessAction} {signal : Signal}
    (hsignal : signal ≠ .batteryLevel) (hoperator : NotOperated actions signal.key) (role : Role)
    (event : role.Event) (hrole : role ≠ .client) (hstarted : Started actions role event) :
    StartsCalls (Role.handle p) (SetsOnly fun key _ => key ≠ signal.key) role event := by
  intro l program hhandle
  refine (handle_calls p role event l program hhandle).mono ?_
  rintro (key | ⟨key, values⟩) hset
  · trivial
  · rintro rfl
    cases role with
    | client => exact hrole rfl
    | telemetry =>
        obtain ⟨request, response, reading, -, -, c, number, -, hkey, -⟩ := hset
        exact hsignal ((shared_key_iff signal c).1 hkey).1
    | dashboard => exact hset
    | shell n =>
        obtain ⟨value, hcommand, -⟩ := hset
        exact hoperator n event hstarted value hcommand

/-- In a run without a restart of the client, the calls before the client are those of the
last message that it decoded. -/
theorem run_sending (p : Platform) {c : ClientPtr} (hc : c ≠ 0) {actions : List ProcessAction}
    {st st' : Processes} (hidle : st.Idle) (hclient : st.processes .client = .waiting c)
    (hfaults : ∀ n, st.service.setFault n = none) (hlaunch : ∀ l, .launch .client l ∉ actions)
    (hrun : runProcesses p actions st = some st') {signal : Signal}
    (hsignal : signal ≠ .batteryLevel) (hoperator : NotOperated actions signal.key) :
    Sending c signal st.service (lastMessage p actions) (st'.processes .client) st'.service := by
  apply run_rely (P := SetsOnly fun key _ => key ≠ signal.key)
    (fun past => Sending c signal st.service (lastMessage p past)) ?_ ?_ ?_ ?_ ?_
    (fun role event hrole hstarted => others_leave p hsignal hoperator role event hrole hstarted)
    (hidle.calls _ _) ?_ hrun
  · exact fun past l process v hmem _ => absurd hmem (hlaunch l)
  · intro past l v buffer program hhandle h
    exact h.take p hc hhandle
  · intro past call next v h
    rw [lastMessage_append_singleton]
    exact h.make
  · intro past action process v hne h
    rw [lastMessage_append_singleton, handledMessage_of_ne p hne]
    exact h
  · intro past call process v hcall h
    exact h.leave hcall
  · rw [hclient]
    exact ⟨⟨[], rfl, rfl⟩, hfaults⟩

/-- **A client that waits has settled.**  Take any run from a state in which the processes
wait and the client is connected, on a VHAL whose set calls do not fail, without a restart
of the client.  When the client waits, the property of a signal other than the battery
level, if no `set` command names it, holds the field of the last message that the client
decoded, or what it held at the start if there was none. -/
theorem client_settles (p : Platform) (c : ClientPtr) (hc : c ≠ 0) (actions : List ProcessAction)
    (st st' : Processes) (hidle : st.Idle) (hclient : st.processes .client = .waiting c)
    (hfaults : ∀ n, st.service.setFault n = none) (hlaunch : ∀ l, .launch .client l ∉ actions)
    (hrun : runProcesses p actions st = some st') (signal : Signal)
    (hsignal : signal ≠ .batteryLevel) (hoperator : NotOperated actions signal.key)
    (l : ClientPtr) (hwaits : st'.processes .client = .waiting l) :
    st'.service.store signal.key =
      (lastMessage p actions).elim (st.service.store signal.key) fun s => [signal.field s] := by
  have hsending := run_sending p hc hidle hclient hfaults hlaunch hrun hsignal hoperator
  exact hsending.store_of_waiting hwaits

/-- The dashboard starts while the client makes the calls of a message with the speed 42. -/
def delivery : List ProcessAction :=
  [.start .client [2, 16, 42], .turn .client, .start .dashboard .onCreate] ++
    List.replicate 11 (.turn .client)

theorem delivery_speed :
    ((runProcesses paddingPlatform delivery beforeMeeting).get rfl).service.store
        Signal.speed.key =
      (lastMessage paddingPlatform delivery).elim (beforeMeeting.service.store Signal.speed.key)
        fun s => [Signal.speed.field s] :=
  client_settles paddingPlatform 1 (by decide) delivery beforeMeeting _
    (Programs.processes_idle _) rfl (fun _ => rfl) (by simp [delivery])
    (Option.some_get rfl).symm .speed (by decide) (by
      intro n i hstarted
      simp [Started, delivery] at hstarted) 1 rfl

example : (lastMessage paddingPlatform delivery).map Signal.speed.field = some 42 := by decide

/-! ## The dashboard -/

/-- What the dashboard shows of a message: the speed, the gear, the headlights, and the
left turn signal and the hazard lights, which it takes for the high beam and the battery
warning. -/
structure Shows (s : PrimaryVehicleState) (before after : Views) : Prop where
  speed : after.speedText = toString s.speedKmh.toInt32
  arrows : after.turnSignals = updateTurnSignalIndicator (s.currentGear % 3)
  gear : after.adapter = before.adapter.setSelectedPosition (s.currentGear % 4)
  lighting : after.lighting =
    updateLightingIndicator (decide (s.exteriorLightsStatus = LIGHTS_ON)) s.turnSignalLeft
  warning : after.battery.batteryCharge = if s.hazardLightsOn then .VISIBLE else .INVISIBLE

theorem boolAnswer_boolToInt (b : Bool) : VhalNative.boolAnswer none [boolToInt b] = b := by
  cases b <;> rfl

/-- A refresh shows the message whose fields the properties hold. -/
theorem shows_of_store {s : PrimaryVehicleState} {v : Service} (hreads : ∀ n, v.getFault n = none)
    (hstore : ∀ signal : Signal, signal ≠ .batteryLevel →
      v.store signal.key = [signal.field s]) (views : Views) :
    Shows s views (updateViews (dataOf v) views) := by
  have hspeed := hstore .speed (by decide)
  have hgear := hstore .gear (by decide)
  have hlights := hstore .headlights (by decide)
  have hleft := hstore .turnLeft (by decide)
  have hhazard := hstore .hazard (by decide)
  have hspeedAt : (dataOf v).speed = s.speedKmh.toInt32 := by
    show VhalNative.int32Answer _ (v.store Signal.speed.key) = _
    rw [hreads, hspeed]
    rfl
  have hgearAt : (dataOf v).gearPosition = s.currentGear := by
    show VhalNative.int32Answer _ (v.store Signal.gear.key) = _
    rw [hreads, hgear]
    rfl
  have hlightsAt : (dataOf v).headlightsOn = decide (s.exteriorLightsStatus = LIGHTS_ON) := by
    show VhalNative.boolAnswer _ (v.store Signal.headlights.key) = _
    rw [hreads, hlights]
    exact boolAnswer_boolToInt _
  have hleftAt : (dataOf v).highBeamOn = s.turnSignalLeft := by
    show VhalNative.boolAnswer _ (v.store Signal.turnLeft.key) = _
    rw [hreads, hleft]
    exact boolAnswer_boolToInt _
  have hhazardAt : (dataOf v).batteryWarning = s.hazardLightsOn := by
    show VhalNative.boolAnswer _ (v.store Signal.hazard.key) = _
    rw [hreads, hhazard]
    exact boolAnswer_boolToInt _
  constructor
  · exact congrArg toString hspeedAt
  · simp only [updateViews, hgearAt]
  · simp only [updateViews, hgearAt]
  · simp only [updateViews, hlightsAt, hleftAt]
  · simp only [updateViews, updateBatteryIndicator_batteryCharge, hhazardAt]

/-- The program of a posted update, left alone, draws what the VHAL holds. -/
theorem handle_update {a : DashboardProcess} (hptr : a.clientPtr ≠ 0) {owner : Nat}
    (hposted : owner ∈ a.pendingUpdates) (v : Service) :
    ∃ program, a.handle (.update owner) = some program ∧
      program.alone v = (some { a with
        pendingUpdates := a.pendingUpdates.erase owner ++ [owner]
        views := updateViews (dataOf v) a.views }, { v with gets := v.gets + 7 }) := by
  refine ⟨_, if_pos hposted, ?_⟩
  simp [Callback.alone_updateVehicleData, updateVehicleData_connected hptr]

/-- **From the vehicle to the display.**  Take such a run on a VHAL without faults, without
any `set` command, in which the client decoded a message, and let the client wait at its
end.  If an activity of the dashboard has its update posted, the update with enough turns
after it ends, and the views then show the last message that the client decoded. -/
theorem settled_refresh (p : Platform) (c : ClientPtr) (hc : c ≠ 0) (actions : List ProcessAction)
    (st st' : Processes) (hidle : st.Idle) (hclient : st.processes .client = .waiting c)
    (hfaults : st.service.Faultless) (hlaunch : ∀ l, .launch .client l ∉ actions)
    (hrun : runProcesses p actions st = some st')
    (hoperator : ∀ key, NotOperated actions key) (l : ClientPtr)
    (hwaits : st'.processes .client = .waiting l) (s : PrimaryVehicleState)
    (hlast : lastMessage p actions = some s) (a : DashboardProcess)
    (hdashboard : st'.processes .dashboard = .waiting a) (hptr : a.clientPtr ≠ 0) (owner : Nat)
    (hposted : owner ∈ a.pendingUpdates) :
    ∃ turns st'' a'', runProcesses p (.start .dashboard (.update owner) ::
        List.replicate turns (.turn .dashboard)) st' = some st'' ∧
      st''.processes .dashboard = .waiting a'' ∧ Shows s a.views a''.views := by
  have hstore : ∀ signal : Signal, signal ≠ .batteryLevel →
      st'.service.store signal.key = [signal.field s] := by
    intro signal hsignal
    have hsending := run_sending p hc hidle hclient hfaults.1 hlaunch hrun hsignal
      (hoperator signal.key)
    rw [hlast] at hsending
    exact hsending.store_of_waiting hwaits
  have hreads : ∀ n, st'.service.getFault n = none := by
    obtain ⟨calls, hextends, -⟩ := run_accounted p hidle hrun
    rw [hextends.getFault]
    exact hfaults.2
  obtain ⟨program, hhandle, halone⟩ := handle_update hptr hposted st'.service
  have hhandled : Role.handle p .dashboard a (.update owner) = some program := hhandle
  obtain ⟨turns, hturns⟩ := run_uninterrupted (Role.handle p) VhalCall.serve hhandled hdashboard
  refine ⟨turns, _, { a with
    pendingUpdates := a.pendingUpdates.erase owner ++ [owner]
    views := updateViews (dataOf st'.service) a.views }, hturns, ?_, ?_⟩
  · rw [CallPrograms.State.finish, CallPrograms.State.set_processes_self]
    exact congrArg (fun result => finished result.1) halone
  · exact shows_of_store hreads hstore a.views

/-- The dashboard at the end of the delivery. -/
def deliveryDashboard : DashboardProcess where
  created := 1
  alive := some 0
  pendingUpdates := [0]
  views := .initial
  clientPtr := 1
  clients := ⟨[1], 1, fun _ => false⟩

theorem delivery_shown :
    ∃ turns st'' a'', runProcesses paddingPlatform (.start .dashboard (.update 0) ::
        List.replicate turns (.turn .dashboard))
          ((runProcesses paddingPlatform delivery beforeMeeting).get rfl) = some st'' ∧
      st''.processes .dashboard = .waiting a'' ∧
      Shows ((lastMessage paddingPlatform delivery).get rfl) deliveryDashboard.views a''.views :=
  settled_refresh paddingPlatform 1 (by decide) delivery beforeMeeting _
    (Programs.processes_idle _) rfl ⟨fun _ => rfl, fun _ => rfl⟩ (by simp [delivery])
    (Option.some_get rfl).symm (by
      intro key n i hstarted
      simp [Started, delivery] at hstarted) 1 rfl _ (Option.some_get rfl).symm deliveryDashboard
    rfl (by decide) 0 (by decide)

end Vehicle
end Veos
