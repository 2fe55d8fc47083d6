import Veos.Telemetry.Polling
import Veos.Vehicle.Interleavings

/-!
# The battery level has two writers

Of the properties that the SOME/IP client and the telemetry service write, the
battery level is the only one in common (`shared_key_iff`): the client publishes
the vehicle's level there, and the service the server's.

This decides what the order of their writes can change, and what a call of
`applyControls` can promise.  The service compares a requested value with the one
it wrote last, or with its default, and never with what the VHAL holds.
-/

namespace Veos
namespace Vehicle

open Vhal Someip Telemetry Java LastWrite

theorem shared_key_iff (signal : Signal) (c : Control) :
    signal.key = c.key ↔ signal = .batteryLevel ∧ c = .battery := by
  cases signal <;> cases c <;> decide

/-! ## Order of the writes -/

/-- What the client writes last to a property of its own. -/
theorem lastValue_messageWrites (messages : List PrimaryVehicleState) (signal : Signal) :
    lastValue signal.key (messageWrites messages) =
      messages.getLast?.map fun s => [signal.field s] := by
  induction messages using List.reverseRecOn with
  | nil => rfl
  | append_singleton messages s ih =>
      have hlast : lastValue signal.key (statusRequests s) = some [signal.field s] :=
        lastValue_of_nodup (statusRequests_keys_nodup s)
          (List.mem_map.2 ⟨signal, signal.mem_all, rfl⟩)
      rw [messageWrites, List.flatMap_append, lastValue_append, List.flatMap_singleton, hlast]
      simp

/-- The client writes nothing else. -/
theorem lastValue_messageWrites_of_ne (messages : List PrimaryVehicleState) (key : Key)
    (hkey : ∀ signal : Signal, signal.key ≠ key) :
    lastValue key (messageWrites messages) = none := by
  apply (lastValue_eq_none_iff key _).2
  intro w hw hkeyEq
  obtain ⟨s, -, hrequest⟩ := List.mem_flatMap.1 hw
  obtain ⟨signal, -, rfl⟩ := List.mem_map.1 hrequest
  exact hkey signal hkeyEq

/-- The writes of a new instance of the service for a sequence of calls. -/
def controlWrites (calls : List Call) : List (Key × List Int32) :=
  (Pending.ofCalls calls).writes {}

/-- The service writes nothing but the properties of its controls. -/
theorem lastValue_controlWrites_of_ne (calls : List Call) (key : Key)
    (hkey : ∀ c : Control, c.key ≠ key) : lastValue key (controlWrites calls) = none := by
  apply (lastValue_eq_none_iff key _).2
  intro w hw hkeyEq
  rw [controlWrites, Pending.writes, Pending.finish_ofCalls] at hw
  obtain ⟨call, hcall, rfl⟩ := List.mem_map.1 hw
  obtain ⟨c, hc⟩ := runControls_keys calls ⟨{}, .fresh fun _ => []⟩ call
    (List.mem_filter.1 hcall).1
  exact hkey c (hc.symm.trans hkeyEq)

/-- The two processes can disagree on the battery level only. -/
theorem writers_agree (messages : List PrimaryVehicleState) (calls : List Call) (key : Key)
    (hkey : key ≠ Control.battery.key) (a b : List Int32)
    (hclient : lastValue key (messageWrites messages) = some a)
    (hservice : lastValue key (controlWrites calls) = some b) : a = b := by
  by_cases hsignal : ∃ signal : Signal, signal.key = key
  · obtain ⟨signal, rfl⟩ := hsignal
    have hnone := lastValue_controlWrites_of_ne calls signal.key fun c hc => hkey (by
      rw [← hc, ((shared_key_iff signal c).1 hc.symm).2])
    simp [hnone] at hservice
  · have hnone := lastValue_messageWrites_of_ne messages key fun signal hsignalKey =>
      hsignal ⟨signal, hsignalKey⟩
    simp [hnone] at hclient

/-- **The order of the writes.**  In every finished schedule of the two processes on
a VHAL without faults, each property but the battery level holds what the process
that owns it wrote last.  If both wrote the battery level it holds what one of them
wrote last.  The store does not depend on the schedule exactly when not both wrote
the battery level or both wrote the same there last. -/
theorem schedules_store (messages : List PrimaryVehicleState) (calls : List Call) (v : Service)
    (hv : v.Faultless) :
    let st := Concurrent.start messages calls v
    let battery := Control.battery.key
    (∀ schedule, (st.run schedule).Finished → ∀ key, key ≠ battery →
      (st.run schedule).service.vhal.store key =
        ((lastValue key (messageWrites messages)).or
          (lastValue key (controlWrites calls))).getD (v.store key)) ∧
    (∀ schedule, (st.run schedule).Finished → ∀ s b, messages.getLast? = some s →
      lastValue battery (controlWrites calls) = some b →
      (st.run schedule).service.vhal.store battery = [s.batteryLevel.toInt32] ∨
        (st.run schedule).service.vhal.store battery = b) ∧
    ((∀ schedule schedule', (st.run schedule).Finished → (st.run schedule').Finished →
        (st.run schedule).service.vhal.store = (st.run schedule').service.vhal.store) ↔
      ∀ s b, messages.getLast? = some s → lastValue battery (controlWrites calls) = some b →
        b = [s.batteryLevel.toInt32]) := by
  intro st battery
  have hbattery : lastValue battery st.requests =
      messages.getLast?.map fun s => [s.batteryLevel.toInt32] :=
    lastValue_messageWrites messages .batteryLevel
  refine ⟨?_, ?_, ?_⟩
  · intro schedule hfinished key hkey
    exact st.run_store_of_agree hv schedule hfinished key (writers_agree messages calls key hkey)
  · intro schedule hfinished s b hs hb
    rw [hs] at hbattery
    exact st.run_store_of_both hv schedule hfinished battery hbattery hb
  · rw [st.run_store_unique_iff hv]
    constructor
    · intro hagree s b hs hb
      rw [hs] at hbattery
      exact (hagree battery _ b hbattery hb).symm
    · intro hlast key a b hclient hservice
      by_cases hkey : key = battery
      · subst hkey
        rw [hbattery, Option.map_eq_some_iff] at hclient
        obtain ⟨s, hs, rfl⟩ := hclient
        exact (hlast s b hs hservice).symm
      · exact writers_agree messages calls key hkey a b hclient hservice

/-- The server's battery level meets the vehicle's: a call that writes 80 beside a
message that carries 30. -/
def batteryRace : Concurrent :=
  .start [{ batteryLevel := 30 }]
    [⟨1, some [("veos_ev_battery_level", .number (.integer 80))]⟩] (.fresh fun _ => [])

/-- Whichever process writes last decides the battery level. -/
theorem batteryRace_last_writer :
    let clientLast := batteryRace.run (List.replicate 6 .service ++ List.replicate 12 .client)
    let serviceLast := batteryRace.run (List.replicate 12 .client ++ List.replicate 6 .service)
    clientLast.Finished ∧ serviceLast.Finished ∧
    clientLast.service.vhal.store Control.battery.key = [30] ∧
    serviceLast.service.vhal.store Control.battery.key = [80] := by
  refine ⟨⟨rfl, rfl⟩, ⟨rfl, rfl⟩, by decide, by decide⟩

/-- In a schedule of the race that ends with the service the level is one of the
two. -/
theorem batteryRace_store :
    (batteryRace.run (List.replicate 12 .client ++ List.replicate 6 .service)).service.vhal.store
        Control.battery.key = [30] ∨
      (batteryRace.run (List.replicate 12 .client ++ List.replicate 6 .service)).service.vhal.store
        Control.battery.key = [80] :=
  (schedules_store [{ batteryLevel := 30 }]
    [⟨1, some [("veos_ev_battery_level", .number (.integer 80))]⟩] (.fresh fun _ => [])
    (Service.fresh_faultless _)).2.1 _ ⟨rfl, rfl⟩ _ _ rfl (by decide)

/-! ## What a call achieves -/

/-- One step of the history of both processes: the client handles a message, or something
happens in the process of the service. -/
inductive Event
  | message (s : PrimaryVehicleState)
  | service (event : Telemetry.Event)

/-- The process of the service with its VHAL, and a record of the set calls that the
service has made, each with the instance that made it. -/
structure Recorded where
  app : App
  sets : List (Nat × SetCall)

namespace Recorded

/-- The instance that applies a response. -/
def applying (a : App) : Telemetry.Event → Option Nat
  | .response request _ => a.inFlight.lookup request
  | _ => none

/-- One step.  The client's own set calls are not recorded. -/
def step (vhalClient : ClientPtr) (r : Recorded) : Event → Option Recorded
  | .message s =>
      some { r with app.vhal := processPrimaryVehicleState vhalClient s r.app.vhal }
  | .service event =>
      (r.app.step event).map fun app => {
        app := app
        sets := r.sets ++ (applying r.app event).toList.flatMap fun owner =>
          (app.vhal.setsSince r.app.vhal).map fun call => (owner, call) }

/-- A step in which no instance applies a response records nothing. -/
theorem step_of_applying_none {vhalClient : ClientPtr} {r r' : Recorded} {event : Telemetry.Event}
    {app : App} (happ : r.app.step event = some app) (hnone : applying r.app event = none)
    (hstep : r.step vhalClient (.service event) = some r') : r' = ⟨app, r.sets⟩ := by
  simpa [step, happ, hnone] using hstep.symm

/-- The set calls of the service, in their order. -/
def serviceSets (r : Recorded) : List SetCall := r.sets.map Prod.snd

/-- The set calls of one instance. -/
def setsOf (r : Recorded) (owner : Nat) : List SetCall :=
  (r.sets.filter fun made => made.1 = owner).map Prod.snd

/-- A call of `applyControls` by an instance, with the handle that the process holds. -/
def call (r : Recorded) (inst : Instance) (m : JMap) : Option JavaException × ServiceState :=
  applyControls r.app.clientPtr (some m) ⟨inst.caches, r.app.vhal⟩

end Recorded

/-- A history from the launch of the service's process on. -/
def history (vhalClient : ClientPtr) (events : List Event) (clients : Clients) (v : Service) :
    Option Recorded :=
  PartialRuns.run (Recorded.step vhalClient) events ⟨.launched clients v, []⟩

/-- Every instance knows what it stored last, and a property that the client does not write
holds what the service stored last. -/
structure Written (v : Service) (r : Recorded) : Prop where
  caches : ∀ owner inst, r.app.instances[owner]? = some inst → ∀ c : Control,
    [inst.caches.get c] = (lastStored c.key (r.setsOf owner)).getD [({} : Caches).get c]
  new : ∀ owner, r.app.instances.length ≤ owner → r.setsOf owner = []
  store : ∀ c : Control, c ≠ .battery →
    r.app.vhal.store c.key = (lastStored c.key r.serviceSets).getD (v.store c.key)

namespace Written

variable {v : Service} {r : Recorded}

/-- A step in which no instance sets anything. -/
theorem of_no_sets (h : Written v r) {app : App} (hinstances : app.instances = r.app.instances)
    (hstore : ∀ c : Control, c ≠ .battery → app.vhal.store c.key = r.app.vhal.store c.key) :
    Written v ⟨app, r.sets⟩ where
  caches owner inst hinst := h.caches owner inst (hinstances ▸ hinst)
  new owner hle := h.new owner (hinstances ▸ hle)
  store c hc := (hstore c hc).trans (h.store c hc)

/-- A new instance has its defaults, and nothing that it stored. -/
theorem create (h : Written v r) {app : App}
    (hinstances : app.instances = r.app.instances ++ [{ caches := {}, lateSets := [] }])
    (hstore : app.vhal.store = r.app.vhal.store) : Written v ⟨app, r.sets⟩ where
  caches owner inst hinst c := by
    rw [hinstances, List.getElem?_append] at hinst
    split at hinst
    · exact h.caches owner inst hinst c
    · rename_i hlt
      have hnone : Recorded.setsOf ⟨app, r.sets⟩ owner = [] := h.new owner (Nat.le_of_not_lt hlt)
      rw [List.getElem?_singleton] at hinst
      split at hinst
      · cases hinst
        rw [hnone]
        rfl
      · cases hinst
  new owner hle := by
    apply h.new
    rw [hinstances, List.length_append] at hle
    exact Nat.le_of_add_right_le hle
  store c hc := (congrFun hstore c.key).trans (h.store c hc)

/-- An instance applies a response. -/
theorem respond (h : Written v r) {owner : Nat} {inst inst' : Instance} {sets : List SetCall}
    {app : App} (hinst : r.app.instances[owner]? = some inst)
    (hinstances : app.instances = r.app.instances.set owner inst')
    (hextends : Extends r.app.vhal sets app.vhal)
    (hcaches : ∀ c : Control, [inst'.caches.get c] =
      (lastStored c.key sets).getD [inst.caches.get c]) :
    Written v ⟨app, r.sets ++ sets.map fun call => (owner, call)⟩ where
  caches other inst'' hother c := by
    rw [hinstances, List.getElem?_set] at hother
    by_cases hsame : owner = other
    · subst hsame
      have hlt := (List.getElem?_eq_some_iff.1 hinst).1
      rw [if_pos rfl, if_pos hlt] at hother
      cases hother
      have hsets : Recorded.setsOf ⟨app, r.sets ++ sets.map fun call => (owner, call)⟩ owner =
          r.setsOf owner ++ sets := by
        simp [Recorded.setsOf, List.filter_map, Function.comp_def]
      rw [hsets, lastStored_append, hcaches, h.caches owner inst hinst]
      cases lastStored c.key sets <;> rfl
    · rw [if_neg hsame] at hother
      have hsets : Recorded.setsOf ⟨app, r.sets ++ sets.map fun call => (owner, call)⟩ other =
          r.setsOf other := by
        simp [Recorded.setsOf, List.filter_map, Function.comp_def, hsame]
      rw [hsets]
      exact h.caches other inst'' hother c
  new other hle := by
    rw [hinstances, List.length_set] at hle
    have hlt := (List.getElem?_eq_some_iff.1 hinst).1
    have hne : owner ≠ other := by omega
    have hsets : Recorded.setsOf ⟨app, r.sets ++ sets.map fun call => (owner, call)⟩ other =
        r.setsOf other := by
      simp [Recorded.setsOf, List.filter_map, Function.comp_def, hne]
    rw [hsets]
    exact h.new other hle
  store c hc := by
    have hsets : Recorded.serviceSets ⟨app, r.sets ++ sets.map fun call => (owner, call)⟩ =
        r.serviceSets ++ sets := by
      simp [Recorded.serviceSets, Function.comp_def]
    rw [hsets, lastStored_append, hextends.store_apply, h.store c hc]
    cases lastStored c.key sets <;> rfl

end Written

theorem step_written (vhalClient : ClientPtr) (v : Service) (r : Recorded) (event : Event)
    (r' : Recorded) (h : Written v r) (hstep : r.step vhalClient event = some r') :
    Written v r' := by
  cases event with
  | message s =>
      obtain rfl := Option.some.inj hstep
      refine h.of_no_sets rfl fun c hc => ?_
      exact process_store_of_ne vhalClient s r.app.vhal c.key fun signal hkey =>
        hc ((shared_key_iff signal c).1 hkey.symm).2
  | service event =>
      obtain ⟨app, happ, hrecorded⟩ := Option.map_eq_some_iff.1 hstep
      cases event with
      | onCreate around =>
          obtain rfl := Recorded.step_of_applying_none happ rfl hstep
          obtain ⟨-, clientPtr, clients, -, rfl⟩ := App.step_onCreate happ
          refine h.create rfl (funext fun key => ?_)
          rw [(sendTelemetry_extends clientPtr around r.app.vhal).store_apply]
          rfl
      | onDestroy =>
          obtain rfl := Recorded.step_of_applying_none happ rfl hstep
          obtain ⟨-, rfl⟩ := App.step_onDestroy happ
          exact h.of_no_sets rfl fun _ _ => rfl
      | timer owner =>
          obtain rfl := Recorded.step_of_applying_none happ rfl hstep
          obtain ⟨-, rfl⟩ := App.step_timer happ
          exact h.of_no_sets rfl fun _ _ => rfl
      | response request response =>
          obtain ⟨owner, inst, t, howner, hinst, hresponse, rfl⟩ := App.step_response happ
          obtain ⟨sets, hextends, hcaches⟩ :=
            onResponse_spec r.app.clientPtr response ⟨inst.caches, r.app.vhal⟩
          rw [hresponse] at hextends hcaches
          rw [← hrecorded]
          simp only [Recorded.applying, howner, Option.toList_some, List.flatMap_cons,
            List.flatMap_nil, List.append_nil, hextends.setsSince]
          exact h.respond hinst rfl hextends hcaches
      | failure request =>
          obtain rfl := Recorded.step_of_applying_none happ rfl hstep
          obtain rfl := App.step_failure happ
          exact h.of_no_sets rfl fun _ _ => rfl

theorem history_written {vhalClient : ClientPtr} {events : List Event} {clients : Clients}
    {v : Service} {r : Recorded} (hrun : history vhalClient events clients v = some r) :
    Written v r := by
  refine PartialRuns.invariant (step_written vhalClient v) ⟨?_, fun _ _ => rfl, fun _ _ => rfl⟩ hrun
  intro owner inst hinst
  cases hinst

/-- **What a completed call achieves.**  Take any history of the client and of the process
of the service, with instances created and destroyed, responses in any order and whichever
calls fail, and let an instance run a call of `applyControls` to its end.  Each key that
the map holds has a number.  Its property holds that number's value if the cached value
differs from it, and otherwise what it held before the call; what is cached is the value
that the instance stored last, or its default.  A property other than the battery level
holds the number's value if the instance has stored a value there and the service has not
stored another one since. -/
theorem applyControls_achieves (vhalClient : ClientPtr) (events : List Event) (clients : Clients)
    (v : Service) (r : Recorded) (hrun : history vhalClient events clients v = some r)
    (owner : Nat) (inst : Instance) (hinst : r.app.instances[owner]? = some inst) (m : JMap)
    (hcompleted : (r.call inst m).1 = none) (c : Control)
    (hpresent : m.containsKey c.name = true) :
    let before := r.app.vhal.store c.key
    let after := (r.call inst m).2.vhal.store c.key
    let written := lastStored c.key (r.setsOf owner)
    ∃ number : Number, m.lookup c.name = some (.number number) ∧
      after = (if number.intValue = inst.caches.get c then before else [number.intValue]) ∧
      [inst.caches.get c] = written.getD [({} : Caches).get c] ∧
      (c ≠ .battery → written ≠ none → lastStored c.key r.serviceSets = written →
        after = [number.intValue]) := by
  intro before after written
  have hwritten := history_written hrun
  have hcached : [inst.caches.get c] = written.getD [({} : Caches).get c] :=
    hwritten.caches owner inst hinst c
  obtain ⟨sets, hspec⟩ := applyControls_spec r.app.clientPtr (some m) ⟨inst.caches, r.app.vhal⟩
  rw [← Recorded.call, hcompleted] at hspec
  rcases hspec.applied_of_completed c with ⟨hnone, -⟩ | ⟨value, hvalue, -⟩
  · simp only [requested, Option.map_eq_none_iff] at hnone
    simp [JMap.containsKey, hnone] at hpresent
  · obtain ⟨number, hnumber, rfl⟩ := (requested_ok_iff m c value).1 hvalue
    have hstore : after =
        if number.intValue = inst.caches.get c then before else [number.intValue] :=
      store_of_completed hcompleted c _ hvalue
    refine ⟨number, hnumber, hstore, hcached, fun hc hown hlast => ?_⟩
    rw [hstore]
    split
    · -- the value was not written, since the property holds it already
      rename_i hsame
      obtain ⟨values, hvalues⟩ := Option.ne_none_iff_exists'.1 hown
      rw [hvalues] at hcached hlast
      show r.app.vhal.store c.key = [number.intValue]
      rw [hwritten.store c hc, hlast, hsame, hcached]
      rfl
    · rfl

/-- A response whose reading asks for the given values. -/
def reading (m : JMap) : Response := ⟨200, some [("results", .list [.map m])]⟩

/-- A map that asks for the battery level `level`. -/
def batteryMap (level : Int32) : JMap := [("veos_ev_battery_level", .number (.integer level))]

/-- Clients whose connections succeed. -/
def connectedClients : Clients := ⟨[], 0, fun _ => false⟩

/-- A level equal to the default is not written although the VHAL holds another one,
and a level written before is not written again after the client has overwritten
it. -/
theorem battery_not_reconciled :
    (∃ r inst, history 1 [.service (.onCreate ⟨0, none⟩)] connectedClients
        (.fresh fun _ => [50]) = some r ∧ r.app.instances[0]? = some inst ∧
      (r.call inst (batteryMap 100)).1 = none ∧
      (r.call inst (batteryMap 100)).2.vhal.store Control.battery.key = [50]) ∧
    ∃ r inst, history 1 [.service (.onCreate ⟨0, none⟩), .service (.timer 0),
        .service (.response 0 (reading (batteryMap 90))), .message { batteryLevel := 30 }]
        connectedClients (.fresh fun _ => [50]) = some r ∧ r.app.instances[0]? = some inst ∧
      (r.call inst (batteryMap 90)).1 = none ∧
      (r.call inst (batteryMap 90)).2.vhal.store Control.battery.key = [30] :=
  ⟨⟨_, _, rfl, rfl, by decide, by decide⟩, ⟨_, _, rfl, rfl, by decide, by decide⟩⟩

/-- A map that asks for a battery level and the duration 7. -/
def trip (level : Int32) : JMap := ("veos_trip_duration", .number (.integer 7)) :: batteryMap level

/-- The service writes a battery level and a duration, the client overwrites the level, and
the service writes another level. -/
def bothWrite : List Event :=
  [.service (.onCreate ⟨0, none⟩), .service (.timer 0), .service (.timer 0),
    .service (.response 0 (reading (trip 90))), .message { batteryLevel := 30 },
    .service (.response 1 (reading (batteryMap 80)))]

def bothWritten : Recorded :=
  (history 1 bothWrite connectedClients (.fresh fun _ => [50])).get rfl

/-- The instance at the end of it. -/
def bothWrittenInstance : Instance :=
  ⟨{ currentDuration := 7, currentBattery := 80 }, []⟩

/-- A new level is written, and the duration is still there. -/
theorem trip_achieved :
    (bothWritten.call bothWrittenInstance (trip 90)).2.vhal.store Control.battery.key = [90] ∧
      (bothWritten.call bothWrittenInstance (trip 90)).2.vhal.store Control.duration.key = [7] := by
  constructor
  · obtain ⟨number, hnumber, hafter, -, -⟩ := applyControls_achieves 1 bothWrite connectedClients
      (.fresh fun _ => [50]) bothWritten (Option.some_get rfl).symm 0 bothWrittenInstance rfl
      (trip 90) (by decide) .battery (by decide)
    cases hnumber
    rwa [if_neg (by decide)] at hafter
  · obtain ⟨number, hnumber, -, -, hafter⟩ := applyControls_achieves 1 bothWrite connectedClients
      (.fresh fun _ => [50]) bothWritten (Option.some_get rfl).symm 0 bothWrittenInstance rfl
      (trip 90) (by decide) .duration (by decide)
    cases hnumber
    exact hafter (by decide) (by decide) (by decide)

end Vehicle
end Veos
