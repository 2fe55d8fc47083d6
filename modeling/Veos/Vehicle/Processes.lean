import Veos.Vehicle.Callbacks

/-!
# The processes around the VHAL

The SOME/IP client, the telemetry service, the dashboard, and shells from which the tool is
invoked, as processes that share one VHAL.  A process takes one event at a time, and
between two calls of its callback the others may make theirs.

The models of the single programs take a callback for one step.  Any sequence of such
steps, of all programs in any order, is a run of the processes (`run_whole`), so what holds
in every run of the processes holds in those sequences.
-/

namespace Veos
namespace Vehicle

open Java Vhal Someip Telemetry Dashboard Tool CallPrograms

/-! ## The telemetry service -/

/-- The process of the telemetry service, without the VHAL. -/
structure TelemetryProcess where
  /-- The caches of the instances. -/
  caches : List Caches
  alive : Option Nat
  pendingTasks : List Nat
  issued : Nat
  inFlight : List (Nat × Nat)
  clientPtr : ClientPtr
  clients : Clients

namespace TelemetryProcess

/-- The program that an event starts, if the process takes the event.  An exception that
leaves a callback ends the process. -/
def handle (a : TelemetryProcess) :
    Telemetry.Event → Option (VhalProgram (Option TelemetryProcess))
  | .onCreate around =>
      if a.alive.isSome then none
      else
        match VhalNative.init a.clients with
        | (.error _, _, _) => some (return none)
        | (.ok _, clientPtr, clients) =>
            some do
              let _ ← Callback.sendTelemetry clientPtr around
              return some { a with
                caches := a.caches ++ [{}]
                alive := some a.caches.length
                pendingTasks := a.pendingTasks ++ [a.caches.length]
                clientPtr := clientPtr
                clients := clients }
  | .onDestroy =>
      if a.alive.isNone then none
      else
        let (clientPtr, clients) := VhalNative.release a.clientPtr a.clients
        some (return some { a with alive := none, clientPtr := clientPtr, clients := clients })
  | .timer owner =>
      if owner ∈ a.pendingTasks then
        some (return some { a with
          pendingTasks := a.pendingTasks.erase owner ++ [owner]
          issued := a.issued + 1
          inFlight := a.inFlight ++ [(a.issued, owner)] })
      else none
  | .response request response =>
      match a.inFlight.lookup request with
      | none => none
      | some owner =>
          match a.caches[owner]? with
          | none => none
          | some caches =>
              some do
                match ← Callback.onResponse a.clientPtr response caches with
                | (.error _, _) => return none
                | (.ok _, caches) =>
                    return some { a with
                      caches := a.caches.set owner caches
                      inFlight := a.inFlight.filter fun entry => entry.1 ≠ request }
  | .failure request =>
      if (a.inFlight.lookup request).isSome then
        some (return some { a with
          inFlight := a.inFlight.filter fun entry => entry.1 ≠ request })
      else none

/-- What a state of the service's model is to the process. -/
def ofApp (a : App) : TelemetryProcess where
  caches := a.instances.map Instance.caches
  alive := a.alive
  pendingTasks := a.pendingTasks
  issued := a.issued
  inFlight := a.inFlight
  clientPtr := a.clientPtr
  clients := a.clients

/-- What a program left alone makes of the VHAL, beside a step of the model it stands for.
Without a step the process ends and the VHAL is as it was. -/
def Matches (a : App) (next : Option App) (program : VhalProgram (Option TelemetryProcess)) :
    Prop :=
  program.alone a.vhal = (next.map ofApp, (next.map App.vhal).getD a.vhal)

theorem onResponse_error {ptr : ClientPtr} {response : Response} {t t' : ServiceState}
    {e : JavaException} (h : Telemetry.onResponse ptr response t = (.error e, t')) : t' = t := by
  unfold Telemetry.onResponse at h
  split at h
  · split at h
    · cases h
    · split at h <;> first | cases h; rfl | cases h
  · cases h

/-- The process does with an event what the model does, if it takes the event at all. -/
theorem handle_matches (a : App) (event : Telemetry.Event) :
    match (ofApp a).handle event with
    | none => a.step event = none
    | some program => Matches a (a.step event) program := by
  cases event with
  | onCreate around =>
      simp only [handle, App.step, ofApp]
      by_cases halive : a.alive.isSome
      · simp [halive]
      · rcases hinit : VhalNative.init a.clients with ⟨_ | _, clientPtr, clients⟩
        · simp [halive, Matches]
        · simp [halive, Matches, Callback.alone_sendTelemetry, ofApp]
  | onDestroy =>
      simp only [handle, App.step, ofApp]
      by_cases halive : a.alive.isNone
      · simp [halive]
      · simp [halive, Matches, ofApp]
  | timer owner =>
      simp only [handle, App.step, ofApp]
      by_cases howner : owner ∈ a.pendingTasks
      · simp [howner, Matches, ofApp]
      · simp [howner]
  | response request response =>
      simp only [handle, App.step, ofApp, List.getElem?_map]
      cases hlookup : a.inFlight.lookup request with
      | none => simp
      | some owner =>
          cases hinst : a.instances[owner]? with
          | none => simp [hinst]
          | some inst =>
              rcases hresponse : Telemetry.onResponse a.clientPtr response ⟨inst.caches, a.vhal⟩ with
                ⟨e | _, t⟩
              · simp [hinst, Matches, Callback.alone_onResponse, hresponse,
                  Callback.returned, onResponse_error hresponse]
              · simp [hinst, Matches, Callback.alone_onResponse, hresponse,
                  Callback.returned, ofApp, List.map_set]
  | failure request =>
      simp only [handle, App.step, ofApp]
      by_cases hlookup : (a.inFlight.lookup request).isSome
      · simp [hlookup, Matches, ofApp]
      · simp [hlookup]

end TelemetryProcess

/-! ## The dashboard -/

/-- The process of the dashboard, without the VHAL. -/
structure DashboardProcess where
  created : Nat
  alive : Option Nat
  pendingUpdates : List Nat
  views : Views
  clientPtr : ClientPtr
  clients : Clients

namespace DashboardProcess

/-- The program that an event starts, if the process takes the event. -/
def handle (a : DashboardProcess) : ActivityEvent → Option (VhalProgram (Option DashboardProcess))
  | .onCreate =>
      if a.alive.isSome then none
      else
        match VhalNative.init a.clients with
        | (.error _, _, _) => some (return none)
        | (.ok _, clientPtr, clients) =>
            some (return some {
              created := a.created + 1
              alive := some a.created
              pendingUpdates := a.pendingUpdates ++ [a.created]
              views := .initial
              clientPtr := clientPtr
              clients := clients })
  | .onDestroy =>
      match a.alive with
      | none => none
      | some owner =>
          some (return some { a with
            alive := none
            pendingUpdates := a.pendingUpdates.filter fun other => other ≠ owner })
  | .update owner =>
      if owner ∈ a.pendingUpdates then
        some do
          let (_, views) ← Callback.updateVehicleData a.clientPtr a.views
          return some { a with
            pendingUpdates := a.pendingUpdates.erase owner ++ [owner]
            views := views }
      else none

/-- What a state of the dashboard's model is to the process. -/
def ofActivity (a : ActivityProcess) : DashboardProcess where
  created := a.created
  alive := a.alive
  pendingUpdates := a.pendingUpdates
  views := a.views
  clientPtr := a.native.clientPtr
  clients := a.native.clients

/-- What a program left alone makes of the VHAL, beside a step of the model. -/
def Matches (a : ActivityProcess) (next : Option ActivityProcess)
    (program : VhalProgram (Option DashboardProcess)) : Prop :=
  program.alone a.native.vhal =
    (next.map ofActivity, (next.map fun a => a.native.vhal).getD a.native.vhal)

theorem handle_matches (a : ActivityProcess) (event : ActivityEvent) :
    match (ofActivity a).handle event with
    | none => a.step event = none
    | some program => Matches a (a.step event) program := by
  cases event with
  | onCreate =>
      simp only [handle, ActivityProcess.step, ofActivity, Vhal.perform]
      by_cases halive : a.alive.isSome
      · simp [halive]
      · obtain ⟨result, clientPtr, clients, hinit⟩ :
            ∃ result clientPtr clients,
              VhalNative.init a.native.clients = (result, clientPtr, clients) :=
          ⟨_, _, _, rfl⟩
        cases result <;> simp [halive, hinit, Matches, escaping, ofActivity]
  | onDestroy =>
      simp only [handle, ActivityProcess.step, ofActivity]
      cases halive : a.alive with
      | none => simp
      | some owner => simp [Matches, ofActivity]
  | update owner =>
      simp only [handle, ActivityProcess.step, ofActivity]
      by_cases howner : owner ∈ a.pendingUpdates
      · simp [howner, Matches, ofActivity, Callback.alone_updateVehicleData]
      · simp [howner]

end DashboardProcess

/-! ## The processes together -/

/-- The programs that run on the head unit.  A shell is a place from which the tool is
invoked, one invocation after the other. -/
inductive Role
  | client
  | telemetry
  | dashboard
  | shell (n : Nat)
  deriving DecidableEq

namespace Role

/-- What a process keeps between two events: the client the connection of its handler, a
shell what was printed there. -/
abbrev Local : Role → Type
  | .client => ClientPtr
  | .telemetry => TelemetryProcess
  | .dashboard => DashboardProcess
  | .shell _ => List Tool.Outcome

/-- What a process takes for an event: the client the buffer of a Status event. -/
abbrev Event : Role → Type
  | .client => List UInt8
  | .telemetry => Telemetry.Event
  | .dashboard => ActivityEvent
  | .shell _ => Invocation

/-- The program that an event starts, if the process takes the event. -/
def handle (p : Platform) :
    (role : Role) → role.Local → role.Event → Option (VhalProgram (Option role.Local))
  | .client, c, buffer => some do
      Callback.statusCallback p c buffer
      return some c
  | .telemetry, a, event => TelemetryProcess.handle a event
  | .dashboard, a, event => DashboardProcess.handle a event
  | .shell _, printed, i => some do
      let outcome ← Callback.invoke i
      return some (List.append printed [outcome])

end Role

/-- The processes, each in the middle of a callback or not, and the VHAL. -/
abbrev Processes := CallPrograms.State VhalCall.Answer Role.Local Service

/-- What can happen: a process is launched, takes an event, or makes its next call. -/
abbrev ProcessAction := Action Role.Local Role.Event

/-- A sequence of actions. -/
abbrev runProcesses (p : Platform) (actions : List ProcessAction) (st : Processes) :
    Option Processes :=
  CallPrograms.run (Role.handle p) VhalCall.serve actions st

/-! ## Whole callbacks -/

/-- The models of the programs, and the VHAL they share.  The states of the service and of
the dashboard have one of their own, which each step replaces by the shared one. -/
structure Programs where
  client : ClientPtr
  telemetry : App
  dashboard : ActivityProcess
  printed : Nat → List Tool.Outcome
  vhal : Service

namespace Programs

/-- One event of one program, with all of its callback. -/
def step (p : Platform) (s : Programs) : (event : (role : Role) × role.Event) → Option Programs
  | ⟨.client, buffer⟩ => some { s with vhal := Someip.statusCallback p s.client buffer s.vhal }
  | ⟨.telemetry, event⟩ =>
      (App.step { s.telemetry with vhal := s.vhal } event).map fun a =>
        { s with telemetry := a, vhal := a.vhal }
  | ⟨.dashboard, event⟩ =>
      (ActivityProcess.step { s.dashboard with native.vhal := s.vhal } event).map fun a =>
        { s with dashboard := a, vhal := a.native.vhal }
  | ⟨.shell n, i⟩ =>
      some { s with
        printed := Function.update s.printed n (s.printed n ++ [(Tool.invoke s.vhal i).1])
        vhal := (Tool.invoke s.vhal i).2 }

def run (p : Platform) (events : List ((role : Role) × role.Event)) (s : Programs) :
    Option Programs :=
  PartialRuns.run (step p) events s

/-- The processes between two callbacks. -/
def processes (s : Programs) : Processes where
  processes
    | .client => .waiting s.client
    | .telemetry => .waiting (.ofApp s.telemetry)
    | .dashboard => .waiting (.ofActivity s.dashboard)
    | .shell n => .waiting (s.printed n)
  service := s.vhal

/-- The program of an event, left alone, does the step of the models. -/
theorem handle_alone (p : Platform) {s s' : Programs} {role : Role} {event : role.Event}
    (h : s.step p ⟨role, event⟩ = some s') :
    ∃ l program l', s.processes.processes role = .waiting l ∧
      role.handle p l event = some program ∧ program.alone s.vhal = (some l', s'.vhal) ∧
      s'.processes =
        CallPrograms.State.set { s.processes with service := s'.vhal } role (.waiting l') := by
  cases role with
  | client =>
      obtain rfl := Option.some.inj h
      refine ⟨s.client, _, s.client, rfl, rfl, ?_, ?_⟩
      · simp [Callback.alone_statusCallback]
      · ext other
        · cases other <;> rfl
        · rfl
  | telemetry =>
      obtain ⟨a, hstep, rfl⟩ := Option.map_eq_some_iff.1 h
      have hmatches := TelemetryProcess.handle_matches { s.telemetry with vhal := s.vhal } event
      rw [hstep] at hmatches
      split at hmatches
      · cases hmatches
      · rename_i program hprogram
        refine ⟨_, program, .ofApp a, rfl, hprogram, hmatches, ?_⟩
        ext other
        · cases other <;> rfl
        · rfl
  | dashboard =>
      obtain ⟨a, hstep, rfl⟩ := Option.map_eq_some_iff.1 h
      have hmatches :=
        DashboardProcess.handle_matches { s.dashboard with native.vhal := s.vhal } event
      rw [hstep] at hmatches
      split at hmatches
      · cases hmatches
      · rename_i program hprogram
        refine ⟨_, program, .ofActivity a, rfl, hprogram, hmatches, ?_⟩
        ext other
        · cases other <;> rfl
        · rfl
  | shell n =>
      obtain rfl := Option.some.inj h
      refine ⟨s.printed n, _, s.printed n ++ [(Tool.invoke s.vhal event).1], rfl, rfl, ?_, ?_⟩
      · simp [Callback.alone_invoke]
      · ext other
        · cases other with
          | shell m =>
              by_cases hm : m = n
              · subst hm
                simp [processes, CallPrograms.State.set]
              · simp [processes, CallPrograms.State.set, hm]
          | _ => rfl
        · rfl

/-- So the process that finishes the program does it. -/
theorem handle_step (p : Platform) {s s' : Programs} {role : Role} {event : role.Event}
    (h : s.step p ⟨role, event⟩ = some s') :
    ∃ l program, s.processes.processes role = .waiting l ∧
      role.handle p l event = some program ∧
      s.processes.finish VhalCall.serve role program = s'.processes := by
  obtain ⟨l, program, l', hwaiting, hhandle, halone, hprocesses⟩ := handle_alone p h
  have hrun : program.run VhalCall.serve s.processes.service = (some l', s'.vhal) := halone
  refine ⟨l, program, hwaiting, hhandle, ?_⟩
  rw [hprocesses, CallPrograms.State.finish, hrun]
  rfl

/-- **Whole callbacks are a run of the processes.**  What the programs do in a sequence of
events, each with all of its callback, the processes do in a run with the same events in
the same order, in which every callback goes through without an interruption. -/
theorem run_whole (p : Platform) {events : List ((role : Role) × role.Event)} {s s' : Programs}
    (h : s.run p events = some s') :
    ∃ actions : List ProcessAction, actions.filterMap Action.event = events ∧
      runProcesses p actions s.processes = some s'.processes := by
  induction events generalizing s with
  | nil =>
      obtain rfl := Option.some.inj h
      exact ⟨[], rfl, rfl⟩
  | cons event events ih =>
      obtain ⟨between, hstep, hrest⟩ := Option.bind_eq_some_iff.1 h
      obtain ⟨l, program, hwaiting, hhandle, hfinish⟩ := handle_step p hstep
      obtain ⟨turns, hturns⟩ := run_uninterrupted (Role.handle p) VhalCall.serve hhandle hwaiting
      obtain ⟨actions, hevents, hactions⟩ := ih hrest
      refine ⟨.start event.1 event.2 :: List.replicate turns (.turn event.1) ++ actions, ?_, ?_⟩
      · have hevent : (Action.start event.1 event.2 : ProcessAction).event = some event := rfl
        rw [List.cons_append, List.filterMap_cons_some hevent, List.filterMap_append,
          filterMap_event_turns, List.nil_append, hevents]
      · rw [runProcesses, CallPrograms.run, PartialRuns.run_append, ← CallPrograms.run, hturns,
          hfinish]
        exact hactions

/-- The programs just launched, the client with the connection of its handler. -/
def launched (client : ClientPtr) (createFails : Nat → Bool) (v : Service) : Programs where
  client := client
  telemetry := .launched ⟨[], 0, createFails⟩ v
  dashboard := .launched createFails v
  printed := fun _ => []
  vhal := v

theorem processes_idle (s : Programs) : s.processes.Idle := by
  intro role
  cases role <;> exact ⟨_, rfl⟩

/-- A Status event, and a refresh of the dashboard after it. -/
theorem refresh_after_status :
    ∃ actions : List ProcessAction,
      actions.filterMap Action.event =
        [⟨.dashboard, .onCreate⟩, ⟨.client, [0]⟩, ⟨.dashboard, .update 0⟩] ∧
      runProcesses paddingPlatform actions
          (launched 1 (fun _ => false) (.fresh fun _ => [7])).processes =
        some ((run paddingPlatform
          [⟨.dashboard, .onCreate⟩, ⟨.client, [0]⟩, ⟨.dashboard, .update 0⟩]
          (launched 1 (fun _ => false) (.fresh fun _ => [7]))).get rfl).processes :=
  run_whole paddingPlatform (Option.some_get rfl).symm

end Programs

end Vehicle
end Veos
