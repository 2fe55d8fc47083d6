import Veos.Library.Reduction
import Veos.Vehicle.Provenance

/-!
# Callbacks in whole

The models of the single programs take a callback for one step, and the processes may be
interrupted between any two calls.  Of the calls that a callback of the client or of the
telemetry service makes, one at most is for the battery level, which both of them set.  The
others commute with all that the other process does, and the reads of the service do not
show.  So without faults and without `set` commands a run of the processes comes to the
same, for these two and for the store, as a sequence of whole callbacks
(`callbacks_atomic`).

The dashboard and the tool can see a part of a message, so they are taken out of the run
first.
-/

namespace Veos
namespace Vehicle

open Java Vhal Someip Telemetry Dashboard Tool CallPrograms

/-- The dashboard and, without a `set` command, the shells only read. -/
def Role.watches : Role → Bool
  | .client | .telemetry => false
  | .dashboard | .shell _ => true

/-- What a process sets: the client the signals, the service the controls. -/
def Writes : Role → VhalCall → Prop
  | .client, .set key _ => ∃ signal : Signal, key = signal.key
  | .telemetry, .set key _ => ∃ c : Control, key = c.key
  | _, _ => False

/-- What a process sets that the other one does not. -/
def WritesAlone : Role → VhalCall → Prop
  | .client, .set key _ => ∃ signal : Signal, signal ≠ .batteryLevel ∧ key = signal.key
  | .telemetry, .set key _ => ∃ c : Control, c ≠ .battery ∧ key = c.key
  | _, _ => False

theorem writes_of_alone (role : Role) (call : VhalCall) (h : WritesAlone role call) :
    Writes role call := by
  cases call with
  | get key => cases role <;> exact h.elim
  | set key values =>
      cases role with
      | client =>
          obtain ⟨signal, -, hkey⟩ := h
          exact ⟨signal, hkey⟩
      | telemetry =>
          obtain ⟨c, -, hkey⟩ := h
          exact ⟨c, hkey⟩
      | _ => exact h.elim

/-! ## Set calls that commute -/

/-- Services without faults that hold the same. -/
structure SameStore (v v' : Service) : Prop where
  store : v.store = v'.store
  left : v.Faultless
  right : v'.Faultless

theorem sameStore_similarity : Similarity VhalCall.serve SameStore where
  symm h := ⟨h.store.symm, h.right, h.left⟩
  trans h h' := ⟨h.store.trans h'.store, h.left, h'.right⟩
  answer := by
    rintro (key | ⟨key, values⟩) v v' h
    · show (v.getValueSync key).1 = (v'.getValueSync key).1
      simp [Service.getValueSync, h.left.2, h.right.2, h.store]
    · show (v.setValueSync key values).1 = (v'.setValueSync key values).1
      simp [Service.setValueSync, h.left.1, h.right.1]
  next := by
    rintro (key | ⟨key, values⟩) v v' h
    · exact ⟨h.store, h.left, h.right⟩
    · refine ⟨?_, h.left, h.right⟩
      show (v.setValueSync key values).2.store = (v'.setValueSync key values).2.store
      simp [Service.setValueSync, h.left.1, h.right.1, h.store]

/-- Set calls for different properties commute. -/
theorem set_commuting {key key' : Key} (hkey : key ≠ key') (values values' : List Int32) :
    Commuting VhalCall.serve SameStore (Program.one (VhalCall.set key values) : VhalProgram _)
      (Program.one (VhalCall.set key' values') : VhalProgram _) where
  left v hv := by
    show ((v.setValueSync key' values').2.setValueSync key values).1 = (v.setValueSync key values).1
    simp [Service.setValueSync, hv.left.1]
  right v hv := by
    show ((v.setValueSync key values).2.setValueSync key' values').1 =
      (v.setValueSync key' values').1
    simp [Service.setValueSync, hv.left.1]
  state v hv := by
    refine ⟨?_, hv.left, hv.left⟩
    show ((v.setValueSync key' values').2.setValueSync key values).2.store =
      ((v.setValueSync key values).2.setValueSync key' values').2.store
    simp [Service.setValueSync, hv.left.1, Function.update_comm hkey]

theorem movers : Movers VhalCall.serve SameStore Writes WritesAlone VhalCall.IsRead where
  toSimilarity := sameStore_similarity
  sub := writes_of_alone
  commute := by
    rintro role role' (key | ⟨key, values⟩) (key' | ⟨key', values'⟩) hne halone hwrites
    · cases role <;> exact halone.elim
    · cases role <;> exact halone.elim
    · cases role' <;> exact hwrites.elim
    · apply set_commuting
      rintro rfl
      cases role with
      | client =>
          obtain ⟨signal, hsignal, hkey⟩ := halone
          cases role' with
          | client => exact hne rfl
          | telemetry =>
              obtain ⟨c, hc⟩ := hwrites
              exact hsignal ((shared_key_iff signal c).1 (hkey.symm.trans hc)).1
          | _ => exact hwrites.elim
      | telemetry =>
          obtain ⟨c, hbattery, hc⟩ := halone
          cases role' with
          | client =>
              obtain ⟨signal, hkey⟩ := hwrites
              exact hbattery ((shared_key_iff signal c).1 (hkey.symm.trans hc)).2
          | telemetry => exact hne rfl
          | _ => exact hwrites.elim
      | _ => exact halone.elim
  hidden := by
    rintro (key | ⟨key, values⟩) v hread hv
    · exact ⟨rfl, hv.left, hv.left⟩
    · exact hread.elim

/-! ## The callbacks are reducible -/

/-- Of the requests of a message one is for the battery level. -/
theorem setAll_reducible {requests : List (Key × List Int32)}
    (hnodup : (requests.map Prod.fst).Nodup)
    (hkeys : ∀ request ∈ requests, ∃ signal : Signal, request.1 = signal.key) :
    (VhalProgram.setAll requests).Reducible (Writes .client) (WritesAlone .client) := by
  induction requests with
  | nil => trivial
  | cons request requests ih =>
      obtain ⟨hfirst, hnodup⟩ := List.nodup_cons.1 hnodup
      have hlater := fun other hmem => hkeys other (List.mem_cons_of_mem request hmem)
      obtain ⟨signal, hsignal⟩ := hkeys request List.mem_cons_self
      refine ⟨⟨signal, hsignal⟩, ?_⟩
      by_cases hbattery : signal = .batteryLevel
      · -- none of the other requests is for it
        refine Or.inr fun _ => (VhalProgram.setAll_calls requests).mono ?_
        rintro call ⟨other, hmem, rfl⟩
        obtain ⟨otherSignal, hother⟩ := hlater other hmem
        refine ⟨otherSignal, ?_, hother⟩
        rintro rfl
        refine hfirst (List.mem_map.2 ⟨other, hmem, ?_⟩)
        rw [hother, hsignal, hbattery]
      · exact Or.inl ⟨⟨signal, hbattery, hsignal⟩, fun _ => ih hnodup hlater⟩

theorem statusCallback_reducible (p : Platform) (c : ClientPtr) (buffer : List UInt8) :
    (Callback.statusCallback p c buffer).Reducible (Writes .client) (WritesAlone .client) := by
  unfold Callback.statusCallback
  split
  · rename_i state hdecode
    unfold Callback.processPrimaryVehicleState
    split
    · trivial
    · refine setAll_reducible (statusRequests_keys_nodup state) ?_
      rintro request hmem
      obtain ⟨signal, -, rfl⟩ := List.mem_map.1 hmem
      exact ⟨signal, rfl⟩
  · trivial

/-- A block of `applyControls` makes one call at most. -/
theorem applyControl_reducible (ptr : ClientPtr) (controls : Option JMap) (c : Control)
    (caches : Caches) :
    (Callback.applyControl ptr controls c caches).Reducible (Writes .telemetry)
      (WritesAlone .telemetry) := by
  unfold Callback.applyControl
  cases controls with
  | none => trivial
  | some controls =>
      simp only
      split
      · split
        · trivial
        · rename_i newValue hvalue
          split
          · have hset : (VhalProgram.setOne ptr c.propId 0 [newValue]).Reducible
                (Writes .telemetry) (WritesAlone .telemetry) := by
              unfold VhalProgram.setOne
              split
              · trivial
              · exact ⟨⟨c, rfl⟩, Or.inr fun _ => trivial⟩
            refine Program.Reducible.bind_calls ?_ (fun result => by cases result <;> trivial)
              (movers.sub .telemetry)
            unfold VhalProgram.setInt32
            split
            · trivial
            · exact hset.bind_calls (fun result => by split <;> trivial) (movers.sub .telemetry)
          · trivial
      · trivial

/-- Of the blocks of `applyControls` one is for the battery level. -/
theorem applyBlocks_reducible (ptr : ClientPtr) (controls : Option JMap) {cs : List Control}
    (hnodup : cs.Nodup) (caches : Caches) :
    (Callback.applyBlocks ptr controls cs caches).Reducible (Writes .telemetry)
      (WritesAlone .telemetry) := by
  induction cs generalizing caches with
  | nil => trivial
  | cons c cs ih =>
      obtain ⟨hfirst, hnodup⟩ := List.nodup_cons.1 hnodup
      by_cases hbattery : c = .battery
      · refine (applyControl_reducible ptr controls c caches).bind_calls ?_ (movers.sub .telemetry)
        rintro ⟨_ | _, caches⟩
        · trivial
        · refine applyBlocks_calls ptr controls cs caches fun other hmem _ _ _ _ => ⟨other, ?_, rfl⟩
          rintro rfl
          exact hfirst (hbattery ▸ hmem)
      · refine Program.Calls.bind_reducible (movers.sub .telemetry)
          (applyControl_calls ptr controls c caches fun _ _ _ _ => ⟨c, hbattery, rfl⟩) ?_
        rintro ⟨_ | _, caches⟩
        · trivial
        · exact ih hnodup caches

theorem onResponse_reducible (ptr : ClientPtr) (response : Response) (caches : Caches) :
    (Callback.onResponse ptr response caches).Reducible (Writes .telemetry)
      (WritesAlone .telemetry) := by
  have hcontrols : ∀ controls, (Callback.applyControls ptr controls caches).Reducible
      (Writes .telemetry) (WritesAlone .telemetry) := fun controls =>
    (applyBlocks_reducible ptr controls (by decide) caches).bind_calls (fun _ => trivial)
      (movers.sub .telemetry)
  unfold Callback.onResponse
  split
  · split
    · trivial
    · split
      · trivial
      · trivial
      · exact (hcontrols none).bind_calls (fun _ => trivial) (movers.sub .telemetry)
      · exact (hcontrols _).bind_calls (fun _ => trivial) (movers.sub .telemetry)
      · trivial
  · trivial

/-- An event of the client or of the service starts a program that the reduction allows. -/
theorem handle_allowed (p : Platform) {role : Role} (hrole : role.watches = false)
    (event : role.Event) :
    StartsAllowed (Role.handle p) Writes WritesAlone VhalCall.IsRead role event := by
  intro l program hhandle
  cases role with
  | client =>
      obtain rfl := Option.some.inj hhandle
      exact Or.inl ((statusCallback_reducible p l event).bind_calls (fun _ => trivial)
        (movers.sub .client))
  | telemetry =>
      cases event with
      | onCreate around =>
          simp only [Role.handle, TelemetryProcess.handle] at hhandle
          split at hhandle
          · cases hhandle
          · split at hhandle
            · obtain rfl := Option.some.inj hhandle
              exact Or.inl trivial
            · obtain rfl := Option.some.inj hhandle
              exact Or.inr ⟨_, (sendTelemetry_calls _ around).skips _⟩
      | response request response =>
          simp only [Role.handle, TelemetryProcess.handle] at hhandle
          split at hhandle
          · cases hhandle
          · split at hhandle
            · cases hhandle
            · obtain rfl := Option.some.inj hhandle
              refine Or.inl ((onResponse_reducible _ response _).bind_calls ?_
                (movers.sub .telemetry))
              rintro ⟨_ | _, caches⟩ <;> trivial
      | _ =>
          -- the other events start programs without calls
          simp only [Role.handle, TelemetryProcess.handle] at hhandle
          split at hhandle <;> first | cases hhandle; exact Or.inl trivial | cases hhandle
  | _ => cases hrole

/-! ## From whole programs to the models -/

/-- If the models do not take an event that the process takes, the process ends. -/
theorem Programs.step_none (p : Platform) {s : Programs} {role : Role} {event : role.Event}
    (h : s.step p ⟨role, event⟩ = none) {l : role.Local}
    {program : VhalProgram (Option role.Local)}
    (hwaiting : s.processes.processes role = .waiting l)
    (hhandle : role.handle p l event = some program) : (program.alone s.vhal).1 = none := by
  cases role with
  | client => cases h
  | telemetry =>
      cases hwaiting
      have hmatches := TelemetryProcess.handle_matches { s.telemetry with vhal := s.vhal } event
      have htaken : (TelemetryProcess.ofApp { s.telemetry with vhal := s.vhal }).handle event =
          some program := hhandle
      rw [htaken, Option.map_eq_none_iff.1 h] at hmatches
      exact congrArg Prod.fst hmatches
  | dashboard =>
      cases hwaiting
      have hmatches :=
        DashboardProcess.handle_matches { s.dashboard with native.vhal := s.vhal } event
      have htaken : (DashboardProcess.ofActivity { s.dashboard with native.vhal := s.vhal }).handle
          event = some program := hhandle
      rw [htaken, Option.map_eq_none_iff.1 h] at hmatches
      exact congrArg Prod.fst hmatches
  | shell n => cases h

/-- What the processes do in a sequence of events, each with all of its callback, the models
do, unless a process ends. -/
theorem Programs.run_of_whole (p : Platform) {events : List ((role : Role) × role.Event)}
    {s : Programs} {st : Processes}
    (h : runWhole (Role.handle p) VhalCall.serve events s.processes = some st) (hidle : st.Idle) :
    ∃ s', s.run p events = some s' ∧ s'.processes = st := by
  induction events generalizing s with
  | nil =>
      obtain rfl := Option.some.inj h
      exact ⟨s, rfl, rfl⟩
  | cons e events ih =>
      obtain ⟨between, hwhole, hlater⟩ := Option.bind_eq_some_iff.1 h
      obtain ⟨l, program, hwaiting, hhandle, rfl⟩ := wholeStep_cases hwhole
      cases hstep : s.step p e with
      | some s₁ =>
          obtain ⟨l₁, program₁, hwaiting₁, hhandle₁, hfinish⟩ := handle_step p hstep
          obtain rfl : l = l₁ := by
            rw [hwaiting] at hwaiting₁
            cases hwaiting₁
            rfl
          obtain rfl := Option.some.inj (hhandle.symm.trans hhandle₁)
          obtain ⟨s', hrun, hprocesses⟩ := ih (hfinish ▸ hlater)
          refine ⟨s', ?_, hprocesses⟩
          rw [Programs.run, PartialRuns.run_cons, hstep]
          exact hrun
      | none =>
          have hended : (s.processes.finish VhalCall.serve e.1 program).processes e.1 = .ended := by
            rw [CallPrograms.State.finish_processes_self]
            exact congrArg finished (Programs.step_none p hstep hwaiting hhandle)
          obtain ⟨l', hl'⟩ := hidle e.1
          rw [runWhole_ended hended hlater] at hl'
          cases hl'

/-! ## Every run of the writers -/

/-- **Callbacks in whole.**  Take a run of the processes from a state of the models, on a
VHAL without faults, without any `set` command and without a restart of the client or of
the service, and let both wait at its end.  Then the events of these two can be ordered,
each one's as they were, such that the models come to the same client, the same service
and the same store with whole callbacks. -/
theorem callbacks_atomic (p : Platform) (s : Programs) (actions : List ProcessAction)
    (st' : Processes) (hfaults : s.vhal.Faultless)
    (hlaunch : ∀ (role : Role) l, role.watches = false → .launch role l ∉ actions)
    (hoperator : ∀ key, NotOperated actions key)
    (hrun : runProcesses p actions s.processes = some st')
    (hwaits : ∀ role : Role, role.watches = false → ∃ l, st'.processes role = .waiting l) :
    ∃ events s', SameOrder events
        ((actions.filterMap Action.event).filter fun e => !e.1.watches) ∧
      s.run p events = some s' ∧
      (∀ role : Role, role.watches = false → s'.processes.processes role = st'.processes role) ∧
      s'.vhal.store = st'.service.store := by
  -- first without the dashboard and the shells
  have hreads : ∀ (role : Role) event, role.watches = true → Started actions role event →
      ReadsOnly p role event := by
    rintro role event hrole hstarted key values hset
    cases role with
    | client => cases hrole
    | telemetry => cases hrole
    | dashboard => exact hset
    | shell n =>
        obtain ⟨value, hcommand, -⟩ := hset
        exact hoperator key n event hstarted value hcommand
  have hself : Agree Role.watches SameButReads s.processes s.processes :=
    ⟨fun _ _ => rfl, rfl, hfaults.2⟩
  obtain ⟨next, hnext, hagree⟩ := erase (fun call v v' h => h.serve call) reads_invisible
    (fun role event hhidden hstarted =>
      readsOnly_startsCalls p (hreads role event hhidden hstarted))
    ((Programs.processes_idle s).calls _ _) hself hrun
  have hshown : ∀ action ∈ actions.filter fun action => !action.process.watches,
      action ∈ actions ∧ action.process.watches = false := by
    intro action hmem
    simpa using List.mem_filter.1 hmem
  have hidle : next.Idle := by
    intro role
    cases hrole : role.watches with
    | false =>
        obtain ⟨l, hl⟩ := hwaits role hrole
        exact ⟨l, (hagree.processes role hrole).symm.trans hl⟩
    | true =>
        -- nothing happens to the other processes
        obtain ⟨l, hl⟩ := Programs.processes_idle s role
        refine ⟨l, (run_processes_of_ne (fun action hmem heq => ?_) hnext).trans hl⟩
        have hwatches := (hshown action hmem).2
        rw [heq, hrole] at hwatches
        cases hwatches
  -- what is left is the same as whole callbacks
  obtain ⟨events, st'', horder, hwhole, hprocesses, hstore⟩ := reduce movers
    (fun role l hmem => hlaunch role l (hshown _ hmem).2 (hshown _ hmem).1)
    (fun role event hstarted => handle_allowed p (hshown _ hstarted).2 event)
    (Programs.processes_idle s).atRest ⟨rfl, hfaults, hfaults⟩ hnext hidle.atRest
  obtain ⟨s', hs', rfl⟩ := Programs.run_of_whole p hwhole fun role => by
    obtain ⟨l, hl⟩ := hidle role
    exact ⟨l, (hprocesses role).trans hl⟩
  refine ⟨events, s', ?_, hs', ?_, ?_⟩
  · rw [filterMap_event_filter fun role => !Role.watches role] at horder
    exact horder
  · intro role hrole
    exact (hprocesses role).trans (hagree.processes role hrole).symm
  · have hservice : st'.service.store = next.service.store := by
      rw [hagree.service.service]
    rw [hservice]
    exact hstore.store

/-- The service applies a response between the calls that the client makes for a message. -/
def crossing : List ProcessAction :=
  .start .telemetry (.onCreate ⟨0, none⟩) :: List.replicate 15 (.turn .telemetry) ++
    [.start .telemetry (.timer 0), .start .client [2, 16, 42], .turn .client,
      .start .telemetry (.response 0 (App.fullResponse 80))] ++
    List.replicate 5 (.turn .telemetry) ++ List.replicate 11 (.turn .client)

theorem crossing_atomic :
    ∃ events s', SameOrder events
        ((crossing.filterMap Action.event).filter fun e => !e.1.watches) ∧
      (Programs.launched 1 (fun _ => false) (.fresh fun _ => [])).run paddingPlatform events =
        some s' ∧
      (∀ role : Role, role.watches = false → s'.processes.processes role =
        ((runProcesses paddingPlatform crossing beforeMeeting).get rfl).processes role) ∧
      s'.vhal.store =
        ((runProcesses paddingPlatform crossing beforeMeeting).get rfl).service.store :=
  callbacks_atomic paddingPlatform (Programs.launched 1 (fun _ => false) (.fresh fun _ => []))
    crossing _ ⟨fun _ => rfl, fun _ => rfl⟩
    (by simp [crossing])
    (by
      intro key n i hstarted
      simp [Started, crossing] at hstarted)
    (Option.some_get rfl).symm
    (by
      intro role hrole
      cases role with
      | client => exact ⟨1, rfl⟩
      | telemetry => exact ⟨_, rfl⟩
      | _ => cases hrole)

end Vehicle
end Veos
