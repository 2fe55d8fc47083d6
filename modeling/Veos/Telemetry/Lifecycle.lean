import Mathlib.Data.List.Range
import Veos.Telemetry.Polling

/-!
# Service instances and their fetch tasks

`onDestroy` does not take back the fetch task that `onCreate` posted.  Every instance
ever created therefore keeps exactly one task on the main looper (`Polls`), and an
instance that is gone still applies the responses that its requests get.

`onDestroy` does release the handle, so the process has one client while an instance is
alive and none otherwise (`run_connected`).

The dashboard's activity, which polls in the same way, removes its callbacks when it
is destroyed.
-/

namespace Veos
namespace Telemetry

open Java Vhal

namespace App

/-! ## The tasks -/

/-- Every instance has one task posted, and only the last one can be alive. -/
structure Polls (a : App) : Prop where
  tasks : a.pendingTasks.Perm (List.range a.instances.length)
  alive : ∀ owner, a.alive = some owner → owner + 1 = a.instances.length

theorem launched_polls (clients : Clients) (v : Service) : (launched clients v).Polls :=
  ⟨List.Perm.refl _, by simp [launched]⟩

theorem step_polls (a : App) (event : Event) (a' : App) (h : a.Polls)
    (hstep : a.step event = some a') : a'.Polls := by
  cases event with
  | onCreate around =>
      obtain ⟨-, clientPtr, clients, -, rfl⟩ := step_onCreate hstep
      constructor
      · simp only [List.length_append, List.length_singleton, List.range_succ]
        exact h.tasks.append_right _
      · intro owner howner
        simp only [Option.some.injEq] at howner
        simp [← howner]
  | onDestroy =>
      obtain ⟨-, rfl⟩ := step_onDestroy hstep
      exact ⟨h.tasks, by simp⟩
  | timer owner =>
      obtain ⟨hmem, rfl⟩ := step_timer hstep
      -- the task goes to the end of the queue
      refine ⟨List.Perm.trans ?_ h.tasks, h.alive⟩
      exact (List.perm_append_singleton owner _).trans (List.perm_cons_erase hmem).symm
  | response request response =>
      obtain ⟨owner, inst, t, -, -, -, rfl⟩ := step_response hstep
      exact ⟨by simpa using h.tasks, by simpa using h.alive⟩
  | failure request =>
      obtain rfl := step_failure hstep
      exact ⟨h.tasks, h.alive⟩

theorem run_polls {events : List Event} {clients : Clients} {v : Service} {a : App}
    (hrun : run events (launched clients v) = some a) : a.Polls :=
  PartialRuns.invariant step_polls (launched_polls clients v) hrun

/-- There are as many tasks as instances were created. -/
theorem Polls.pendingTasks_length {a : App} (h : a.Polls) :
    a.pendingTasks.length = a.instances.length := by
  rw [h.tasks.length_eq, List.length_range]

/-! ## Without a handle -/

/-- While no instance is alive the process holds no handle. -/
def Released (a : App) : Prop := a.alive = none → a.clientPtr = 0

theorem step_released (a : App) (event : Event) (a' : App) (h : a.Released)
    (hstep : a.step event = some a') : a'.Released := by
  cases event with
  | onCreate around =>
      obtain ⟨-, clientPtr, clients, -, rfl⟩ := step_onCreate hstep
      simp [Released]
  | onDestroy =>
      obtain ⟨-, rfl⟩ := step_onDestroy hstep
      intro _
      rw [VhalNative.release_eq]
  | timer owner =>
      obtain ⟨-, rfl⟩ := step_timer hstep
      exact h
  | response request response =>
      obtain ⟨owner, inst, t, -, -, -, rfl⟩ := step_response hstep
      exact h
  | failure request =>
      obtain rfl := step_failure hstep
      exact h

/-- Between the end of an instance and the creation of the next one no set call is
made: a late response finds no handle. -/
theorem run_sets_of_not_alive {events : List Event} {clients : Clients} {v : Service}
    {a a' : App} (hrun : run events (launched clients v) = some a) (halive : a.alive = none)
    (event : Event) (hevent : ∀ around, event ≠ .onCreate around) (hstep : a.step event = some a') :
    a'.vhal.sets = a.vhal.sets := by
  have hreleased : a.Released :=
    PartialRuns.invariant step_released (fun _ => rfl) hrun
  cases event with
  | onCreate around => exact absurd rfl (hevent around)
  | onDestroy =>
      obtain ⟨-, rfl⟩ := step_onDestroy hstep
      rfl
  | timer owner =>
      obtain ⟨-, rfl⟩ := step_timer hstep
      rfl
  | response request response =>
      obtain ⟨owner, inst, t, -, -, hresponse, rfl⟩ := step_response hstep
      rw [hreleased halive] at hresponse
      have hnull := onResponse_null response ⟨inst.caches, a.vhal⟩
      rw [hresponse] at hnull
      exact congrArg (fun t => t.vhal.sets) hnull
  | failure request =>
      obtain rfl := step_failure hstep
      rfl

/-! ## Runs without a destroyed instance -/

/-- No instance was destroyed: all that exist are alive, and none has made a set call
after its end. -/
structure Intact (a : App) : Prop where
  alive : ∀ owner, owner < a.instances.length → a.alive = some owner
  lateSets : ∀ inst ∈ a.instances, inst.lateSets = []

theorem launched_intact (clients : Clients) (v : Service) : (launched clients v).Intact :=
  ⟨by simp [launched], by simp [launched]⟩

theorem step_intact (a : App) (event : Event) (a' : App) (h : a.Intact)
    (hevent : event ≠ .onDestroy) (hstep : a.step event = some a') : a'.Intact := by
  cases event with
  | onCreate around =>
      obtain ⟨halive, clientPtr, clients, -, rfl⟩ := step_onCreate hstep
      -- an earlier instance would still be alive
      have hnone : a.instances = [] := by
        apply List.eq_nil_of_length_eq_zero
        apply Nat.eq_zero_of_not_pos
        intro hpos
        rw [h.alive 0 hpos] at halive
        cases halive
      constructor
      · intro owner howner
        simp only [hnone, List.nil_append, List.length_singleton, List.length_nil] at howner ⊢
        rw [Nat.lt_one_iff.1 howner]
      · simp [hnone]
  | onDestroy => exact absurd rfl hevent
  | timer owner =>
      obtain ⟨-, rfl⟩ := step_timer hstep
      exact ⟨h.alive, h.lateSets⟩
  | response request response =>
      obtain ⟨owner, inst, t, -, hinst, -, rfl⟩ := step_response hstep
      obtain ⟨howner, hget⟩ := List.getElem?_eq_some_iff.1 hinst
      refine ⟨by simpa using h.alive, ?_⟩
      intro other hother
      rcases List.mem_or_eq_of_mem_set hother with hmem | rfl
      · exact h.lateSets other hmem
      · simp only [h.alive owner howner, if_true]
        exact h.lateSets inst (hget ▸ List.getElem_mem howner)
  | failure request =>
      obtain rfl := step_failure hstep
      exact ⟨h.alive, h.lateSets⟩

theorem run_intact {events : List Event} (hevents : Event.onDestroy ∉ events)
    {clients : Clients} {v : Service} {a : App}
    (hrun : run events (launched clients v) = some a) : a.Intact :=
  PartialRuns.invariant_of_forall (fun event => event ≠ Event.onDestroy) step_intact
    (fun _ hmem heq => hevents (heq ▸ hmem)) (launched_intact clients v) hrun

/-! ## The lifecycle -/

/-- One task is posted while an instance is alive and none otherwise, and no instance
has made a set call after its own `onDestroy`. -/
structure Clean (a : App) : Prop where
  tasks : a.pendingTasks.length = if a.alive.isSome then 1 else 0
  lateSets : ∀ inst ∈ a.instances, inst.lateSets = []

/-- Without a destroyed instance the process is clean. -/
theorem Intact.clean {a : App} (h : a.Intact) (hpolls : a.Polls) : a.Clean := by
  refine ⟨?_, h.lateSets⟩
  rw [hpolls.pendingTasks_length]
  cases halive : a.alive with
  | none =>
      apply Nat.eq_zero_of_not_pos
      intro hpos
      rw [h.alive 0 hpos] at halive
      cases halive
  | some owner =>
      have hlast := hpolls.alive owner halive
      have hfirst := h.alive 0 (by omega)
      rw [halive, Option.some.injEq] at hfirst
      simp only [Option.isSome_some, if_true]
      omega

/-- Right after an `onDestroy` the process is not clean: the task of the instance is
still posted. -/
theorem step_onDestroy_not_clean {a a' : App} (h : a.Polls) (hstep : a.step .onDestroy = some a') :
    ¬ a'.Clean := by
  have hpolls := step_polls a .onDestroy a' h hstep
  obtain ⟨halive, rfl⟩ := step_onDestroy hstep
  intro hclean
  obtain ⟨owner, howner⟩ := Option.ne_none_iff_exists'.1 halive
  have hlast := h.alive owner howner
  have hlength := hclean.tasks.symm.trans hpolls.pendingTasks_length
  simp only [Option.isSome_none, Bool.false_eq_true, if_false] at hlength
  omega

/-- **The lifecycle of the polling.**  In a run of the process, every state on the way
is clean exactly when the run destroys no instance. -/
theorem run_clean_iff (clients : Clients) (v : Service) (events : List Event) (a : App)
    (hrun : run events (launched clients v) = some a) :
    (∀ before after a', events = before ++ after → run before (launched clients v) = some a' →
      a'.Clean) ↔ Event.onDestroy ∉ events := by
  constructor
  · intro hclean hmem
    obtain ⟨before, after, rfl⟩ := List.append_of_mem hmem
    -- cut the run right after the destruction
    have hcut : before ++ Event.onDestroy :: after = (before ++ [.onDestroy]) ++ after := by simp
    rw [hcut] at hrun hclean
    obtain ⟨destroyed, hdestroyed, -⟩ := (PartialRuns.run_append_eq_some_iff step).1 hrun
    obtain ⟨alive, halive, hstep⟩ := (PartialRuns.run_append_eq_some_iff step).1 hdestroyed
    rw [PartialRuns.run_singleton] at hstep
    exact step_onDestroy_not_clean (run_polls halive) hstep
      (hclean (before ++ [Event.onDestroy]) after destroyed rfl hdestroyed)
  · rintro hevents before after a' rfl hbefore
    have hquiet : Event.onDestroy ∉ before := fun hmem =>
      hevents (List.mem_append_left after hmem)
    exact (run_intact hquiet hbefore).clean (run_polls hbefore)

/-- A process whose connections to the VHAL succeed. -/
def connected : App := launched ⟨[], 0, fun _ => false⟩ (.fresh fun _ => [])

/-- A run without a destruction. -/
theorem created_clean :
    ((run [.onCreate ⟨0, none⟩, .timer 0] connected).get rfl).Clean :=
  (run_clean_iff ⟨[], 0, fun _ => false⟩ (.fresh fun _ => []) [.onCreate ⟨0, none⟩, .timer 0] _
    (Option.some_get rfl).symm).2 (by simp) [.onCreate ⟨0, none⟩, .timer 0] [] _ rfl
    (Option.some_get rfl).symm

/-- A response that asks for the battery level 90. -/
def ninetyResponse : Response :=
  ⟨200, some [("results", .list [.map [("veos_ev_battery_level", .number (.integer 90))]])]⟩

/-- After a restart two tasks are posted, and a response to a request of the first
instance still makes it write. -/
theorem restarted_not_clean :
    ((run [.onCreate ⟨0, none⟩, .onDestroy] connected).map fun a => a.pendingTasks) = some [0] ∧
    ((run [.onCreate ⟨0, none⟩, .onDestroy, .onCreate ⟨0, none⟩] connected).map
      fun a => a.pendingTasks) = some [0, 1] ∧
    ((run [.onCreate ⟨0, none⟩, .timer 0, .onDestroy, .onCreate ⟨0, none⟩,
      .response 0 ninetyResponse] connected).map fun a => a.instances.map Instance.lateSets) =
        some [[⟨Control.battery.key, [90], none⟩], []] := by
  decide +kernel

/-! ## The client of the process -/

/-- The process has the client of the alive instance and no other, and its handle. -/
structure Connected (a : App) : Prop where
  live : a.clients.live = if a.alive.isSome then [a.clientPtr] else []
  handle : a.clientPtr ≠ 0 ↔ a.alive.isSome = true

theorem init_live {clients clients' : Clients} {clientPtr : ClientPtr}
    (h : VhalNative.init clients = (.ok (), clientPtr, clients')) :
    clientPtr ≠ 0 ∧ clients'.live = clientPtr :: clients.live := by
  rcases VhalNative.init_cases clients with ⟨-, hfailed⟩ | ⟨-, hconnected⟩
  · rw [hfailed] at h
    cases h
  · rw [hconnected] at h
    cases h
    exact ⟨Nat.succ_ne_zero _, rfl⟩

theorem step_connected (a : App) (event : Event) (a' : App) (h : a.Connected)
    (hstep : a.step event = some a') : a'.Connected := by
  cases event with
  | onCreate around =>
      simp only [step] at hstep
      split at hstep
      · cases hstep
      · rename_i halive
        split at hstep
        · cases hstep
        · rename_i _ clientPtr clients hinit
          obtain rfl := Option.some.inj hstep
          obtain ⟨hptr, hlive⟩ := init_live hinit
          -- there was no client before
          rw [h.live, if_neg halive] at hlive
          exact ⟨by simpa using hlive, by simpa using hptr⟩
  | onDestroy =>
      obtain ⟨halive, rfl⟩ := step_onDestroy hstep
      have hsome : a.alive.isSome = true := Option.isSome_iff_ne_none.2 halive
      have hptr := h.handle.2 hsome
      have hlive := h.live
      rw [if_pos hsome] at hlive
      rw [VhalNative.release_eq]
      exact ⟨by simp [vhalDisconnect, hptr, hlive], by simp⟩
  | timer owner =>
      obtain ⟨-, rfl⟩ := step_timer hstep
      exact ⟨h.live, h.handle⟩
  | response request response =>
      obtain ⟨owner, inst, t, -, -, -, rfl⟩ := step_response hstep
      exact ⟨h.live, h.handle⟩
  | failure request =>
      obtain rfl := step_failure hstep
      exact ⟨h.live, h.handle⟩

/-- **The process never leaks a client.**  After any run it is connected exactly while an
instance is alive, with one client, whose handle is the one in the class.  A set call is
made only then, so through a client that is connected. -/
theorem run_connected (clients : Clients) (hclients : clients.live = []) (v : Service)
    (events : List Event) (a : App) (hrun : run events (launched clients v) = some a) :
    a.clients.live = (if a.alive.isSome then [a.clientPtr] else []) ∧
    (a.clientPtr ≠ 0 ↔ a.alive.isSome = true) ∧
    ∀ event a', a.step event = some a' → a'.vhal.sets ≠ a.vhal.sets →
      a.clientPtr ∈ a.clients.live := by
  have hlaunched : (launched clients v).Connected :=
    ⟨by simpa [launched] using hclients, by simp [launched]⟩
  have h : a.Connected := PartialRuns.invariant step_connected hlaunched hrun
  refine ⟨h.live, h.handle, fun event a' hstep hsets => ?_⟩
  have halive : a.alive.isSome = true := by
    by_contra hnone
    apply hsets
    cases event with
    | onCreate around =>
        obtain ⟨-, clientPtr, clients, -, rfl⟩ := step_onCreate hstep
        simpa using (sendTelemetry_extends clientPtr around a.vhal).sets
    | _ => exact run_sets_of_not_alive hrun (by simpa using hnone) _ (by simp) hstep
  rw [h.live, if_pos halive]
  exact List.mem_singleton_self _

/-- After a restart the process has one client, the second one. -/
theorem restarted_connected :
    ((run [.onCreate ⟨0, none⟩, .onDestroy, .onCreate ⟨0, none⟩] connected).get
      rfl).clients.live = [2] :=
  (run_connected ⟨[], 0, fun _ => false⟩ rfl (.fresh fun _ => [])
    [.onCreate ⟨0, none⟩, .onDestroy, .onCreate ⟨0, none⟩] _ (Option.some_get rfl).symm).1

end App

end Telemetry
end Veos
