import Veos.Library.PartialRuns
import Veos.Telemetry.ControlRuns

/-!
# The polling of the telemetry service

One Android process in which the system creates and destroys instances of
`TelemetryService`.  `onCreate` connects to the VHAL, sends the telemetry and posts
the fetch task of the instance to the main looper.  The task issues a request and
posts itself again, without waiting for the response, so any number of requests can
be in flight and their responses can arrive in any order.

The VHAL handle is a static field of the process, shared by all instances.
`onDestroy` releases it and does nothing else: the posted task and the callbacks of
the requests in flight keep the instance.
-/

namespace Veos
namespace Telemetry

open Java Vhal

/-- An instance of the service. -/
structure Instance where
  caches : Caches
  /-- The set calls that it made after its own `onDestroy`. -/
  lateSets : List SetCall

/-- What can happen in the process.  Requests are numbered in the order in which they
are issued, instances in the order in which they are created. -/
inductive Event
  | onCreate (around : Surroundings)
  | onDestroy
  /-- The delay of an instance's posted task is over. -/
  | timer (owner : Nat)
  | response (request : Nat) (response : Response)
  | failure (request : Nat)

/-- The process. -/
structure App where
  instances : List Instance
  /-- The instance that is created and not destroyed. -/
  alive : Option Nat
  /-- The posted tasks, each by the instance that it belongs to. -/
  pendingTasks : List Nat
  issued : Nat
  /-- The requests without a response, each with the instance that issued it. -/
  inFlight : List (Nat × Nat)
  /-- The responses delivered so far. -/
  delivered : List (Nat × Response)
  clientPtr : ClientPtr
  clients : Clients
  vhal : Service

namespace App

/-- The process before its first service instance. -/
def launched (clients : Clients) (vhal : Service) : App where
  instances := []
  alive := none
  pendingTasks := []
  issued := 0
  inFlight := []
  delivered := []
  clientPtr := 0
  clients := clients
  vhal := vhal

/-- One event.  An event that the state does not admit has no successor, and neither
has one whose callback throws, which ends the process. -/
def step (a : App) : Event → Option App
  | .onCreate around =>
      if a.alive.isSome then none
      else
        match VhalNative.init a.clients with
        -- the exception leaves `onCreate`
        | (.error _, _, _) => none
        | (.ok _, clientPtr, clients) =>
            let owner := a.instances.length
            some { a with
              instances := a.instances ++ [{ caches := {}, lateSets := [] }]
              alive := some owner
              -- `startFetchingControls`
              pendingTasks := a.pendingTasks ++ [owner]
              clientPtr := clientPtr
              clients := clients
              vhal := (sendTelemetry clientPtr around a.vhal).2 }
  | .onDestroy =>
      if a.alive.isNone then none
      else
        let (clientPtr, clients) := VhalNative.release a.clientPtr a.clients
        some { a with alive := none, clientPtr := clientPtr, clients := clients }
  | .timer owner =>
      if owner ∈ a.pendingTasks then
        -- `fetchControls` issues a request, then the task is posted again
        some { a with
          pendingTasks := a.pendingTasks.erase owner ++ [owner]
          issued := a.issued + 1
          inFlight := a.inFlight ++ [(a.issued, owner)] }
      else none
  | .response request response =>
      match a.inFlight.lookup request with
      | none => none
      | some owner =>
          match a.instances[owner]? with
          | none => none
          | some inst =>
              match onResponse a.clientPtr response ⟨inst.caches, a.vhal⟩ with
              | (.error _, _) => none
              | (.ok _, t) =>
                  let sets := t.vhal.setsSince a.vhal
                  some { a with
                    instances := a.instances.set owner
                      { caches := t.caches
                        lateSets :=
                          if a.alive = some owner then inst.lateSets else inst.lateSets ++ sets }
                    inFlight := a.inFlight.filter fun entry => entry.1 ≠ request
                    delivered := a.delivered ++ [(request, response)]
                    vhal := t.vhal }
  | .failure request =>
      if (a.inFlight.lookup request).isSome then
        some { a with inFlight := a.inFlight.filter fun entry => entry.1 ≠ request }
      else none

/-- A sequence of events. -/
def run (events : List Event) (a : App) : Option App :=
  PartialRuns.run step events a

end App

/-! ## What each event does -/

theorem addReadings_extends (clientPtr : ClientPtr) (readings : List Reading) (payload : JMap)
    (v : Service) : Extends v [] (addReadings clientPtr readings payload v).2 := by
  induction readings generalizing payload v with
  | nil => exact Extends.refl v
  | cons reading readings ih =>
      have hreading : Extends v [] (addReading clientPtr payload reading 0 v).2 := by
        by_cases hptr : clientPtr = 0
        · subst hptr
          rw [addReading_null]
          exact Extends.refl v
        · rw [addReading_connected hptr]
          exact ⟨by simp, by simp, rfl, rfl, rfl⟩
      exact hreading.trans (ih _ _)

/-- Sending telemetry sets nothing. -/
theorem sendTelemetry_extends (clientPtr : ClientPtr) (around : Surroundings) (v : Service) :
    Extends v [] (sendTelemetry clientPtr around v).2 :=
  addReadings_extends clientPtr sweep _ v

namespace App

variable {a a' : App}

theorem step_onCreate {around : Surroundings} (h : a.step (.onCreate around) = some a') :
    a.alive = none ∧ ∃ clientPtr clients, clientPtr ≠ 0 ∧
      a' = { a with
        instances := a.instances ++ [{ caches := {}, lateSets := [] }]
        alive := some a.instances.length
        pendingTasks := a.pendingTasks ++ [a.instances.length]
        clientPtr := clientPtr
        clients := clients
        vhal := (sendTelemetry clientPtr around a.vhal).2 } := by
  simp only [step] at h
  split at h
  · cases h
  · rename_i halive
    refine ⟨by simpa using halive, ?_⟩
    split at h
    · cases h
    · rename_i _ clientPtr clients hinit
      refine ⟨clientPtr, clients, ?_, (Option.some.inj h).symm⟩
      rcases VhalNative.init_cases a.clients with ⟨-, hfailed⟩ | ⟨-, hconnected⟩
      · rw [hfailed] at hinit
        cases hinit
      · rw [hconnected] at hinit
        cases hinit
        exact Nat.succ_ne_zero _

theorem step_onDestroy (h : a.step .onDestroy = some a') :
    a.alive ≠ none ∧ a' = { a with
      alive := none
      clientPtr := (VhalNative.release a.clientPtr a.clients).1
      clients := (VhalNative.release a.clientPtr a.clients).2 } := by
  simp only [step] at h
  split at h
  · cases h
  · rename_i halive
    exact ⟨by simpa using halive, (Option.some.inj h).symm⟩

theorem step_timer {owner : Nat} (h : a.step (.timer owner) = some a') :
    owner ∈ a.pendingTasks ∧ a' = { a with
      pendingTasks := a.pendingTasks.erase owner ++ [owner]
      issued := a.issued + 1
      inFlight := a.inFlight ++ [(a.issued, owner)] } := by
  simp only [step] at h
  split at h
  · rename_i howner
    exact ⟨howner, (Option.some.inj h).symm⟩
  · cases h

theorem step_response {request : Nat} {response : Response}
    (h : a.step (.response request response) = some a') :
    ∃ owner inst t, a.inFlight.lookup request = some owner ∧ a.instances[owner]? = some inst ∧
      onResponse a.clientPtr response ⟨inst.caches, a.vhal⟩ = (.ok (), t) ∧
      a' = { a with
        instances := a.instances.set owner
          { caches := t.caches
            lateSets := if a.alive = some owner then inst.lateSets
              else inst.lateSets ++ t.vhal.setsSince a.vhal }
        inFlight := a.inFlight.filter fun entry => entry.1 ≠ request
        delivered := a.delivered ++ [(request, response)]
        vhal := t.vhal } := by
  simp only [step] at h
  split at h
  · cases h
  · rename_i owner howner
    split at h
    · cases h
    · rename_i inst hinst
      split at h
      · cases h
      · rename_i _ t hresponse
        exact ⟨owner, inst, t, howner, hinst, hresponse, (Option.some.inj h).symm⟩

theorem step_failure {request : Nat} (h : a.step (.failure request) = some a') :
    a' = { a with inFlight := a.inFlight.filter fun entry => entry.1 ≠ request } := by
  simp only [step] at h
  split at h
  · exact (Option.some.inj h).symm
  · cases h

end App

end Telemetry
end Veos
