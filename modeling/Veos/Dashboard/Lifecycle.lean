import Veos.Dashboard.MainActivity
import Veos.Library.PartialRuns
import Veos.Vhal.HandleRuns

/-!
# Instances of the dashboard's activity

One process in which the system creates and destroys instances of `MainActivity`.
`onCreate` initializes the class `VhalNative` and posts the update task of the instance,
which posts itself again each time it has run.

`onDestroy` removes the posted task, so an update is posted exactly while an instance is
alive (`run_postsOnce`).  It does not release the handle: the next `onCreate`
overwrites it, and the client behind it stays connected with nothing that refers to it.
-/

namespace Veos
namespace Dashboard

open Vhal

/-- What can happen in the process. -/
inductive ActivityEvent
  | onCreate
  | onDestroy
  /-- The delay of an instance's posted task is over. -/
  | update (owner : Nat)
  deriving DecidableEq

/-- The process.  Instances are numbered in the order in which they are created. -/
structure ActivityProcess where
  created : Nat
  /-- The instance that is created and not destroyed. -/
  alive : Option Nat
  /-- The posted tasks, each by the instance that it belongs to. -/
  pendingUpdates : List Nat
  /-- The views of the latest instance. -/
  views : Views
  native : NativeState

namespace ActivityProcess

/-- The process before its first activity. -/
def launched (createFails : Nat → Bool) (vhal : Service) : ActivityProcess where
  created := 0
  alive := none
  pendingUpdates := []
  views := .initial
  native := .loaded createFails vhal

/-- One event.  An exception that leaves `onCreate` ends the process. -/
def step (a : ActivityProcess) : ActivityEvent → Option ActivityProcess
  | .onCreate =>
      if a.alive.isSome then none
      else
        let (init, native) := perform a.native .init
        if init.thrown.isSome then none
        else
          some {
            created := a.created + 1
            alive := some a.created
            -- `startVehicleDataUpdates`
            pendingUpdates := a.pendingUpdates ++ [a.created]
            views := .initial
            native := native }
  | .onDestroy =>
      match a.alive with
      | none => none
      | some owner =>
          -- `removeCallbacksAndMessages`
          some { a with
            alive := none
            pendingUpdates := a.pendingUpdates.filter fun other => other ≠ owner }
  | .update owner =>
      if owner ∈ a.pendingUpdates then
        let (_, views, vhal) := updateVehicleData a.native.clientPtr a.views a.native.vhal
        some { a with
          pendingUpdates := a.pendingUpdates.erase owner ++ [owner]
          views := views
          native.vhal := vhal }
      else none

/-- A sequence of events. -/
def run (events : List ActivityEvent) (a : ActivityProcess) : Option ActivityProcess :=
  PartialRuns.run step events a

/-! ## What each event does -/

variable {a a' : ActivityProcess}

theorem step_onCreate (h : a.step .onCreate = some a') :
    a.alive = none ∧ (perform a.native .init).2.clientPtr ≠ 0 ∧ a' = {
      created := a.created + 1
      alive := some a.created
      pendingUpdates := a.pendingUpdates ++ [a.created]
      views := .initial
      native := (perform a.native .init).2 } := by
  simp only [step] at h
  split at h
  · cases h
  · rename_i halive
    split at h
    · cases h
    · rename_i hthrown
      refine ⟨by simpa using halive, ?_, (Option.some.inj h).symm⟩
      rcases perform_init a.native with ⟨e, hinit⟩ | hinit
      · rw [hinit] at hthrown
        exact absurd rfl hthrown
      · rw [hinit]
        exact Nat.succ_ne_zero _

theorem step_onDestroy (h : a.step .onDestroy = some a') :
    ∃ owner, a.alive = some owner ∧ a' = { a with
      alive := none
      pendingUpdates := a.pendingUpdates.filter fun other => other ≠ owner } := by
  simp only [step] at h
  split at h
  · cases h
  · rename_i owner halive
    exact ⟨owner, halive, (Option.some.inj h).symm⟩

theorem step_update {owner : Nat} (h : a.step (.update owner) = some a') :
    owner ∈ a.pendingUpdates ∧ ∃ views vhal, a' = { a with
      pendingUpdates := a.pendingUpdates.erase owner ++ [owner]
      views := views
      native.vhal := vhal } := by
  simp only [step] at h
  split at h
  · rename_i howner
    exact ⟨howner, _, _, (Option.some.inj h).symm⟩
  · cases h

theorem step_update_views {owner : Nat} (h : a.step (.update owner) = some a') :
    owner ∈ a.pendingUpdates ∧
      a'.views = (updateVehicleData a.native.clientPtr a.views a.native.vhal).2.1 := by
  simp only [step] at h
  split at h
  · rename_i howner
    exact ⟨howner, (Option.some.inj h) ▸ rfl⟩
  · cases h

/-! ## Posted updates -/

/-- One update is posted while an instance is alive, and none otherwise. -/
def PostsOnce (a : ActivityProcess) : Prop := a.pendingUpdates = a.alive.toList

theorem step_postsOnce (a : ActivityProcess) (event : ActivityEvent) (a' : ActivityProcess)
    (h : a.PostsOnce) (hstep : a.step event = some a') : a'.PostsOnce := by
  unfold PostsOnce at h ⊢
  cases event with
  | onCreate =>
      obtain ⟨halive, -, rfl⟩ := step_onCreate hstep
      simp [h, halive]
  | onDestroy =>
      obtain ⟨owner, halive, rfl⟩ := step_onDestroy hstep
      simp [h, halive]
  | update owner =>
      obtain ⟨howner, views, vhal, rfl⟩ := step_update hstep
      cases halive : a.alive with
      | none => simp [h, halive] at howner
      | some alive =>
          have hsame : owner = alive := by simpa [h, halive] using howner
          simp [h, halive, hsame]

theorem run_postsOnce {events : List ActivityEvent} {createFails : Nat → Bool} {vhal : Service}
    (hrun : run events (launched createFails vhal) = some a) : a.PostsOnce := by
  have hlaunched : (launched createFails vhal).PostsOnce := rfl
  exact PartialRuns.invariant step_postsOnce hlaunched hrun

/-! ## Leaked clients -/

/-- The class holds the client of the latest instance, and no other is connected as long
as there was but one instance. -/
structure Held (a : ActivityProcess) : Prop where
  sound : ∃ past, Sound past a.native
  handle : a.native.clientPtr = 0 ↔ a.created = 0
  noLeak : a.created ≤ 1 → a.native.NoLeak

theorem launched_held (createFails : Nat → Bool) (vhal : Service) :
    (launched createFails vhal).Held :=
  ⟨⟨[], loaded_sound createFails vhal⟩, by simp [launched, NativeState.loaded],
    fun _ => loaded_noLeak createFails vhal⟩

theorem step_held (a : ActivityProcess) (event : ActivityEvent) (a' : ActivityProcess)
    (h : a.Held) (hstep : a.step event = some a') : a'.Held := by
  obtain ⟨past, hsound⟩ := h.sound
  cases event with
  | onCreate =>
      obtain ⟨-, hptr, rfl⟩ := step_onCreate hstep
      refine ⟨⟨_, perform_sound past a.native .init hsound⟩, by simpa using hptr, ?_⟩
      intro hcreated
      have hfirst : a.created = 0 := by simpa using hcreated
      exact perform_noLeak hsound (h.noLeak (by omega)) fun _ => h.handle.2 hfirst
  | onDestroy =>
      obtain ⟨owner, -, rfl⟩ := step_onDestroy hstep
      exact ⟨h.sound, h.handle, h.noLeak⟩
  | update owner =>
      obtain ⟨-, views, vhal, rfl⟩ := step_update hstep
      exact ⟨⟨past, hsound.current, hsound.issued, hsound.matched, hsound.once, hsound.live,
        hsound.nodup⟩, h.handle, h.noLeak⟩

theorem run_held {events : List ActivityEvent} {createFails : Nat → Bool} {vhal : Service}
    (hrun : run events (launched createFails vhal) = some a) : a.Held :=
  PartialRuns.invariant step_held (launched_held createFails vhal) hrun

/-- An instance that is alive was created. -/
def LiveCreated (a : ActivityProcess) : Prop := a.alive ≠ none → a.created ≠ 0

theorem step_liveCreated (a : ActivityProcess) (event : ActivityEvent) (a' : ActivityProcess)
    (h : a.LiveCreated) (hstep : a.step event = some a') : a'.LiveCreated := by
  cases event with
  | onCreate =>
      obtain ⟨-, -, rfl⟩ := step_onCreate hstep
      exact fun _ => Nat.succ_ne_zero a.created
  | onDestroy =>
      obtain ⟨owner, -, rfl⟩ := step_onDestroy hstep
      exact fun halive => absurd rfl halive
  | update owner =>
      obtain ⟨-, views, vhal, rfl⟩ := step_update hstep
      exact h

/-- An update that is posted finds a handle. -/
theorem clientPtr_ne_zero_of_posted {events : List ActivityEvent} {createFails : Nat → Bool}
    {vhal : Service} (hrun : run events (launched createFails vhal) = some a) {owner : Nat}
    (howner : owner ∈ a.pendingUpdates) : a.native.clientPtr ≠ 0 := by
  have hlaunched : (launched createFails vhal).LiveCreated := fun halive => absurd rfl halive
  have hcreated : a.LiveCreated := PartialRuns.invariant step_liveCreated hlaunched hrun
  have hposts : a.pendingUpdates = a.alive.toList := run_postsOnce hrun
  have halive : a.alive ≠ none := by
    intro hnone
    simp [hposts, hnone] at howner
  exact fun hnull => hcreated halive ((run_held hrun).handle.1 hnull)

theorem step_created (h : a.step event = some a') :
    a'.created = a.created + [event].count .onCreate := by
  cases event with
  | onCreate =>
      obtain ⟨-, -, rfl⟩ := step_onCreate h
      rfl
  | onDestroy =>
      obtain ⟨owner, -, rfl⟩ := step_onDestroy h
      rfl
  | update owner =>
      obtain ⟨-, views, vhal, rfl⟩ := step_update h
      rfl

theorem run_created {events : List ActivityEvent} (hrun : run events a = some a') :
    a'.created = a.created + events.count .onCreate := by
  induction events generalizing a with
  | nil =>
      cases hrun
      rfl
  | cons event events ih =>
      obtain ⟨next, hnext, hrest⟩ := Option.bind_eq_some_iff.1 hrun
      have hcount : (event :: events).count .onCreate =
          [event].count .onCreate + events.count .onCreate := by
        rw [← List.count_append]
        rfl
      rw [ih hrest, step_created hnext, hcount, Nat.add_assoc]

/-- Of two creations one comes after the other. -/
theorem exists_later_creation {events : List ActivityEvent}
    (hcount : 1 < events.count .onCreate) :
    ∃ before rest, events = before ++ .onCreate :: rest ∧ before.count .onCreate ≠ 0 := by
  induction events with
  | nil => simp at hcount
  | cons event events ih =>
      by_cases htail : 1 < events.count .onCreate
      · obtain ⟨before, rest, rfl, hbefore⟩ := ih htail
        refine ⟨event :: before, rest, rfl, ?_⟩
        rw [List.count_cons]
        omega
      · rw [List.count_cons] at hcount
        have hevent : event = .onCreate := by
          by_contra hne
          simp only [beq_iff_eq, hne, if_false] at hcount
          omega
        subst hevent
        have hmem : ActivityEvent.onCreate ∈ events := by
          apply List.count_pos_iff.1
          simp only [beq_self_eq_true, if_true] at hcount
          omega
        obtain ⟨before, rest, rfl⟩ := List.append_of_mem hmem
        exact ⟨.onCreate :: before, rest, rfl, by simp⟩

/-- **Leaked clients.**  In a run of the class `VhalNative` nothing leaks at any time,
exactly when every `init` finds the class without a handle.  In a run of the dashboard,
whose activities never release it, nothing leaks exactly when there is at most one
`onCreate`. -/
theorem noLeak_iff (createFails : Nat → Bool) (vhal : Service) :
    (∀ operations : List Operation,
      (∀ before rest, operations = before ++ rest →
        (after before (.loaded createFails vhal)).NoLeak) ↔
      ∀ before rest, operations = before ++ .init :: rest →
        (after before (.loaded createFails vhal)).clientPtr = 0) ∧
    ∀ (events : List ActivityEvent) (a : ActivityProcess),
      run events (launched createFails vhal) = some a →
      ((∀ before rest a', events = before ++ rest →
        run before (launched createFails vhal) = some a' → a'.native.NoLeak) ↔
      events.count .onCreate ≤ 1) := by
  refine ⟨operations_noLeak_iff createFails vhal, ?_⟩
  intro events a hrun
  constructor
  · intro hall
    by_contra hcount
    obtain ⟨before, rest, rfl, hbefore⟩ := exists_later_creation (Nat.not_le.1 hcount)
    -- cut the run right after the later creation
    have hcut : before ++ ActivityEvent.onCreate :: rest = (before ++ [.onCreate]) ++ rest := by
      simp
    rw [hcut] at hrun hall
    obtain ⟨second, hsecond, -⟩ := (PartialRuns.run_append_eq_some_iff step).1 hrun
    have hnoLeak := hall (before ++ [ActivityEvent.onCreate]) rest second rfl hsecond
    obtain ⟨first, hfirst, hstep⟩ := (PartialRuns.run_append_eq_some_iff step).1 hsecond
    rw [PartialRuns.run_singleton] at hstep
    obtain ⟨-, -, rfl⟩ := step_onCreate hstep
    have hheld := run_held hfirst
    obtain ⟨past, hsound⟩ := hheld.sound
    apply init_leaks hsound _ hnoLeak
    rw [ne_eq, hheld.handle, run_created hfirst]
    simpa [launched] using hbefore
  · rintro hcount before rest a' rfl hbefore
    apply (run_held hbefore).noLeak
    rw [run_created hbefore]
    rw [List.count_append] at hcount
    simp only [launched]
    omega

/-- One activity, created and destroyed, leaks nothing. -/
theorem single_activity_noLeak :
    ((run [.onCreate, .onDestroy] (launched (fun _ => false) (.fresh fun _ => []))).get
      rfl).native.NoLeak :=
  ((noLeak_iff (fun _ => false) (.fresh fun _ => [])).2 [.onCreate, .onDestroy] _
    (Option.some_get rfl).symm).2 (by decide) [.onCreate, .onDestroy] [] _ rfl
    (Option.some_get rfl).symm

/-- A second `init` leaks the first client, whether it connects or fails, and so does the
second activity of the dashboard. -/
theorem clients_leak :
    ¬ (after [.init, .init] (.loaded (fun _ => false) (.fresh fun _ => []))).NoLeak ∧
    (let s := after [.init, .init] (.loaded (fun attempt => attempt = 1) (.fresh fun _ => []))
     s.clientPtr = 0 ∧ s.clients.live = [1]) ∧
    (run [.onCreate, .onDestroy, .onCreate] (launched (fun _ => false) (.fresh fun _ => []))).map
      (fun a => (a.native.clientPtr, a.native.clients.live)) = some (2, [2, 1]) := by
  decide

end ActivityProcess

end Dashboard
end Veos
