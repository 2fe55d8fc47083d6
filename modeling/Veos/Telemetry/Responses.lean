import Veos.Telemetry.Polling

/-!
# Responses out of order

A service instance issues a request every five seconds and applies each response when
it arrives.  A response does not say which request it belongs to, and the instance does
not remember.  On a VHAL without faults, and with responses that hold a number for
every control, the instance ends with the values of the response that was delivered
last, which need not be the one to the request that was issued last.
-/

namespace Veos
namespace Telemetry

open Java Vhal

/-- The response has a reading that asks for exactly the values of `caches`. -/
def Carries (response : Response) (caches : Caches) : Prop :=
  response.isSuccessful = true ∧ ∃ body reading others, response.body = some body ∧
    body.get "results" = .list (.map reading :: others) ∧
    ∀ c, requested (some reading) c = some (.ok (caches.get c))

theorem Carries.unique {response : Response} {caches caches' : Caches}
    (h : Carries response caches) (h' : Carries response caches') : caches = caches' := by
  obtain ⟨-, body, reading, others, hbody, hresults, hvalues⟩ := h
  obtain ⟨-, body', reading', others', hbody', hresults', hvalues'⟩ := h'
  obtain rfl : body = body' := Option.some.inj (hbody.symm.trans hbody')
  have hreadings := hresults.symm.trans hresults'
  simp only [JObject.list.injEq, List.cons.injEq, JObject.map.injEq] at hreadings
  obtain ⟨rfl, -⟩ := hreadings
  apply Caches.ext_get
  intro c
  simpa using (hvalues c).symm.trans (hvalues' c)

/-- Such a response leaves its values in the caches. -/
theorem onResponse_carries {ptr : ClientPtr} (hptr : ptr ≠ 0) {response : Response}
    {caches : Caches} (hcarries : Carries response caches) {t : ServiceState}
    (hv : t.vhal.Faultless) :
    (onResponse ptr response t).2.caches = caches ∧
      (onResponse ptr response t).2.vhal.Faultless := by
  obtain ⟨hsuccessful, body, reading, others, hbody, hresults, hvalues⟩ := hcarries
  have hcompleted := applyControls_completes hptr (fun c => ⟨_, hvalues c⟩) hv
  obtain ⟨sets, hspec⟩ := applyControls_spec ptr (some reading) t
  have hresponse : (onResponse ptr response t).2 = (applyControls ptr (some reading) t).2 := by
    simp [onResponse, hsuccessful, hbody, hresults]
  rw [hresponse]
  refine ⟨?_, hspec.extends_vhal.faultless hv⟩
  apply Caches.ext_get
  intro c
  rw [hcompleted] at hspec
  rcases hspec.applied_of_completed c with ⟨hnone, -⟩ | ⟨value, hvalue, hcache, -⟩
  · rw [hvalues c] at hnone
    cases hnone
  · rw [hvalues c] at hvalue
    simp only [Option.some.injEq, Except.ok.injEq] at hvalue
    rw [hcache, ← hvalue]

/-- The events of one living instance, with responses that hold all five numbers. -/
def Event.Fetches : Event → Prop
  | .onCreate _ => False
  | .onDestroy => False
  | .timer _ => True
  | .response _ reply => ∃ caches, Carries reply caches
  | .failure _ => True

namespace App

/-- One connected instance, whose caches are those of the response delivered last. -/
structure Serving (a : App) (inst : Instance) : Prop where
  instances : a.instances = [inst]
  clientPtr : a.clientPtr ≠ 0
  faultless : a.vhal.Faultless
  caches : match a.delivered.getLast? with
    | none => inst.caches = {}
    | some last => Carries last.2 inst.caches

theorem step_serving (a : App) (event : Event) (a' : App) (h : ∃ inst, a.Serving inst)
    (hevent : event.Fetches) (hstep : a.step event = some a') : ∃ inst, a'.Serving inst := by
  obtain ⟨inst, h⟩ := h
  cases event with
  | onCreate around => exact hevent.elim
  | onDestroy => exact hevent.elim
  | timer owner =>
      obtain ⟨-, rfl⟩ := step_timer hstep
      exact ⟨inst, h.instances, h.clientPtr, h.faultless, h.caches⟩
  | response request response =>
      obtain ⟨caches, hcarries⟩ := hevent
      obtain ⟨owner, inst', t, -, hinst, hresponse, rfl⟩ := step_response hstep
      -- the only instance is the one that applies the response
      rw [h.instances, List.getElem?_singleton] at hinst
      split at hinst
      · rename_i howner
        obtain ⟨hcaches, hfaultless⟩ := onResponse_carries h.clientPtr hcarries
          (t := ⟨inst'.caches, a.vhal⟩) h.faultless
        rw [hresponse] at hcaches hfaultless
        subst howner
        refine ⟨_, by rw [h.instances, List.set_cons_zero], h.clientPtr, hfaultless, ?_⟩
        simp only [List.getLast?_append, List.getLast?_singleton, Option.some_or]
        exact hcaches ▸ hcarries
      · cases hinst
  | failure request =>
      obtain rfl := step_failure hstep
      exact ⟨inst, h.instances, h.clientPtr, h.faultless, h.caches⟩

theorem run_serving {clients : Clients} {v : Service} (hv : v.Faultless) {around : Surroundings}
    {events : List Event} (hevents : ∀ event ∈ events, event.Fetches) {a : App}
    (hrun : run (.onCreate around :: events) (launched clients v) = some a) :
    ∃ inst, a.Serving inst := by
  -- the creation establishes the invariant and the other events keep it
  obtain ⟨created, hcreated, hrest⟩ := Option.bind_eq_some_iff.1 hrun
  refine PartialRuns.invariant_of_forall Event.Fetches step_serving hevents ?_ hrest
  obtain ⟨-, clientPtr, clients', hptr, rfl⟩ := step_onCreate hcreated
  exact ⟨_, rfl, hptr, (sendTelemetry_extends clientPtr around v).faultless hv, rfl⟩

/-- **Which response wins.**  An instance that is created on a VHAL without faults and
receives responses that hold all five numbers, in any order, ends with the values of
the response delivered last, or with its defaults.  These are the values of the
response to the latest-issued request exactly when the two responses carry the same,
and always when the responses were delivered in the order of the requests. -/
theorem run_last_delivered (clients : Clients) (v : Service) (hv : v.Faultless)
    (around : Surroundings) (events : List Event) (hevents : ∀ event ∈ events, event.Fetches) (a : App)
    (hrun : run (.onCreate around :: events) (launched clients v) = some a) :
    ∃ inst, a.instances = [inst] ∧ (a.delivered = [] → inst.caches = {}) ∧
      (∀ last, a.delivered.getLast? = some last → Carries last.2 inst.caches) ∧
      ∀ newest ∈ a.delivered, (∀ other ∈ a.delivered, other.1 ≤ newest.1) →
        (∀ last, a.delivered.getLast? = some last →
          (Carries newest.2 inst.caches ↔
            ∃ caches, Carries newest.2 caches ∧ Carries last.2 caches)) ∧
        ((a.delivered.map Prod.fst).Pairwise (· < ·) → Carries newest.2 inst.caches) := by
  obtain ⟨inst, h⟩ := run_serving hv hevents hrun
  have hcaches := h.caches
  have hlast : ∀ last, a.delivered.getLast? = some last → Carries last.2 inst.caches := by
    intro last hlast
    rwa [hlast] at hcaches
  refine ⟨inst, h.instances, ?_, hlast, ?_⟩
  · intro hnil
    rwa [hnil] at hcaches
  intro newest hnewest hmax
  constructor
  · intro last hlastEq
    constructor
    · intro hcarries
      exact ⟨inst.caches, hcarries, hlast last hlastEq⟩
    · rintro ⟨caches, hcarries, hcarriesLast⟩
      rwa [(hlast last hlastEq).unique hcarriesLast]
  · intro horder
    obtain ⟨front, last, hsplit⟩ : ∃ front last, a.delivered = front ++ [last] :=
      ⟨_, _, (List.dropLast_append_getLast (List.ne_nil_of_mem hnewest)).symm⟩
    have hlastEq : a.delivered.getLast? = some last := by simp [hsplit]
    rw [hsplit, List.mem_append, List.mem_singleton] at hnewest
    rcases hnewest with hfront | rfl
    · -- a request before the last one is not the newest
      rw [hsplit, List.map_append, List.pairwise_append] at horder
      have hlt := horder.2.2 newest.1 (List.mem_map_of_mem hfront) last.1 (by simp)
      have hle := hmax last (by simp [hsplit])
      omega
    · exact hlast newest hlastEq

/-- A successful response with the same number under every key. -/
def fullResponse (value : Int32) : Response :=
  ⟨200, some [("results", .list [.map (Control.all.map fun c =>
    (c.name, .number (.integer value)))])]⟩

theorem fullResponse_carries (value : Int32) :
    Carries (fullResponse value) ⟨value, value, value, value, value⟩ := by
  refine ⟨rfl, _, _, _, rfl, rfl, fun c => ?_⟩
  cases c <;> rfl

/-- The request issued second is answered first and loses. -/
theorem run_stale_response_wins :
    ((run [.onCreate ⟨0, none⟩, .timer 0, .timer 0, .response 1 (fullResponse 2),
        .response 0 (fullResponse 1)] (launched ⟨[], 0, fun _ => false⟩ (.fresh fun _ => []))).map
      fun a => (a.delivered.map Prod.fst, a.inFlight, a.instances.map Instance.caches)) =
    some ([1, 0], [], [⟨1, 1, 1, 1, 1⟩]) := by
  decide

/-- The process after it. -/
def crossed : App :=
  (run [.onCreate ⟨0, none⟩, .timer 0, .timer 0, .response 1 (fullResponse 2),
    .response 0 (fullResponse 1)] (launched ⟨[], 0, fun _ => false⟩ (.fresh fun _ => []))).get rfl

/-- The response to the newest request would win if it carried the values of the other. -/
theorem crossed_responses :
    ∃ inst, crossed.instances = [inst] ∧ Carries (fullResponse 1) inst.caches ∧
      (Carries (fullResponse 2) inst.caches ↔
        ∃ caches, Carries (fullResponse 2) caches ∧ Carries (fullResponse 1) caches) := by
  obtain ⟨inst, hinstances, -, hlast, hnewest⟩ := run_last_delivered ⟨[], 0, fun _ => false⟩
    (.fresh fun _ => []) (Service.fresh_faultless _) ⟨0, none⟩
    [.timer 0, .timer 0, .response 1 (fullResponse 2), .response 0 (fullResponse 1)]
    (by simpa [Event.Fetches] using ⟨⟨_, fullResponse_carries 2⟩, _, fullResponse_carries 1⟩)
    crossed (Option.some_get rfl).symm
  have hdelivered : crossed.delivered = [(1, fullResponse 2), (0, fullResponse 1)] := rfl
  obtain ⟨hwins, -⟩ := hnewest (1, fullResponse 2) (by simp [hdelivered]) (by simp [hdelivered])
  exact ⟨inst, hinstances, hlast (0, fullResponse 1) (by simp [hdelivered]),
    hwins (0, fullResponse 1) (by simp [hdelivered])⟩

end App

end Telemetry
end Veos
