import Veos.Telemetry.ControlRuns

/-!
# Bodies of any shape

A successful response carries a map whose values the decoder makes of any JSON: `results`
can be absent or an object of any class, and so can the elements of the list, if it is one,
and the values of its first element.

`applyControls` catches what it throws.  The casts of `results` and of its first element
stand before it and outside any `try`, so an object of another class there leaves the
callback with an exception (`onResponse_ok_iff`).
-/

namespace Veos
namespace Telemetry

open Java Vhal

/-! ## Calls that change nothing -/

/-- What the first control that a map holds asks for. -/
def firstRequest (reading : JMap) : Option (Except JavaException Int32) :=
  Control.all.findSome? (requested (some reading))

/-- Blocks of absent controls do nothing. -/
theorem applyBlocks_append_of_absent (ptr : ClientPtr) (controls : Option JMap)
    (absent cs : List Control) (habsent : ∀ c ∈ absent, requested controls c = none)
    (t : ServiceState) :
    applyBlocks ptr controls (absent ++ cs) t = applyBlocks ptr controls cs t := by
  induction absent with
  | nil => rfl
  | cons c absent ih =>
      have hblock : applyControl ptr controls c t = (.ok (), t) := by
        rw [applyControl_eq, habsent c List.mem_cons_self]
      rw [List.cons_append, applyBlocks, hblock]
      exact ih fun other hother => habsent other (List.mem_cons_of_mem c hother)

/-- A call changes nothing if the first control of the map asks for no number. -/
theorem applyControls_of_firstRequest (ptr : ClientPtr) {reading : JMap} (t : ServiceState)
    (hfirst : ∀ value, firstRequest reading ≠ some (.ok value)) :
    (applyControls ptr (some reading) t).2 = t := by
  rw [applyControls_snd]
  cases hrequest : firstRequest reading with
  | none =>
      have habsent := List.findSome?_eq_none_iff.1 hrequest
      rw [applyBlocks_of_settled ptr _ _ t fun c hc => Or.inl (habsent c hc)]
  | some request =>
      obtain ⟨absent, c, cs, hall, hrequested, habsent⟩ := List.findSome?_eq_some_iff.1 hrequest
      rw [hall, applyBlocks_append_of_absent ptr _ absent _ habsent]
      cases request with
      | ok value => exact absurd hrequest (hfirst value)
      | error e =>
          have hblock : applyControl ptr (some reading) c t = (.error e, t) := by
            rw [applyControl_eq, hrequested]
          rw [applyBlocks, hblock]

/-- If it asks for a number, some call changes its cache. -/
theorem exists_changing_call {reading : JMap} {value : Int32}
    (hfirst : firstRequest reading = some (.ok value)) :
    ∃ t, (applyControls 1 (some reading) t).2.caches ≠ t.caches := by
  obtain ⟨absent, c, cs, hall, hrequested, habsent⟩ := List.findSome?_eq_some_iff.1 hfirst
  -- the cache holds another number and the write succeeds
  let t : ServiceState := ⟨({} : Caches).set c (value + 1), .fresh fun _ => []⟩
  have hcached : t.caches.get c = value + 1 := Caches.get_set_self _ _ _
  have hne : value ≠ value + 1 := by
    intro heq
    simp at heq
  have hblock : ∃ vhal, applyControl 1 (some reading) c t =
      (.ok (), { caches := t.caches.set c value, vhal := vhal }) := by
    rw [applyControl_eq, hrequested]
    simp only [hcached, hne, if_false, show (1 : ClientPtr) ≠ 0 by decide]
    exact ⟨_, rfl⟩
  obtain ⟨vhal, hblock⟩ := hblock
  have hnodup : (absent ++ c :: cs).Nodup := hall ▸ Control.all_nodup
  obtain ⟨hfresh, htail⟩ := List.nodup_cons.1 (List.nodup_append.1 hnodup).2.1
  obtain ⟨calls, hspec⟩ :=
    applyBlocks_spec 1 (some reading) cs htail { caches := t.caches.set c value, vhal := vhal }
  refine ⟨t, fun hsame => hne ?_⟩
  -- the later blocks leave the cache that this one has assigned
  have hafter := (hspec.others c hfresh).1
  rw [applyControls_snd, hall, applyBlocks_append_of_absent 1 _ absent _ habsent, applyBlocks,
    hblock] at hsame
  rw [hsame, hcached, Caches.get_set_self] at hafter
  exact hafter.symm

/-! ## Shapes of `results` -/

/-- The object is a map. -/
def isMap : JObject → Bool
  | .map _ => true
  | _ => false

/-- The body has a non-empty array of objects under `results`. -/
def HasReadings (body : JMap) : Prop :=
  ∃ elements, body.get "results" = .list elements ∧ elements ≠ [] ∧
    ∀ element ∈ elements, isMap element = true

/-- The callback finds no reading: nothing under `results`, an empty list, or null as its
first element. -/
def NoReading (results : JObject) : Prop :=
  results = .null ∨ results = .list [] ∨ ∃ others, results = .list (.null :: others)

/-- The casts of the callback accept the object under `results`. -/
def Castable (results : JObject) : Prop :=
  NoReading results ∨ ∃ reading others, results = .list (.map reading :: others)

section Callback

variable (ptr : ClientPtr) {response : Response} {body : JMap}
  (hsuccessful : response.isSuccessful = true) (hbody : response.body = some body)
  (t : ServiceState)

include hsuccessful hbody

theorem onResponse_of_noReading (hresults : NoReading (body.get "results")) :
    onResponse ptr response t = (.ok (), t) := by
  rcases hresults with hresults | hresults | ⟨others, hresults⟩
  · simp only [onResponse, hsuccessful, if_true, hbody, hresults]
  · simp only [onResponse, hsuccessful, if_true, hbody, hresults]
  -- a null reading fails at the first `containsKey`
  · simp only [onResponse, hsuccessful, if_true, hbody, hresults]
    rfl

theorem onResponse_of_reading {reading : JMap} {others : List JObject}
    (hresults : body.get "results" = .list (.map reading :: others)) :
    onResponse ptr response t = (.ok (), (applyControls ptr (some reading) t).2) := by
  simp only [onResponse, hsuccessful, if_true, hbody, hresults]

theorem onResponse_of_not_castable (hresults : ¬Castable (body.get "results")) :
    onResponse ptr response t = (.error .classCastException, t) := by
  simp only [onResponse, hsuccessful, if_true, hbody]
  split
  · rename_i heq
    exact absurd (Or.inl (Or.inl heq)) hresults
  · rename_i heq
    exact absurd (Or.inl (Or.inr (Or.inl heq))) hresults
  · rename_i heq
    exact absurd (Or.inl (Or.inr (Or.inr ⟨_, heq⟩))) hresults
  · rename_i heq
    exact absurd (Or.inr ⟨_, _, heq⟩) hresults
  · rfl

/-- An exception escapes exactly when one of the two casts fails. -/
theorem onResponse_ok_iff :
    (onResponse ptr response t).1 = .ok () ↔ Castable (body.get "results") := by
  by_cases hcastable : Castable (body.get "results")
  · refine iff_of_true ?_ hcastable
    rcases hcastable with hnone | ⟨reading, others, hresults⟩
    · rw [onResponse_of_noReading ptr hsuccessful hbody t hnone]
    · rw [onResponse_of_reading ptr hsuccessful hbody t hresults]
  · rw [onResponse_of_not_castable ptr hsuccessful hbody t hcastable]
    exact iff_of_false (by simp) hcastable

end Callback

/-- What the callback has to do with a body: return, and change nothing unless the body
has readings. -/
def HandledSafely (body : JMap) : Prop :=
  ∀ (ptr : ClientPtr) (response : Response) (t : ServiceState),
    response.isSuccessful = true → response.body = some body →
      (onResponse ptr response t).1 = .ok () ∧
      (¬HasReadings body →
        (onResponse ptr response t).2.caches = t.caches ∧
        (onResponse ptr response t).2.vhal.store = t.vhal.store)

/-- The shapes of `results` for which the callback does so. -/
def Harmless (results : JObject) : Prop :=
  NoReading results ∨ ∃ reading others, results = .list (.map reading :: others) ∧
    ((∀ element ∈ others, isMap element = true) ∨
      ∀ value, firstRequest reading ≠ some (.ok value))

theorem hasReadings_iff {body reading : JMap} {others : List JObject}
    (hresults : body.get "results" = .list (.map reading :: others)) :
    HasReadings body ↔ ∀ element ∈ others, isMap element = true := by
  constructor
  · rintro ⟨elements, helements, -, hmaps⟩ element helement
    obtain rfl : .map reading :: others = elements := by simpa [hresults] using helements
    exact hmaps element (List.mem_cons_of_mem _ helement)
  · intro hothers
    refine ⟨_, hresults, by simp, ?_⟩
    rw [List.forall_mem_cons]
    exact ⟨rfl, hothers⟩

/-- An array that starts with an object: that object is applied whatever stands behind
it. -/
theorem handledSafely_of_reading_iff {body reading : JMap} {others : List JObject}
    (hresults : body.get "results" = .list (.map reading :: others)) :
    HandledSafely body ↔
      HasReadings body ∨ ∀ value, firstRequest reading ≠ some (.ok value) := by
  constructor
  · intro hsafe
    by_cases hreadings : HasReadings body
    · exact Or.inl hreadings
    -- the array has no readings, so no call may change anything
    · refine Or.inr fun value hfirst => ?_
      obtain ⟨t, hchanges⟩ := exists_changing_call hfirst
      have hunchanged := (hsafe 1 ⟨200, some body⟩ t rfl rfl).2 hreadings
      rw [onResponse_of_reading 1 rfl rfl t hresults] at hunchanged
      exact hchanges hunchanged.1
  · intro hharmless ptr response t hsuccessful hbody
    rw [onResponse_of_reading ptr hsuccessful hbody t hresults]
    refine ⟨rfl, fun hnone => ?_⟩
    rw [applyControls_of_firstRequest ptr t (hharmless.resolve_left hnone)]
    exact ⟨rfl, rfl⟩

theorem HandledSafely.castable {body : JMap} (h : HandledSafely body) :
    Castable (body.get "results") := by
  let reply : Response := ⟨200, some body⟩
  have hsuccessful : reply.isSuccessful = true := rfl
  have hbody : reply.body = some body := rfl
  exact (onResponse_ok_iff 1 hsuccessful hbody ⟨{}, .fresh fun _ => []⟩).1
    (h 1 reply _ hsuccessful hbody).1

/-- **Bodies of any shape.**  An exception escapes from the callback exactly when `results`
is neither null nor a list, or a list whose first element is neither null nor a map.  For
every handle, response code and state the callback returns, and leaves the caches and the
VHAL alone unless `results` is a non-empty array of objects, exactly when `results` is
absent or null, or an array that is empty or starts with null or with an object; in the
last case the other elements have to be objects too, or the first control that the first
object holds must hold no number. -/
theorem handledSafely_iff (body : JMap) :
    (∀ (ptr : ClientPtr) (response : Response) (t : ServiceState),
      response.isSuccessful = true → response.body = some body →
        ((onResponse ptr response t).1 = .ok () ↔ Castable (body.get "results"))) ∧
    (HandledSafely body ↔ Harmless (body.get "results")) := by
  refine ⟨fun ptr response t hsuccessful hbody => onResponse_ok_iff ptr hsuccessful hbody t, ?_⟩
  constructor
  · intro hsafe
    rcases hsafe.castable with hnone | ⟨reading, others, hresults⟩
    · exact Or.inl hnone
    · rw [handledSafely_of_reading_iff hresults, hasReadings_iff hresults] at hsafe
      exact Or.inr ⟨reading, others, hresults, hsafe⟩
  · rintro (hnone | ⟨reading, others, hresults, hharmless⟩)
    · intro ptr response t hsuccessful hbody
      rw [onResponse_of_noReading ptr hsuccessful hbody t hnone]
      exact ⟨rfl, fun _ => ⟨rfl, rfl⟩⟩
    · rw [← hasReadings_iff hresults] at hharmless
      exact (handledSafely_of_reading_iff hresults).2 hharmless

/-- A string under `results`, and an array that starts with a number, leave the callback
with a `ClassCastException`. -/
theorem malformed_results_escape :
    let t : ServiceState := ⟨{}, .fresh fun _ => []⟩
    let string : JMap := [("results", .string "none")]
    let numbers : JMap := [("results", .list [.number (.double (.finite 5))])]
    (onResponse 1 ⟨200, some string⟩ t).1 = .error .classCastException ∧
    (onResponse 1 ⟨200, some numbers⟩ t).1 = .error .classCastException ∧
    ¬HandledSafely string ∧ ¬HandledSafely numbers := by
  intro t string numbers
  refine ⟨rfl, rfl, fun hsafe => ?_, fun hsafe => ?_⟩
  · cases (hsafe 1 ⟨200, some string⟩ t rfl rfl).1
  · cases (hsafe 1 ⟨200, some numbers⟩ t rfl rfl).1

end Telemetry
end Veos
