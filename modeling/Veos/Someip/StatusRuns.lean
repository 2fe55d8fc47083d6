import Veos.Someip.DataHandler

/-!
# Runs of Status events

What the VHAL holds after any sequence of Status events.  A buffer that does not
decrypt or parse leaves no trace.  Of the messages that do, the last one whose own
write to a property succeeded decides what that property holds.

The trace of the service says which writes succeeded, so nothing here depends on
where in the handler a property is written.
-/

namespace Veos
namespace Someip

open Vhal Base128

variable (p : Platform) (c : ClientPtr)

/-- The messages decoded in a run, each with the set calls its handling made. -/
def handledMessages : List Bytes → Service → List (PrimaryVehicleState × List SetCall)
  | [], _ => []
  | buffer :: events, v =>
      match decodeStatus p buffer with
      | .ok state =>
          let v' := processPrimaryVehicleState c state v
          (state, v'.setsSince v) :: handledMessages events v'
      | .error _ => handledMessages events v

/-- Whether one of the calls set `key` with success. -/
def wrote (key : Key) (calls : List SetCall) : Bool :=
  calls.any fun call => call.key = key && call.succeeded

/-- The last handled message whose own write to `key` succeeded. -/
def lastWriter (key : Key) (handled : List (PrimaryVehicleState × List SetCall)) :
    Option PrimaryVehicleState :=
  ((handled.filter fun message => wrote key message.2).getLast?).map Prod.fst

theorem lastWriter_cons (key : Key) (message : PrimaryVehicleState × List SetCall)
    (handled : List (PrimaryVehicleState × List SetCall)) :
    lastWriter key (message :: handled) =
      (lastWriter key handled).or (if wrote key message.2 then some message.1 else none) := by
  cases hwrote : wrote key message.2 with
  | false => simp [lastWriter, hwrote]
  | true =>
      simp only [lastWriter, List.filter_cons, hwrote, if_true, List.getLast?_cons]
      cases (handled.filter fun message => wrote key message.2).getLast? <;> rfl

/-! ## One message -/

theorem answers_keys_nodup (s : PrimaryVehicleState) (v : Service) :
    ((v.answers (statusRequests s)).map SetCall.key).Nodup := by
  have hkeys := statusRequests_keys_nodup s
  rw [← v.answers_map (statusRequests s), List.map_map] at hkeys
  exact hkeys

/-- A call made for a message carries the message's own field. -/
theorem values_of_mem_answers {s : PrimaryVehicleState} {v : Service} {call : SetCall}
    (hmem : call ∈ v.answers (statusRequests s)) (signal : Signal) (hkey : call.key = signal.key) :
    call.values = [signal.field s] := by
  have hrequest : (call.key, call.values) ∈ statusRequests s := by
    rw [← v.answers_map (statusRequests s)]
    exact List.mem_map.2 ⟨call, hmem, rfl⟩
  obtain ⟨other, -, hother⟩ := List.mem_map.1 hrequest
  obtain ⟨hotherKey, hvalues⟩ := Prod.mk.inj hother
  rw [← hvalues, Signal.key_injective (hotherKey.trans hkey)]

/-- Handling one message stores a signal's field exactly when the message's own
write to the signal's property succeeded. -/
theorem lastStored_statusCalls (s : PrimaryVehicleState) (v : Service) (signal : Signal) :
    lastStored signal.key (statusCalls c s v) =
      if wrote signal.key (statusCalls c s v) then some [signal.field s] else none := by
  by_cases hc : c = 0
  · simp [statusCalls, hc, wrote, lastStored]
  · rw [statusCalls, if_neg hc]
    cases hwrote : wrote signal.key (v.answers (statusRequests s)) with
    | true =>
        -- the one successful call is the last one to this key
        obtain ⟨call, hmem, hcall⟩ := List.any_eq_true.1 hwrote
        simp only [Bool.and_eq_true, decide_eq_true_eq] at hcall
        obtain ⟨hkey, hsucceeded⟩ := hcall
        have hlast := lastStored_of_nodup _ (answers_keys_nodup s v) call hmem
        rw [hkey, hsucceeded, values_of_mem_answers hmem signal hkey] at hlast
        exact hlast
    | false =>
        apply (lastStored_eq_none_iff _ _).2
        intro call hmem hsucceeded hkey
        have hfalse := List.any_eq_false.1 hwrote call hmem
        simp [hkey, hsucceeded] at hfalse

/-- Handling one message stores nothing outside the twelve properties. -/
theorem lastStored_statusCalls_of_ne (s : PrimaryVehicleState) (v : Service) (key : Key)
    (hkey : ∀ signal : Signal, key ≠ signal.key) : lastStored key (statusCalls c s v) = none := by
  apply (lastStored_eq_none_iff _ _).2
  intro call hmem _ hcall
  by_cases hc : c = 0
  · simp [statusCalls, hc] at hmem
  · rw [statusCalls, if_neg hc] at hmem
    have hrequest : (call.key, call.values) ∈ statusRequests s := by
      rw [← v.answers_map (statusRequests s)]
      exact List.mem_map.2 ⟨call, hmem, rfl⟩
    obtain ⟨signal, -, hsignal⟩ := List.mem_map.1 hrequest
    exact hkey signal (hcall.symm.trans (Prod.mk.inj hsignal).1.symm)

/-- What a signal's property holds after one message. -/
theorem process_store_signal (s : PrimaryVehicleState) (v : Service) (signal : Signal) :
    (processPrimaryVehicleState c s v).store signal.key =
      if wrote signal.key (statusCalls c s v) then [signal.field s] else v.store signal.key := by
  rw [(process_extends c s v).store_apply, lastStored_statusCalls]
  split <;> rfl

theorem process_store_of_ne (s : PrimaryVehicleState) (v : Service) (key : Key)
    (hkey : ∀ signal : Signal, key ≠ signal.key) :
    (processPrimaryVehicleState c s v).store key = v.store key := by
  rw [(process_extends c s v).store_apply, lastStored_statusCalls_of_ne c s v key hkey]
  rfl

/-- Without faults all twelve writes of a message succeed. -/
theorem wrote_of_faultless {c : ClientPtr} (hc : c ≠ 0) (s : PrimaryVehicleState) {v : Service}
    (hv : v.Faultless) (signal : Signal) : wrote signal.key (statusCalls c s v) = true := by
  have hrequest : (signal.key, [signal.field s]) ∈ stored (v.answers (statusRequests s)) := by
    rw [v.stored_answers (statusRequests s) hv]
    exact List.mem_map.2 ⟨signal, signal.mem_all, rfl⟩
  obtain ⟨call, hcall, heq⟩ := List.mem_map.1 hrequest
  obtain ⟨hmem, hsucceeded⟩ := List.mem_filter.1 hcall
  rw [statusCalls, if_neg hc]
  refine List.any_eq_true.2 ⟨call, hmem, ?_⟩
  simp [(Prod.mk.inj heq).1, hsucceeded]

theorem process_store_of_faultless {c : ClientPtr} (hc : c ≠ 0) (s : PrimaryVehicleState)
    {v : Service} (hv : v.Faultless) (signal : Signal) :
    (processPrimaryVehicleState c s v).store signal.key = [signal.field s] := by
  rw [process_store_signal, if_pos (wrote_of_faultless hc s hv signal)]

/-! ## Whole runs -/

/-- A buffer that does not decode changes nothing. -/
theorem statusCallback_of_error {buffer : Bytes} {e : RuntimeError}
    (hdecode : decodeStatus p buffer = .error e) (v : Service) :
    statusCallback p c buffer v = v := by
  rw [statusCallback, hdecode]

theorem runStatus_store_signal (events : List Bytes) (v : Service) (signal : Signal) :
    (runStatus p c events v).store signal.key =
      ((lastWriter signal.key (handledMessages p c events v)).map fun s =>
        [signal.field s]).getD (v.store signal.key) := by
  induction events generalizing v with
  | nil => rfl
  | cons buffer events ih =>
      -- the rest of the run starts from what the first event left
      have hstep := ih (statusCallback p c buffer v)
      rw [show runStatus p c (buffer :: events) v =
        runStatus p c events (statusCallback p c buffer v) from rfl, hstep]
      cases hdecode : decodeStatus p buffer with
      | error e => simp only [handledMessages, statusCallback, hdecode]
      | ok s =>
          simp only [handledMessages, statusCallback, hdecode, lastWriter_cons,
            (process_extends c s v).setsSince, process_store_signal]
          -- a later writer hides the first message
          cases lastWriter signal.key
            (handledMessages p c events (processPrimaryVehicleState c s v)) with
          | some later => rfl
          | none => split <;> rfl

theorem runStatus_store_of_ne (events : List Bytes) (v : Service) (key : Key)
    (hkey : ∀ signal : Signal, key ≠ signal.key) :
    (runStatus p c events v).store key = v.store key := by
  refine List.foldlRecOn (motive := fun w : Service => w.store key = v.store key) events _ rfl ?_
  intro w hw buffer _
  unfold statusCallback
  split
  · rw [process_store_of_ne c _ w key hkey, hw]
  · exact hw

/-- A message's writes are confined to their own properties: two services that
agree on what a property holds, and on whether the message's own write to it
succeeds, agree on it afterwards, whatever happens to the other writes. -/
theorem process_store_confined (s : PrimaryVehicleState) (v w : Service) (signal : Signal)
    (hstore : v.store signal.key = w.store signal.key)
    (hown : wrote signal.key (statusCalls c s v) = wrote signal.key (statusCalls c s w)) :
    (processPrimaryVehicleState c s v).store signal.key =
      (processPrimaryVehicleState c s w).store signal.key := by
  rw [process_store_signal, process_store_signal, hown, hstore]

/-- **The VHAL after a run of Status events.**  Each of the twelve properties
holds the mapped field of the last decoded message whose own write to it
succeeded, or its initial value; no other property changes; an event that does
not decode changes nothing; and a failed write neither prevents another write of
the same message (a connected handler always makes all twelve calls, with the
message's own fields) nor alters its effect. -/
theorem runStatus_store (events : List Bytes) (v : Service) :
    (∀ signal : Signal, (runStatus p c events v).store signal.key =
      ((lastWriter signal.key (handledMessages p c events v)).map fun s =>
        [signal.field s]).getD (v.store signal.key)) ∧
    (∀ key : Key, (∀ signal : Signal, key ≠ signal.key) →
      (runStatus p c events v).store key = v.store key) ∧
    (∀ buffer e, decodeStatus p buffer = .error e → ∀ w, statusCallback p c buffer w = w) ∧
    (∀ s w, c ≠ 0 → ((processPrimaryVehicleState c s w).setsSince w).map
      (fun call => (call.key, call.values)) =
        Signal.all.map fun signal => (signal.key, [signal.field s])) ∧
    ∀ s w w' (signal : Signal), w.store signal.key = w'.store signal.key →
      wrote signal.key (statusCalls c s w) = wrote signal.key (statusCalls c s w') →
      (processPrimaryVehicleState c s w).store signal.key =
        (processPrimaryVehicleState c s w').store signal.key := by
  refine ⟨runStatus_store_signal p c events v, runStatus_store_of_ne p c events v,
    fun buffer e hdecode => statusCallback_of_error p c hdecode, ?_,
    fun s w w' signal => process_store_confined c s w w' signal⟩
  intro s w hc
  rw [(process_extends c s w).setsSince, statusCalls, if_neg hc]
  exact w.answers_map (statusRequests s)

end Someip
end Veos
