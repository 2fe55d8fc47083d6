import Veos.Telemetry.Readings
import Veos.Vehicle.Interleavings

/-!
# A sweep while the client writes

The telemetry service reads fifteen properties one after the other while the SOME/IP
client works through the twelve writes of each message.  Nothing marks the values of one
message as belonging together: the timestamp is the eighth of the twelve writes and the
last of the fifteen reads.

What a sweep reports of a property is the value of the last message whose own write to it
succeeded before the read (`sweep_entry`).  The timestamp says so of its own property
alone.
-/

namespace Veos
namespace Vehicle

open Vhal Someip Telemetry Java LastWrite

/-! ## The two processes -/

/-- The client's remaining writes, and the sweep with its remaining reads. -/
structure Sweeping where
  requests : List (Key × List Int32)
  readings : List Reading
  payload : JMap
  vhal : Service

namespace Sweeping

/-- The client that handles `messages`, and a sweep that starts from `payload`. -/
def start (messages : List PrimaryVehicleState) (payload : JMap) (v : Service) : Sweeping where
  requests := messageWrites messages
  readings := sweep
  payload := payload
  vhal := v

/-- One turn: a write of the client or a read of the sweep.  A process that is done lets
its turn pass. -/
def turn (ptr : ClientPtr) (st : Sweeping) : Turn → Sweeping
  | .client =>
      match st.requests with
      | [] => st
      | request :: requests =>
          { st with
            requests := requests
            vhal := (st.vhal.setValueSync request.1 request.2).2 }
  | .service =>
      match st.readings with
      | [] => st
      | reading :: readings =>
          let (payload, vhal) := addReading ptr st.payload reading 0 st.vhal
          { st with readings := readings, payload := payload, vhal := vhal }

def run (ptr : ClientPtr) (st : Sweeping) (schedule : List Turn) : Sweeping :=
  schedule.foldl (turn ptr) st

end Sweeping

namespace Sweeping

/-- Without turns of the client the sweep is that of `sendTelemetry`. -/
theorem run_service_alone (ptr : ClientPtr) (st : Sweeping) :
    st.run ptr (List.replicate st.readings.length .service) =
      { st with
        readings := []
        payload := (addReadings ptr st.readings st.payload st.vhal).1
        vhal := (addReadings ptr st.readings st.payload st.vhal).2 } := by
  obtain ⟨requests, readings, payload, v⟩ := st
  induction readings generalizing payload v with
  | nil => rfl
  | cons reading readings ih => exact ih _ _

/-- Without turns of the sweep the client makes its requests one after the other. -/
theorem run_client_alone (ptr : ClientPtr) (st : Sweeping) :
    st.run ptr (List.replicate st.requests.length .client) =
      { st with requests := [], vhal := st.vhal.setAll st.requests } := by
  obtain ⟨requests, readings, payload, v⟩ := st
  induction requests generalizing v with
  | nil => rfl
  | cons request requests ih => exact ih _

end Sweeping

/-- How many turns of the client come before the read with index `i`. -/
def turnsBefore : List Turn → Nat → Nat
  | [], _ => 0
  | .client :: schedule, i => turnsBefore schedule i + 1
  | .service :: _, 0 => 0
  | .service :: schedule, i + 1 => turnsBefore schedule i

/-- Later reads come after as many turns of the client or more. -/
theorem turnsBefore_monotone (schedule : List Turn) : Monotone (turnsBefore schedule) := by
  induction schedule with
  | nil => exact fun _ _ _ => Nat.le_refl 0
  | cons first schedule ih =>
      intro i j hij
      cases first with
      | client => exact Nat.succ_le_succ (ih hij)
      | service =>
          cases i with
          | zero => exact Nat.zero_le _
          | succ i =>
              obtain ⟨j, rfl⟩ : ∃ m, j = m + 1 := ⟨j - 1, by omega⟩
              exact ih (Nat.le_of_succ_le_succ hij)

namespace Sweeping

variable {ptr : ClientPtr} (hptr : ptr ≠ 0)

include hptr

/-- Entries of names that no remaining reading has are not touched. -/
theorem run_payload_of_ne (schedule : List Turn) (st : Sweeping) {name : String}
    (hname : ∀ reading ∈ st.readings, name ≠ PropMapping.getName reading.propId) :
    (st.run ptr schedule).payload.lookup name = st.payload.lookup name := by
  induction schedule generalizing st with
  | nil => rfl
  | cons first schedule ih =>
      have hrun : st.run ptr (first :: schedule) = (st.turn ptr first).run ptr schedule := rfl
      rw [hrun]
      obtain ⟨requests, readings, payload, v⟩ := st
      cases first with
      | client =>
          cases requests with
          | nil => exact ih _ hname
          | cons request requests => exact ih _ hname
      | service =>
          cases readings with
          | nil => exact ih _ hname
          | cons reading readings =>
              rw [List.forall_mem_cons] at hname
              rw [ih _ hname.2]
              simp only [turn, addReading_connected hptr]
              exact JMap.lookup_put_of_ne _ _ _ _ hname.1

/-- The entry of a reading is its answer in the state in which the client has made as many
writes as it had turns before the read. -/
theorem run_entry (schedule : List Turn) (st : Sweeping)
    (hnodup : (st.readings.map fun reading => PropMapping.getName reading.propId).Nodup)
    (hfinished : (st.run ptr schedule).readings = []) {i : Nat} {reading : Reading}
    (hreading : st.readings[i]? = some reading) :
    (st.run ptr schedule).payload.lookup (PropMapping.getName reading.propId) =
      some (reading.answer (st.vhal.getFault (st.vhal.gets + i))
        ((st.vhal.setAll (st.requests.take (turnsBefore schedule i))).store
          (reading.propId, 0))) := by
  induction schedule generalizing st i with
  | nil =>
      have hnil : st.readings = [] := hfinished
      simp [hnil] at hreading
  | cons first schedule ih =>
      have hrun : st.run ptr (first :: schedule) = (st.turn ptr first).run ptr schedule := rfl
      rw [hrun] at hfinished ⊢
      obtain ⟨requests, readings, payload, v⟩ := st
      cases first with
      | client =>
          cases requests with
          -- the client is done: its turns write nothing
          | nil =>
              have hentry := ih _ hnodup hfinished hreading
              simpa [turnsBefore, turn] using hentry
          | cons request requests =>
              exact ih ⟨requests, readings, payload, (v.setValueSync request.1 request.2).2⟩
                hnodup hfinished hreading
      | service =>
          cases readings with
          | nil => simp at hreading
          | cons head readings =>
              rw [List.map_cons, List.nodup_cons] at hnodup
              cases i with
              -- this is the read, and no later one has its name
              | zero =>
                  obtain rfl : head = reading := by simpa using hreading
                  rw [run_payload_of_ne hptr]
                  · simp only [turn, addReading_connected hptr, JMap.lookup_put_self]
                    rfl
                  · intro later hlater hname
                    exact hnodup.1 (List.mem_map.2 ⟨later, hlater, hname.symm⟩)
              | succ i =>
                  have hentry := ih _ hnodup.2 hfinished hreading
                  simp only [turn, addReading_connected hptr] at hentry ⊢
                  rw [hentry, Service.setAll_gets, show v.gets + 1 + i = v.gets + (i + 1) by omega]
                  rfl

end Sweeping

/-! ## Which message a value comes from -/

/-- The place of a signal among the calls of the handler. -/
def callIndex (signal : Signal) : Nat := Signal.all.idxOf signal

theorem callIndex_lt (signal : Signal) : callIndex signal < 12 :=
  List.idxOf_lt_length_of_mem signal.mem_all

theorem statusRequests_getElem?_iff (s : PrimaryVehicleState) (signal : Signal) (i : Nat)
    (values : List Int32) :
    (statusRequests s)[i]? = some (signal.key, values) ↔
      i = callIndex signal ∧ values = [signal.field s] := by
  have hplace : Signal.all[callIndex signal]? = some signal := by
    cases signal <;> rfl
  rw [statusRequests, List.getElem?_map, Option.map_eq_some_iff]
  constructor
  · rintro ⟨other, hother, heq⟩
    obtain ⟨hkey, rfl⟩ := Prod.mk.inj heq
    obtain rfl := Signal.key_injective hkey
    have hbound := (List.getElem?_eq_some_iff.1 hother).1
    have hnodup : Signal.all.Nodup := by decide
    exact ⟨(List.getElem?_inj hbound hnodup).1 (hother.trans hplace.symm), rfl⟩
  · rintro ⟨rfl, rfl⟩
    exact ⟨signal, hplace, rfl⟩

/-- The write of message `k` to a signal's property is request `12 * k + callIndex signal`. -/
theorem messageWrites_getElem?_iff (messages : List PrimaryVehicleState) (signal : Signal)
    (j : Nat) (values : List Int32) :
    (messageWrites messages)[j]? = some (signal.key, values) ↔
      ∃ k m, messages[k]? = some m ∧ j = 12 * k + callIndex signal ∧
        values = [signal.field m] := by
  have hindex := callIndex_lt signal
  induction messages generalizing j with
  | nil => simp [messageWrites]
  | cons s messages ih =>
      have hsplit : messageWrites (s :: messages) = statusRequests s ++ messageWrites messages :=
        List.flatMap_cons ..
      have hlength : (statusRequests s).length = 12 := rfl
      rw [hsplit, List.getElem?_append, hlength]
      split
      -- a request of the first message
      · rw [statusRequests_getElem?_iff]
        constructor
        · rintro ⟨rfl, rfl⟩
          exact ⟨0, s, rfl, by omega, rfl⟩
        · rintro ⟨k, m, hm, hj, rfl⟩
          obtain rfl : k = 0 := by omega
          obtain rfl : s = m := by simpa using hm
          exact ⟨by omega, rfl⟩
      -- a request of a later message
      · refine (ih _).trans ?_
        constructor
        · rintro ⟨k, m, hm, hj, rfl⟩
          exact ⟨k + 1, m, hm, by omega, rfl⟩
        · rintro ⟨k, m, hm, hj, rfl⟩
          obtain ⟨k, rfl⟩ : ∃ l, k = l + 1 := ⟨k - 1, by omega⟩
          exact ⟨k, m, hm, by omega, rfl⟩

section Writers

variable (v : Service) (messages : List PrimaryVehicleState)

/-- The write of message `k` to the property of `signal` is among the first `n` requests and
succeeds. -/
def Wrote (signal : Signal) (n k : Nat) : Prop :=
  12 * k + callIndex signal < n ∧
    v.setFault (v.sets.length + (12 * k + callIndex signal)) = none

/-- Message `m` at index `k` is the last one of the first `n` requests whose own write to the
property of `signal` succeeded. -/
structure LastWriter (signal : Signal) (n k : Nat) (m : PrimaryVehicleState) : Prop where
  message : messages[k]? = some m
  wrote : Wrote v signal n k
  last : ∀ later, k < later → later < messages.length → ¬Wrote v signal n later

theorem LastWriter.unique {signal : Signal} {n k k' : Nat} {m m' : PrimaryVehicleState}
    (h : LastWriter v messages signal n k m) (h' : LastWriter v messages signal n k' m') :
    k = k' ∧ m = m' := by
  have hk := (List.getElem?_eq_some_iff.1 h.message).1
  have hk' := (List.getElem?_eq_some_iff.1 h'.message).1
  have hindex : k = k' := by
    rcases Nat.lt_trichotomy k k' with hlt | heq | hgt
    · exact absurd h'.wrote (h.last k' hlt hk')
    · exact heq
    · exact absurd h.wrote (h'.last k hgt hk)
  subst hindex
  exact ⟨rfl, Option.some.inj (h.message.symm.trans h'.message)⟩

/-- What the property of a signal holds after the first `n` requests. -/
theorem store_setAll_take (signal : Signal) (n : Nat) :
    (∀ k m, LastWriter v messages signal n k m →
      (v.setAll ((messageWrites messages).take n)).store signal.key = [signal.field m]) ∧
    ((∀ k m, ¬LastWriter v messages signal n k m) →
      (v.setAll ((messageWrites messages).take n)).store signal.key = v.store signal.key) := by
  have hrequest : ∀ j values,
      ((messageWrites messages).take n)[j]? = some (signal.key, values) ↔
        j < n ∧ ∃ k m, messages[k]? = some m ∧ j = 12 * k + callIndex signal ∧
          values = [signal.field m] := by
    intro j values
    rw [List.getElem?_take, ← messageWrites_getElem?_iff]
    split <;> simp_all
  rcases v.setAll_store_cases ((messageWrites messages).take n) signal.key with
    ⟨j, values, hstores, hstore⟩ | ⟨hnone, hstore⟩
  · obtain ⟨hj, k, m, hm, rfl, rfl⟩ := (hrequest j values).1 hstores.request
    have hlast : LastWriter v messages signal n k m := by
      refine ⟨hm, ⟨hj, hstores.succeeds⟩, fun later hlater hbound hwrote => ?_⟩
      exact hstores.last _ [signal.field messages[later]] (by omega)
        ((hrequest _ _).2 ⟨hwrote.1, later, _, List.getElem?_eq_getElem hbound, rfl, rfl⟩)
        hwrote.2
    constructor
    · intro k' m' hlast'
      rw [hstore, (hlast.unique v messages hlast').2]
    · intro hno
      exact absurd hlast (hno k m)
  · constructor
    · intro k m hlast
      exact absurd hlast.wrote.2 (hnone _ [signal.field m]
        ((hrequest _ _).2 ⟨hlast.wrote.1, k, m, hlast.message, rfl, rfl⟩))
    · intro _
      exact hstore

end Writers

/-! ## The payload -/

/-- The payload has `values` as its answer to the reading with index `i`. -/
def Sweeping.Reports (final : Sweeping) (v : Service) (i : Nat) (reading : Reading)
    (values : List Int32) : Prop :=
  final.payload.lookup (PropMapping.getName reading.propId) =
    some (reading.answer (v.getFault (v.gets + i)) values)

/-- The reading with index `i` is of the property of `signal`. -/
def ReadsSignal (i : Nat) (reading : Reading) (signal : Signal) : Prop :=
  sweep[i]? = some reading ∧ signal.key = (reading.propId, 0)

/-- What a sweep reports of a property that the client writes. -/
theorem sweep_entry {ptr : ClientPtr} (hptr : ptr ≠ 0) (messages : List PrimaryVehicleState)
    (v : Service) (payload : JMap) (schedule : List Turn)
    (hfinished : ((Sweeping.start messages payload v).run ptr schedule).readings = [])
    {i : Nat} {reading : Reading} {signal : Signal} (hreads : ReadsSignal i reading signal) :
    let final := (Sweeping.start messages payload v).run ptr schedule
    let n := turnsBefore schedule i
    (∀ k m, LastWriter v messages signal n k m → final.Reports v i reading [signal.field m]) ∧
    ((∀ k m, ¬LastWriter v messages signal n k m) →
      final.Reports v i reading (v.store signal.key)) := by
  intro final n
  obtain ⟨hreading, hkey⟩ := hreads
  have hentry := Sweeping.run_entry hptr schedule (.start messages payload v) sweep_names_nodup
    hfinished hreading
  rw [← hkey] at hentry
  obtain ⟨hlast, hnone⟩ := store_setAll_take v messages signal n
  constructor
  · intro k m hwriter
    exact hentry.trans (by rw [← hlast k m hwriter]; rfl)
  · intro hno
    exact hentry.trans (by rw [← hnone hno]; rfl)

/-- In the pause after a message whose writes succeeded, it is the last writer of every
signal. -/
theorem lastWriter_of_pause {v : Service} {messages : List PrimaryVehicleState} {k : Nat}
    {m : PrimaryVehicleState} (hm : messages[k]? = some m)
    (hwrites : ∀ signal, v.setFault (v.sets.length + (12 * k + callIndex signal)) = none)
    (signal : Signal) : LastWriter v messages signal (12 * (k + 1)) k m := by
  have hindex := callIndex_lt signal
  refine ⟨hm, ⟨by omega, hwrites signal⟩, fun later hlater _ hwrote => ?_⟩
  have hbefore := hwrote.1
  omega

/-- **The timestamp in a sweep.**  For every sequence of messages, every pattern of failing
writes and every interleaving of the client's writes with one sweep, a payload value whose
property the client writes is that of the last message whose own write to the property
succeeded before the property was read, or what the property held at first if there is none.
Let the timestamp be the one of message `m`.  Then another value is `m`'s if its own write
to the property succeeded before the read and no later message's did; and all values are
`m`'s if all its writes succeeded and the sweep runs between the last of them and the first
of the next message. -/
theorem sweep_values {ptr : ClientPtr} (hptr : ptr ≠ 0) (messages : List PrimaryVehicleState)
    (v : Service) (payload : JMap) (schedule : List Turn)
    (hfinished : ((Sweeping.start messages payload v).run ptr schedule).readings = []) :
    let final := (Sweeping.start messages payload v).run ptr schedule
    let n := turnsBefore schedule
    Monotone n ∧
    (∀ i reading signal, ReadsSignal i reading signal →
      (∀ k m, LastWriter v messages signal (n i) k m →
        final.Reports v i reading [signal.field m]) ∧
      ((∀ k m, ¬LastWriter v messages signal (n i) k m) →
        final.Reports v i reading (v.store signal.key))) ∧
    ∀ k m, LastWriter v messages .timestamp (n 14) k m →
      final.Reports v 14 (.int VEOS_LAST_UPDATE_TIMESTAMP) [m.timestampMs.toInt32] ∧
      (∀ i reading signal, ReadsSignal i reading signal → Wrote v signal (n i) k →
        (∀ later, k < later → later < messages.length → ¬Wrote v signal (n i) later) →
          final.Reports v i reading [signal.field m]) ∧
      ((∀ signal, v.setFault (v.sets.length + (12 * k + callIndex signal)) = none) →
        (∀ i, i ≤ 14 → n i = 12 * (k + 1)) →
          ∀ i reading signal, ReadsSignal i reading signal →
            final.Reports v i reading [signal.field m]) := by
  intro final n
  have hentries : ∀ i reading signal, ReadsSignal i reading signal → _ :=
    fun i reading signal hreads => sweep_entry hptr messages v payload schedule hfinished hreads
  refine ⟨turnsBefore_monotone schedule, hentries, fun k m htimestamp => ⟨?_, ?_, ?_⟩⟩
  · exact (hentries 14 _ .timestamp ⟨rfl, rfl⟩).1 k m htimestamp
  · intro i reading signal hreads hwrote hlast
    exact (hentries i reading signal hreads).1 k m ⟨htimestamp.message, hwrote, hlast⟩
  · intro hwrites hpause i reading signal hreads
    have hi : i < 15 := (List.getElem?_eq_some_iff.1 hreads.1).1
    have hwriter := lastWriter_of_pause htimestamp.message hwrites signal
    rw [← hpause i (by omega)] at hwriter
    exact (hentries i reading signal hreads).1 k m hwriter

/-- Two messages with different timestamps and left turn signals. -/
def twoMessages : List PrimaryVehicleState :=
  [{ timestampMs := 1 }, { timestampMs := 2, turnSignalLeft := true }]

/-- The client gets as far as the timestamp of the second message before the sweep. -/
def tornSchedule : List Turn :=
  List.replicate 20 .client ++ List.replicate 15 .service

/-- The timestamp is that of the second message, the high beam still that of the first. -/
theorem timestamp_ahead_of_values :
    let final := (Sweeping.start twoMessages [] (.fresh fun _ => [])).run 1 tornSchedule
    final.readings = [] ∧
    LastWriter (.fresh fun _ => []) twoMessages .timestamp (turnsBefore tornSchedule 14) 1
      { timestampMs := 2, turnSignalLeft := true } ∧
    final.payload.lookup "veos_last_update_timestamp" = some (.number (.integer 2)) ∧
    final.payload.lookup "veos_high_beam_lights_state" = some (.boolean false) ∧
    ¬final.Reports (.fresh fun _ => []) 10 (.bool VEOS_TURN_SIGNAL_LEFT_STATE)
      [Signal.turnLeft.field { timestampMs := 2, turnSignalLeft := true }] := by
  intro final
  have hstale : final.payload.lookup "veos_high_beam_lights_state" = some (.boolean false) := rfl
  refine ⟨rfl, ⟨rfl, ⟨by decide, rfl⟩, ?_⟩, rfl, hstale, fun hreports => ?_⟩
  · intro later hlater hbound
    simp only [twoMessages, List.length_cons, List.length_nil] at hbound
    omega
  · have hfresh := hstale.symm.trans hreports
    cases hfresh

/-- In a sweep after the first message all values are that message's. -/
theorem values_after_first_message :
    let schedule := List.replicate 12 Turn.client ++ List.replicate 15 Turn.service
    let final := (Sweeping.start twoMessages [] (.fresh fun _ => [])).run 1 schedule
    final.Reports (.fresh fun _ => []) 14 (.int VEOS_LAST_UPDATE_TIMESTAMP) [1] ∧
    final.Reports (.fresh fun _ => []) 10 (.bool VEOS_TURN_SIGNAL_LEFT_STATE) [0] := by
  intro schedule final
  have hptr : (1 : ClientPtr) ≠ 0 := by decide
  have htimestamp : LastWriter (.fresh fun _ => []) twoMessages .timestamp (12 * (0 + 1)) 0
      { timestampMs := 1 } :=
    lastWriter_of_pause rfl (fun _ => rfl) .timestamp
  obtain ⟨-, -, hmessage⟩ :=
    sweep_values hptr twoMessages (.fresh fun _ => []) [] schedule rfl
  obtain ⟨hreported, -, hpause⟩ := hmessage 0 _ htimestamp
  have hturns : ∀ i, i ≤ 14 → turnsBefore schedule i = 12 := by decide
  exact ⟨hreported, hpause (fun _ => rfl) hturns 10 _ .turnLeft ⟨rfl, rfl⟩⟩

end Vehicle
end Veos
