import Veos.Someip.StatusRuns
import Veos.Telemetry.ControlRuns

/-!
# The SOME/IP client and the telemetry service side by side

Two processes write to one VHAL.  The client works through the set requests of its
messages, the telemetry service through the blocks of its `applyControls` calls,
and a schedule says which of them makes its next write.  A `Turn` performs at most
one set call, so schedules cover every interleaving of individual writes.

On a VHAL without faults the service never learns what the VHAL holds, so what it
writes depends on its maps and caches alone (`Pending.stored_finish`).  Hence a
finished schedule stores a merge of the two write sequences
(`Concurrent.run_interleaving`), and only keys that both write can depend on it.
-/

namespace Veos
namespace Vehicle

open Vhal Someip Telemetry Java LastWrite

/-! ## The two programs -/

/-- The set requests of the client for a sequence of messages. -/
def messageWrites (messages : List PrimaryVehicleState) : List (Key × List Int32) :=
  messages.flatMap statusRequests

/-- The client makes these requests, whatever the VHAL holds or fails. -/
theorem messages_eq_setAll {c : ClientPtr} (hc : c ≠ 0) (messages : List PrimaryVehicleState)
    (v : Service) :
    messages.foldl (fun v s => processPrimaryVehicleState c s v) v =
      v.setAll (messageWrites messages) := by
  induction messages generalizing v with
  | nil => rfl
  | cons s messages ih =>
      rw [List.foldl_cons, ih, process_eq_setAll c s v hc, messageWrites, messageWrites,
        List.flatMap_cons, Service.setAll, Service.setAll, Service.setAll, List.foldl_append]

/-- What the service has still to do: calls, each with the blocks left of it. -/
abbrev Pending := List (Call × List Control)

namespace Pending

/-- The calls before any of them starts. -/
def ofCalls (calls : List Call) : Pending :=
  calls.map fun call => (call, Control.all)

/-- The service alone, working until nothing is left. -/
def finish : Pending → ServiceState → ServiceState
  | [], t => t
  | (call, cs) :: rest, t => finish rest (applyBlocks call.clientPtr call.controls cs t).2

theorem finish_ofCalls (calls : List Call) (t : ServiceState) :
    finish (ofCalls calls) t = runControls calls t := by
  induction calls generalizing t with
  | nil => rfl
  | cons call calls ih =>
      have hcall : (call.run t).2 =
          (applyBlocks call.clientPtr call.controls Control.all t).2 :=
        applyControls_snd call.clientPtr call.controls t
      rw [ofCalls, List.map_cons, finish, ← ofCalls, ih, ← hcall]
      rfl

/-- Without faults the remaining set calls do not depend on what the VHAL holds. -/
theorem finish_lockstep (todo : Pending) {t t' : ServiceState} (hcaches : t.caches = t'.caches)
    (hv : t.vhal.Faultless) (hv' : t'.vhal.Faultless) :
    ∃ sets, Extends t.vhal sets (finish todo t).vhal ∧
      Extends t'.vhal sets (finish todo t').vhal := by
  induction todo generalizing t t' with
  | nil => exact ⟨[], Extends.refl _, Extends.refl _⟩
  | cons entry rest ih =>
      obtain ⟨call, cs⟩ := entry
      obtain ⟨-, hafter, sets, hblocks, hblocks'⟩ :=
        applyBlocks_lockstep call.clientPtr call.controls cs hcaches hv hv'
      obtain ⟨later, hlater, hlater'⟩ :=
        ih hafter (hblocks.faultless hv) (hblocks'.faultless hv')
      exact ⟨sets ++ later, hblocks.trans hlater, hblocks'.trans hlater'⟩

/-- The writes that remain, computed on an empty VHAL. -/
def writes (todo : Pending) (caches : Caches) : List (Key × List Int32) :=
  stored (finish todo ⟨caches, .fresh fun _ => []⟩).vhal.sets

/-- Every VHAL without faults sees these writes. -/
theorem stored_finish (todo : Pending) {t : ServiceState} (hv : t.vhal.Faultless) :
    ∃ sets, Extends t.vhal sets (finish todo t).vhal ∧ stored sets = writes todo t.caches := by
  have hcaches : t.caches = (⟨t.caches, .fresh fun _ => []⟩ : ServiceState).caches := rfl
  obtain ⟨sets, hextends, hfresh⟩ :=
    finish_lockstep todo hcaches hv (Service.fresh_faultless _)
  refine ⟨sets, hextends, ?_⟩
  rw [writes, hfresh.sets]
  rfl

/-- Once part of the work is done, the writes split into those done and those that
remain. -/
theorem writes_split {todo todo' : Pending} {t t' : ServiceState} {sets : List SetCall}
    (hv : t.vhal.Faultless) (hsets : Extends t.vhal sets t'.vhal)
    (hfinish : finish todo t = finish todo' t') :
    writes todo t.caches = stored sets ++ writes todo' t'.caches := by
  obtain ⟨all, hall, hstored⟩ := stored_finish todo hv
  obtain ⟨later, hlater, hstored'⟩ := stored_finish todo' (hsets.faultless hv)
  rw [hfinish] at hall
  rw [← hstored, ← hstored', ← stored_append, ← (hsets.trans hlater).setsSince, hall.setsSince]

/-- One block of the service.  An exception ends the call that the block is of. -/
def next : Pending → ServiceState → Pending × ServiceState
  | [], t => ([], t)
  | (_, []) :: rest, t => (rest, t)
  | (call, c :: cs) :: rest, t =>
      match applyControl call.clientPtr call.controls c t with
      | (.error _, t) => (rest, t)
      | (.ok _, t) => ((call, cs) :: rest, t)

/-- A block makes at most one set call and brings the work forward. -/
theorem next_spec (todo : Pending) (t : ServiceState) :
    finish todo t = finish (next todo t).1 (next todo t).2 ∧
    ∃ sets, Extends t.vhal sets (next todo t).2.vhal ∧ sets.length ≤ 1 := by
  match todo with
  | [] => exact ⟨rfl, [], Extends.refl _, by simp⟩
  | (call, []) :: rest => exact ⟨rfl, [], Extends.refl _, by simp⟩
  | (call, c :: cs) :: rest =>
      cases hblock : applyControl call.clientPtr call.controls c t with
      | mk result t' =>
          have hsets := applyControl_sets call.clientPtr call.controls c t
          rw [hblock] at hsets
          cases result with
          | error e =>
              simp only [next, hblock, finish, applyBlocks]
              exact ⟨trivial, hsets⟩
          | ok _ =>
              simp only [next, hblock, finish, applyBlocks]
              exact ⟨trivial, hsets⟩

end Pending

/-! ## Schedules -/

/-- Whose turn it is. -/
inductive Turn
  | client
  | service

/-- The two processes and the VHAL they share. -/
structure Concurrent where
  requests : List (Key × List Int32)
  todo : Pending
  service : ServiceState

namespace Concurrent

/-- The client that handles `messages` and a new instance of the service that makes
`calls`. -/
def start (messages : List PrimaryVehicleState) (calls : List Call) (v : Service) : Concurrent where
  requests := messageWrites messages
  todo := .ofCalls calls
  service := .initial v

/-- One turn.  A process that is done lets its turn pass. -/
def turn (st : Concurrent) : Turn → Concurrent
  | .client =>
      match st.requests with
      | [] => st
      | request :: requests =>
          { st with
            requests := requests
            service.vhal := (st.service.vhal.setValueSync request.1 request.2).2 }
  | .service =>
      let (todo, service) := st.todo.next st.service
      { st with todo := todo, service := service }

def run (st : Concurrent) (schedule : List Turn) : Concurrent :=
  schedule.foldl turn st

/-- Both processes are done. -/
def Finished (st : Concurrent) : Prop :=
  st.requests = [] ∧ st.todo = []

/-- A finished schedule stores a merge of the writes that the two processes had
before them. -/
theorem run_interleaving (st : Concurrent) (hv : st.service.vhal.Faultless)
    (schedule : List Turn) (hfinished : (st.run schedule).Finished) :
    ∃ sets, Extends st.service.vhal sets (st.run schedule).service.vhal ∧
      Interleaving st.requests (st.todo.writes st.service.caches) (stored sets) := by
  induction schedule generalizing st with
  | nil =>
      obtain ⟨hrequests, htodo⟩ := hfinished
      simp only [run, List.foldl_nil] at hrequests htodo
      rw [hrequests, htodo]
      exact ⟨[], Extends.refl _, .nil⟩
  | cons first schedule ih =>
      have hrun : st.run (first :: schedule) = (st.turn first).run schedule := rfl
      rw [hrun] at hfinished ⊢
      cases first with
      | client =>
          cases hrequests : st.requests with
          -- the client is done and lets its turn pass
          | nil =>
              have hidle : st.turn .client = st := by simp [turn, hrequests]
              rw [hidle] at hfinished ⊢
              rw [← hrequests]
              exact ih st hv hfinished
          -- its next write is the head of the merge
          | cons request requests =>
              have hset := Extends.set st.service.vhal request.1 request.2
              rw [hv.1] at hset
              have hturn : st.turn .client =
                  { st with
                    requests := requests
                    service.vhal := (st.service.vhal.setValueSync request.1 request.2).2 } := by
                simp [turn, hrequests]
              rw [hturn] at hfinished ⊢
              obtain ⟨sets, hextends, hmerge⟩ :=
                ih ⟨requests, st.todo, st.service.caches, _⟩ (hset.faultless hv) hfinished
              refine ⟨_, hset.trans hextends, ?_⟩
              rw [stored_append, stored_singleton]
              exact hmerge.left
      | service =>
          -- the block's write, if it makes one, is the head of the merge
          obtain ⟨hfinish, sets, hblock, -⟩ := st.todo.next_spec st.service
          have hwrites := Pending.writes_split hv hblock hfinish
          obtain ⟨sets', hextends, hmerge⟩ := ih (st.turn .service) (hblock.faultless hv) hfinished
          refine ⟨sets ++ sets', hblock.trans hextends, ?_⟩
          rw [hwrites, stored_append]
          exact hmerge.append_right (stored sets)

/-- The client can run to its end first. -/
theorem exists_client_run (st : Concurrent) :
    ∃ schedule, st.run schedule =
      { st with
        requests := []
        service.vhal := st.service.vhal.setAll st.requests } := by
  obtain ⟨requests, todo, service⟩ := st
  induction requests generalizing service with
  | nil => exact ⟨[], rfl⟩
  | cons request requests ih =>
      obtain ⟨schedule, hschedule⟩ :=
        ih { service with vhal := (service.vhal.setValueSync request.1 request.2).2 }
      exact ⟨.client :: schedule, hschedule⟩

/-- The service can run to its end first. -/
theorem exists_service_run (st : Concurrent) :
    ∃ schedule, st.run schedule =
      { st with todo := [], service := st.todo.finish st.service } := by
  obtain ⟨requests, todo, service⟩ := st
  induction todo generalizing service with
  | nil => exact ⟨[], rfl⟩
  | cons entry rest ih =>
      obtain ⟨call, cs⟩ := entry
      induction cs generalizing service with
      | nil =>
          obtain ⟨schedule, hschedule⟩ := ih service
          exact ⟨.service :: schedule, hschedule⟩
      | cons c cs ihBlocks =>
          cases hblock : applyControl call.clientPtr call.controls c service with
          | mk result service' =>
              cases result with
              | error e =>
                  obtain ⟨schedule, hschedule⟩ := ih service'
                  refine ⟨.service :: schedule, ?_⟩
                  have hturn : (Concurrent.mk requests ((call, c :: cs) :: rest) service).turn
                      .service = ⟨requests, rest, service'⟩ := by
                    simp [turn, Pending.next, hblock]
                  rw [run, List.foldl_cons, hturn, ← run, hschedule]
                  simp [Pending.finish, applyBlocks, hblock]
              | ok _ =>
                  obtain ⟨schedule, hschedule⟩ := ihBlocks service'
                  refine ⟨.service :: schedule, ?_⟩
                  have hturn : (Concurrent.mk requests ((call, c :: cs) :: rest) service).turn
                      .service = ⟨requests, (call, cs) :: rest, service'⟩ := by
                    simp [turn, Pending.next, hblock]
                  rw [run, List.foldl_cons, hturn, ← run, hschedule]
                  simp [Pending.finish, applyBlocks, hblock]

theorem run_append (st : Concurrent) (schedule schedule' : List Turn) :
    st.run (schedule ++ schedule') = (st.run schedule).run schedule' :=
  List.foldl_append

/-- A schedule in which the service starts when the client is done. -/
theorem client_first (st : Concurrent) (hv : st.service.vhal.Faultless) :
    ∃ schedule, (st.run schedule).Finished ∧ (st.run schedule).service.vhal.store =
      applyWrites st.service.vhal.store (st.requests ++ st.todo.writes st.service.caches) := by
  obtain ⟨schedule, hschedule⟩ := st.exists_client_run
  obtain ⟨schedule', hschedule'⟩ := (st.run schedule).exists_service_run
  refine ⟨schedule ++ schedule', ?_⟩
  rw [run_append, hschedule', hschedule]
  refine ⟨⟨rfl, rfl⟩, ?_⟩
  have hclient := st.service.vhal.setAll_extends st.requests
  obtain ⟨sets, hservice, hstored⟩ := Pending.stored_finish st.todo
    (t := { st.service with vhal := st.service.vhal.setAll st.requests }) (hclient.faultless hv)
  rw [(hclient.trans hservice).store, stored_append, hstored,
    st.service.vhal.stored_answers st.requests hv]

/-- A schedule in which the client starts when the service is done. -/
theorem service_first (st : Concurrent) (hv : st.service.vhal.Faultless) :
    ∃ schedule, (st.run schedule).Finished ∧ (st.run schedule).service.vhal.store =
      applyWrites st.service.vhal.store (st.todo.writes st.service.caches ++ st.requests) := by
  obtain ⟨schedule, hschedule⟩ := st.exists_service_run
  obtain ⟨schedule', hschedule'⟩ := (st.run schedule).exists_client_run
  refine ⟨schedule ++ schedule', ?_⟩
  rw [run_append, hschedule', hschedule]
  refine ⟨⟨rfl, rfl⟩, ?_⟩
  obtain ⟨sets, hservice, hstored⟩ := Pending.stored_finish st.todo hv
  have hclient := (st.todo.finish st.service).vhal.setAll_extends st.requests
  rw [(hservice.trans hclient).store, stored_append, hstored,
    Service.stored_answers _ st.requests (hservice.faultless hv)]

/-- What a key holds after a finished schedule, if the two processes agree on it. -/
theorem run_store_of_agree (st : Concurrent) (hv : st.service.vhal.Faultless)
    (schedule : List Turn) (hfinished : (st.run schedule).Finished) (key : Key)
    (hagree : ∀ a b, lastValue key st.requests = some a →
      lastValue key (st.todo.writes st.service.caches) = some b → a = b) :
    (st.run schedule).service.vhal.store key =
      ((lastValue key st.requests).or
        (lastValue key (st.todo.writes st.service.caches))).getD (st.service.vhal.store key) := by
  obtain ⟨sets, hextends, hmerge⟩ := st.run_interleaving hv schedule hfinished
  rw [hextends.store]
  exact applyWrites_of_agree hmerge st.service.vhal.store key hagree

/-- A key that both processes write ends with the last value of one of them. -/
theorem run_store_of_both (st : Concurrent) (hv : st.service.vhal.Faultless)
    (schedule : List Turn) (hfinished : (st.run schedule).Finished) (key : Key)
    {a b : List Int32} (hclient : lastValue key st.requests = some a)
    (hservice : lastValue key (st.todo.writes st.service.caches) = some b) :
    (st.run schedule).service.vhal.store key = a ∨
      (st.run schedule).service.vhal.store key = b := by
  obtain ⟨sets, hextends, hmerge⟩ := st.run_interleaving hv schedule hfinished
  rw [hextends.store, applyWrites_apply]
  rcases lastValue_of_both hmerge key hclient hservice with hlast | hlast
  · exact Or.inl (by rw [hlast]; rfl)
  · exact Or.inr (by rw [hlast]; rfl)

/-- All finished schedules leave the same store exactly when the processes agree on
every key that both write. -/
theorem run_store_unique_iff (st : Concurrent) (hv : st.service.vhal.Faultless) :
    (∀ schedule schedule', (st.run schedule).Finished → (st.run schedule').Finished →
      (st.run schedule).service.vhal.store = (st.run schedule').service.vhal.store) ↔
    ∀ key a b, lastValue key st.requests = some a →
      lastValue key (st.todo.writes st.service.caches) = some b → a = b := by
  constructor
  · intro hunique key a b hclient hservice
    -- compare the two schedules that run one process after the other
    obtain ⟨schedule, hfinished, hstore⟩ := st.client_first hv
    obtain ⟨schedule', hfinished', hstore'⟩ := st.service_first hv
    have hkey := congrFun (hunique schedule schedule' hfinished hfinished') key
    rw [hstore, hstore', applyWrites_apply, applyWrites_apply, lastValue_append,
      lastValue_append, hclient, hservice] at hkey
    exact hkey.symm
  · intro hagree schedule schedule' hfinished hfinished'
    funext key
    rw [st.run_store_of_agree hv schedule hfinished key (hagree key),
      st.run_store_of_agree hv schedule' hfinished' key (hagree key)]

end Concurrent

end Vehicle
end Veos
