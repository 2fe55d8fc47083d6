import Veos.Library.ProgramEnsures
import Veos.Telemetry.ResponseBodies
import Veos.Vehicle.Provenance

/-!
# What ends a process

An exception that leaves a callback ends the process.  The client catches what decoding
throws, and `applyControls` and the refresh of the dashboard what their calls throw, so no
call that fails ends a process.  What does is a connection that fails in `onCreate`, and a
response whose `results` cannot be cast (`processes_ended_iff`).
-/

namespace Veos
namespace Vehicle

open Java Vhal Someip Telemetry Dashboard Tool CallPrograms

/-! ## Fatal events -/

/-- The casts of `onResponse` fail on the body. -/
def Malformed (response : Response) : Prop :=
  response.isSuccessful = true ∧ ∃ body, response.body = some body ∧
    ¬Castable (body.get "results")

/-- The action creates an instance of the service or of the activity. -/
def isCreation : Role → ProcessAction → Bool
  | .telemetry, .start .telemetry (.onCreate _) => true
  | .dashboard, .start .dashboard .onCreate => true
  | _, _ => false

def creations (role : Role) (actions : List ProcessAction) : Nat :=
  actions.countP (isCreation role)

/-- Each `onCreate` connects once, and one of the connections fails. -/
def ConnectFails (role : Role) (clients : Clients) (actions : List ProcessAction) : Prop :=
  ∃ n < creations role actions, clients.createFails (clients.attempts + n) = true

/-- A malformed response is delivered. -/
def MalformedArrives (actions : List ProcessAction) : Prop :=
  ∃ request response, Started actions .telemetry (.response request response) ∧
    Malformed response

theorem creations_append_singleton (role : Role) (past : List ProcessAction)
    (action : ProcessAction) :
    creations role (past ++ [action]) =
      creations role past + if isCreation role action then 1 else 0 := by
  rw [creations, List.countP_append, List.countP_singleton]
  rfl

theorem connectFails_append_singleton (role : Role) (clients : Clients)
    (past : List ProcessAction) (action : ProcessAction) :
    ConnectFails role clients (past ++ [action]) ↔ ConnectFails role clients past ∨
      (isCreation role action = true ∧
        clients.createFails (clients.attempts + creations role past) = true) := by
  rw [ConnectFails, creations_append_singleton]
  constructor
  · rintro ⟨n, hn, hfails⟩
    by_cases hlt : n < creations role past
    · exact Or.inl ⟨n, hlt, hfails⟩
    · by_cases haction : isCreation role action = true
      · rw [if_pos haction] at hn
        obtain rfl : n = creations role past := by omega
        exact Or.inr ⟨haction, hfails⟩
      · rw [if_neg haction] at hn
        exact absurd hn hlt
  · rintro (⟨n, hlt, hfails⟩ | ⟨haction, hfails⟩)
    · exact ⟨n, by omega, hfails⟩
    · rw [if_pos haction]
      exact ⟨creations role past, Nat.lt_succ_self _, hfails⟩

theorem connectFails_skip {role : Role} {action : ProcessAction}
    (haction : isCreation role action = false) (clients : Clients) (past : List ProcessAction) :
    ConnectFails role clients (past ++ [action]) ↔ ConnectFails role clients past := by
  rw [connectFails_append_singleton, haction]
  simp

theorem malformedArrives_append_singleton (past : List ProcessAction) (action : ProcessAction) :
    MalformedArrives (past ++ [action]) ↔ MalformedArrives past ∨
      ∃ request response, action = .start .telemetry (.response request response) ∧
        Malformed response := by
  constructor
  · rintro ⟨request, response, hstarted, hmalformed⟩
    rcases List.mem_append.1 hstarted with hmem | hmem
    · exact Or.inl ⟨request, response, hmem, hmalformed⟩
    · exact Or.inr ⟨request, response, (List.mem_singleton.1 hmem).symm, hmalformed⟩
  · rintro (⟨request, response, hmem, hmalformed⟩ | ⟨request, response, rfl, hmalformed⟩)
    · exact ⟨request, response, List.mem_append_left _ hmem, hmalformed⟩
    · exact ⟨request, response, List.mem_append_right _ (List.mem_singleton_self _), hmalformed⟩

theorem malformedArrives_skip {action : ProcessAction}
    (haction : ∀ request response, action = .start .telemetry (.response request response) →
      ¬Malformed response) (past : List ProcessAction) :
    MalformedArrives (past ++ [action]) ↔ MalformedArrives past := by
  rw [malformedArrives_append_singleton]
  refine ⟨?_, Or.inl⟩
  rintro (h | ⟨request, response, heq, hmalformed⟩)
  · exact h
  · exact absurd hmalformed (haction request response heq)

theorem isCreation_of_other {role : Role} {action : ProcessAction}
    (haction : action.process ≠ role ∨ action = .turn role) : isCreation role action = false := by
  rcases haction with hne | rfl
  · cases action with
    | start other event =>
        cases role <;> cases other <;> first | rfl | exact absurd rfl hne
    | _ => cases role <;> rfl
  · cases role <;> rfl

/-! ## Connections -/

/-- The process has connected once for each of its creations. -/
def Counts (role : Role) (clients : Clients) (past : List ProcessAction) (now : Clients) : Prop :=
  now.createFails = clients.createFails ∧ now.attempts = clients.attempts + creations role past

theorem Counts.skip {role : Role} {clients now : Clients} {past : List ProcessAction}
    (h : Counts role clients past now) {action : ProcessAction}
    (haction : isCreation role action = false) : Counts role clients (past ++ [action]) now := by
  refine ⟨h.1, ?_⟩
  rw [creations_append_singleton, haction]
  exact h.2

/-- The connection of a creation fails, or the process has connected once more. -/
theorem Counts.connect {role : Role} {clients now : Clients} {past : List ProcessAction}
    (h : Counts role clients past now) (action : ProcessAction)
    (haction : isCreation role action = true) (hfine : ¬ConnectFails role clients past) :
    (ConnectFails role clients (past ++ [action]) ∧ ∃ e ptr after,
      VhalNative.init now = (.error e, ptr, after)) ∨
    (¬ConnectFails role clients (past ++ [action]) ∧ ∃ ptr after,
      VhalNative.init now = (.ok (), ptr, after) ∧
      Counts role clients (past ++ [action]) after) := by
  rw [connectFails_append_singleton, haction, ← h.1, ← h.2]
  rcases VhalNative.init_cases now with ⟨hfails, hinit⟩ | ⟨hfails, hinit⟩
  · exact Or.inl ⟨Or.inr ⟨rfl, hfails⟩, _, _, _, hinit⟩
  · refine Or.inr ⟨?_, _, _, hinit, h.1, ?_⟩
    · rintro (hbefore | ⟨-, hnow⟩)
      · exact hfine hbefore
      · rw [hfails] at hnow
        cases hnow
    · rw [creations_append_singleton, haction, h.2]
      rfl

theorem release_counts {role : Role} {clients now : Clients} {past : List ProcessAction}
    (ptr : ClientPtr) (h : Counts role clients past now) :
    Counts role clients past (VhalNative.release ptr now).2 := by
  rw [VhalNative.release_eq, vhalDisconnect]
  split <;> exact h

/-! ## The callbacks -/

theorem returns_always {α : Type} (p : VhalProgram α) : p.Returns fun _ => True := by
  unfold Program.Returns
  induction p with
  | ret a => trivial
  | call c next ih => exact fun answer _ _ => ih answer

theorem onResponse_malformed (ptr : ClientPtr) {response : Response} (h : Malformed response)
    (caches : Caches) :
    Callback.onResponse ptr response caches = .ret (.error .classCastException, caches) := by
  obtain ⟨hsuccessful, body, hbody, hcastable⟩ := h
  simp only [Callback.onResponse, hsuccessful, if_true, hbody]
  split
  · rename_i heq
    exact absurd (Or.inl (Or.inl heq)) hcastable
  · rename_i heq
    exact absurd (Or.inl (Or.inr (Or.inl heq))) hcastable
  · rename_i heq
    exact absurd (Or.inl (Or.inr (Or.inr ⟨_, heq⟩))) hcastable
  · rename_i heq
    exact absurd (Or.inr ⟨_, _, heq⟩) hcastable
  · rfl

theorem onResponse_returns (ptr : ClientPtr) {response : Response} (h : ¬Malformed response)
    (caches : Caches) :
    (Callback.onResponse ptr response caches).Returns fun result => result.1 = .ok () := by
  have hcontrols (controls : Option JMap) :
      (Callback.applyControls ptr controls caches >>= fun caches =>
        return ((.ok () : Except JavaException Unit), caches)).Returns
          fun result => result.1 = .ok () :=
    Program.Ensures.bind (returns_always _) fun _ _ _ => rfl
  cases hsuccessful : response.isSuccessful with
  | false =>
      simp only [Callback.onResponse, hsuccessful]
      exact rfl
  | true =>
      cases hbody : response.body with
      | none =>
          simp only [Callback.onResponse, hsuccessful, hbody]
          exact rfl
      | some body =>
          have hcastable : Castable (body.get "results") := by
            by_contra hcast
            exact h ⟨hsuccessful, body, hbody, hcast⟩
          simp only [Callback.onResponse, hsuccessful, if_true, hbody]
          rcases hcastable with (hnull | hempty | ⟨others, hnull⟩) | ⟨reading, others, hreading⟩
          · rw [hnull]
            exact rfl
          · rw [hempty]
            exact rfl
          · rw [hnull]
            exact hcontrols none
          · rw [hreading]
            exact hcontrols (some reading)

/-! ## The processes -/

/-- What has ended the service. -/
def ServiceEnds (clients : Clients) (actions : List ProcessAction) : Prop :=
  ConnectFails .telemetry clients actions ∨ MalformedArrives actions

theorem serviceEnds_skip {clients : Clients} {past : List ProcessAction} {action : ProcessAction}
    (hcreation : isCreation .telemetry action = false)
    (hresponse : ∀ request response, action = .start .telemetry (.response request response) →
      ¬Malformed response) :
    ServiceEnds clients (past ++ [action]) ↔ ServiceEnds clients past := by
  rw [ServiceEnds, ServiceEnds, connectFails_skip hcreation, malformedArrives_skip hresponse]

/-- The events that neither connect nor deliver a malformed response do not end the service. -/
theorem service_goes_on {clients : Clients} {past : List ProcessAction} (a' : TelemetryProcess)
    (event : Telemetry.Event) (hfine : ¬ServiceEnds clients past)
    (hcounts : Counts .telemetry clients past a'.clients)
    (hcreation : isCreation .telemetry (.start .telemetry event) = false)
    (hresponse : ∀ request response, event = .response request response → ¬Malformed response) :
    ¬ServiceEnds clients (past ++ [.start .telemetry event]) ∧
      Counts .telemetry clients (past ++ [.start .telemetry event]) a'.clients := by
  refine ⟨fun hends => hfine ((serviceEnds_skip hcreation ?_).1 hends), hcounts.skip hcreation⟩
  rintro request response heq
  cases heq
  exact hresponse request response rfl

theorem onCreate_decides {clients : Clients} {past : List ProcessAction} {a : TelemetryProcess}
    {around : Surroundings} {program : VhalProgram (Option TelemetryProcess)}
    (hhandle : a.handle (.onCreate around) = some program) (hfine : ¬ServiceEnds clients past)
    (hcounts : Counts .telemetry clients past a.clients) :
    program.Decides (ServiceEnds clients (past ++ [.start .telemetry (.onCreate around)]))
      fun a' => Counts .telemetry clients (past ++ [.start .telemetry (.onCreate around)])
        a'.clients := by
  have hnone : ∀ request response, (.start .telemetry (.onCreate around) : ProcessAction) =
      .start .telemetry (.response request response) → ¬Malformed response := by
    intro request response heq
    cases heq
  rw [ServiceEnds, malformedArrives_skip hnone]
  simp only [TelemetryProcess.handle] at hhandle
  split at hhandle
  · cases hhandle
  · rcases hcounts.connect (.start .telemetry (.onCreate around)) rfl
        fun h => hfine (Or.inl h) with
      ⟨hfails, e, ptr, after, hinit⟩ | ⟨hfails, ptr, after, hinit, hnow⟩
    · rw [hinit] at hhandle
      cases hhandle
      exact Or.inl ⟨Or.inl hfails, rfl⟩
    · rw [hinit] at hhandle
      cases hhandle
      refine Or.inr ⟨?_, Program.Ensures.bind (returns_always _) ?_⟩
      · rintro (hconnect | hmalformed)
        · exact hfails hconnect
        · exact hfine (Or.inr hmalformed)
      · exact fun payload _ _ => ⟨_, rfl, hnow⟩

theorem response_decides {clients : Clients} {past : List ProcessAction} {a : TelemetryProcess}
    {request : Nat} {response : Response} {program : VhalProgram (Option TelemetryProcess)}
    (hhandle : a.handle (.response request response) = some program)
    (hfine : ¬ServiceEnds clients past) (hcounts : Counts .telemetry clients past a.clients) :
    program.Decides
      (ServiceEnds clients (past ++ [.start .telemetry (.response request response)]))
      fun a' => Counts .telemetry clients
        (past ++ [.start .telemetry (.response request response)]) a'.clients := by
  simp only [TelemetryProcess.handle] at hhandle
  split at hhandle
  · cases hhandle
  · split at hhandle
    · cases hhandle
    · rename_i caches howner
      cases hhandle
      by_cases hmalformed : Malformed response
      · refine Or.inl ⟨Or.inr ((malformedArrives_append_singleton _ _).2
          (Or.inr ⟨request, response, rfl, hmalformed⟩)), ?_⟩
        rw [onResponse_malformed a.clientPtr hmalformed]
        rfl
      · have hresponse : ∀ request' response',
            Telemetry.Event.response request response = .response request' response' →
              ¬Malformed response' := by
          rintro request' response' heq
          cases heq
          exact hmalformed
        obtain ⟨hends, hnow⟩ :=
          service_goes_on a (.response request response) hfine hcounts rfl hresponse
        refine Or.inr ⟨hends, (onResponse_returns a.clientPtr hmalformed caches).bind ?_⟩
        rintro ⟨result, caches'⟩ _ hok
        obtain rfl : result = .ok () := hok
        exact ⟨_, rfl, hnow⟩

theorem handle_service {clients : Clients} {past : List ProcessAction} {a : TelemetryProcess}
    {event : Telemetry.Event} {program : VhalProgram (Option TelemetryProcess)}
    (hhandle : a.handle event = some program) (hfine : ¬ServiceEnds clients past)
    (hcounts : Counts .telemetry clients past a.clients) :
    program.Decides (ServiceEnds clients (past ++ [.start .telemetry event]))
      fun a' => Counts .telemetry clients (past ++ [.start .telemetry event]) a'.clients := by
  cases event with
  | onCreate around => exact onCreate_decides hhandle hfine hcounts
  | response request response => exact response_decides hhandle hfine hcounts
  | onDestroy =>
      simp only [TelemetryProcess.handle] at hhandle
      split at hhandle
      · cases hhandle
      · cases hhandle
        obtain ⟨hends, hnow⟩ := service_goes_on
          { a with clients := (VhalNative.release a.clientPtr a.clients).2 } .onDestroy hfine
          (release_counts a.clientPtr hcounts) rfl (fun _ _ heq => by cases heq)
        exact Or.inr ⟨hends, _, rfl, hnow⟩
  | timer owner =>
      simp only [TelemetryProcess.handle] at hhandle
      split at hhandle
      · cases hhandle
        obtain ⟨hends, hnow⟩ := service_goes_on a (.timer owner) hfine hcounts rfl
          (fun _ _ heq => by cases heq)
        exact Or.inr ⟨hends, _, rfl, hnow⟩
      · cases hhandle
  | failure request =>
      simp only [TelemetryProcess.handle] at hhandle
      split at hhandle
      · cases hhandle
        obtain ⟨hends, hnow⟩ := service_goes_on a (.failure request) hfine hcounts rfl
          (fun _ _ heq => by cases heq)
        exact Or.inr ⟨hends, _, rfl, hnow⟩
      · cases hhandle

theorem handle_activity {clients : Clients} {past : List ProcessAction} {a : DashboardProcess}
    {event : ActivityEvent} {program : VhalProgram (Option DashboardProcess)}
    (hhandle : a.handle event = some program) (hfine : ¬ConnectFails .dashboard clients past)
    (hcounts : Counts .dashboard clients past a.clients) :
    program.Decides (ConnectFails .dashboard clients (past ++ [.start .dashboard event]))
      fun a' => Counts .dashboard clients (past ++ [.start .dashboard event]) a'.clients := by
  have hskip (hcreation : isCreation .dashboard (.start .dashboard event) = false) :
      ¬ConnectFails .dashboard clients (past ++ [.start .dashboard event]) := fun hfails =>
    hfine ((connectFails_skip hcreation clients past).1 hfails)
  cases event with
  | onCreate =>
      simp only [DashboardProcess.handle] at hhandle
      split at hhandle
      · cases hhandle
      · rcases hcounts.connect (.start .dashboard .onCreate) rfl hfine with
          ⟨hfails, e, ptr, after, hinit⟩ | ⟨hfails, ptr, after, hinit, hnow⟩
        · rw [hinit] at hhandle
          cases hhandle
          exact Or.inl ⟨hfails, rfl⟩
        · rw [hinit] at hhandle
          cases hhandle
          exact Or.inr ⟨hfails, _, rfl, hnow⟩
  | onDestroy =>
      simp only [DashboardProcess.handle] at hhandle
      split at hhandle
      · cases hhandle
      · cases hhandle
        exact Or.inr ⟨hskip rfl, _, rfl, hcounts.skip rfl⟩
  | update owner =>
      simp only [DashboardProcess.handle] at hhandle
      split at hhandle
      · cases hhandle
        refine Or.inr ⟨hskip rfl, Program.Ensures.bind (returns_always _) ?_⟩
        exact fun result _ _ => ⟨_, rfl, hcounts.skip rfl⟩
      · cases hhandle

/-- A process none of whose programs ends it has not ended. -/
theorem not_ended {p : Platform} {role : Role} {actions : List ProcessAction}
    {st st' : Processes} (hidle : st.Idle) (hrun : runProcesses p actions st = some st')
    (hreturns : ∀ l event program, role.handle p l event = some program →
      program.Returns fun result => ∃ l', result = some l') :
    st'.processes role ≠ .ended := by
  have hiff := run_ended_iff (i := role) (fun _ => False) (fun _ _ => True)
    (fun _ _ _ => ⟨not_false, trivial⟩)
    (fun past l event program hhandle _ _ => Or.inr ⟨not_false,
      (hreturns l event program hhandle).mono fun result _ ⟨l', hl'⟩ => ⟨l', hl', trivial⟩⟩)
    (fun _ _ _ => ⟨Iff.rfl, fun _ _ => trivial⟩) hidle not_false (fun _ _ => trivial) hrun
  exact hiff.1

/-- **What ends a process.**  Take any run, with any interleaving and whichever calls fail,
in which the service and the dashboard are not launched again.  The service has ended
exactly if a connection of one of its instances failed or a malformed response was
delivered, and the dashboard exactly if a connection of one of its activities failed.  The
client and the shells do not end. -/
theorem processes_ended_iff (p : Platform) (actions : List ProcessAction) (st st' : Processes)
    (hidle : st.Idle) (hrun : runProcesses p actions st = some st')
    (hservice : ∀ l, .launch .telemetry l ∉ actions)
    (hdashboard : ∀ l, .launch .dashboard l ∉ actions) (a : TelemetryProcess)
    (ha : st.processes .telemetry = .waiting a) (d : DashboardProcess)
    (hd : st.processes .dashboard = .waiting d) :
    (st'.processes .telemetry = .ended ↔
      ConnectFails .telemetry a.clients actions ∨ MalformedArrives actions) ∧
    (st'.processes .dashboard = .ended ↔ ConnectFails .dashboard d.clients actions) ∧
    st'.processes .client ≠ .ended ∧ ∀ n, st'.processes (.shell n) ≠ .ended := by
  refine ⟨?_, ?_, ?_, fun n => ?_⟩
  · refine run_ended_iff (i := Role.telemetry) (ServiceEnds a.clients)
      (fun past l => Counts .telemetry a.clients past l.clients)
      (fun past l hmem => absurd hmem (hservice l))
      (fun past l event program hhandle hfine hcounts => handle_service hhandle hfine hcounts)
      ?_ hidle ?_ ?_ hrun
    · intro past action haction
      have hcreation := isCreation_of_other haction
      refine ⟨serviceEnds_skip hcreation ?_, fun l h => h.skip hcreation⟩
      rintro request response rfl
      rcases haction with hne | heq
      · exact absurd rfl hne
      · cases heq
    · rintro (⟨n, hn, -⟩ | ⟨request, response, hstarted, -⟩)
      · exact absurd hn (Nat.not_lt_zero n)
      · cases hstarted
    · intro l hl
      rw [ha] at hl
      cases hl
      exact ⟨rfl, rfl⟩
  · refine run_ended_iff (i := Role.dashboard) (ConnectFails .dashboard d.clients)
      (fun past l => Counts .dashboard d.clients past l.clients)
      (fun past l hmem => absurd hmem (hdashboard l))
      (fun past l event program hhandle hfine hcounts => handle_activity hhandle hfine hcounts)
      ?_ hidle ?_ ?_ hrun
    · intro past action haction
      have hcreation := isCreation_of_other haction
      exact ⟨connectFails_skip hcreation d.clients past, fun l h => h.skip hcreation⟩
    · rintro ⟨n, hn, -⟩
      exact absurd hn (Nat.not_lt_zero n)
    · intro l hl
      rw [hd] at hl
      cases hl
      exact ⟨rfl, rfl⟩
  · refine not_ended hidle hrun fun l event program hhandle => ?_
    obtain rfl := Option.some.inj hhandle
    exact Program.Ensures.bind (returns_always _) fun _ _ _ => ⟨_, rfl⟩
  · refine not_ended hidle hrun fun l event program hhandle => ?_
    obtain rfl := Option.some.inj hhandle
    exact Program.Ensures.bind (returns_always _) fun _ _ _ => ⟨_, rfl⟩

/-- The head unit of a dashboard that cannot connect. -/
def beforeCrashes : Processes :=
  { Programs.launched 1 (fun _ => false) (.fresh fun _ => []) with
    dashboard := .launched (fun _ => true) (.fresh fun _ => []) }.processes

/-- A response of the server with a string where the readings should be. -/
def stringResponse : Response :=
  ⟨200, some [("results", .string "none")]⟩

/-- The dashboard fails to connect, and then the service receives the response. -/
def crashes : List ProcessAction :=
  .start .dashboard .onCreate :: .start .telemetry (.onCreate ⟨0, none⟩) ::
    List.replicate 15 (.turn .telemetry) ++
    [.start .telemetry (.timer 0), .start .client [0], .turn .client,
      .start .telemetry (.response 0 stringResponse), .turn .client]

/-- Both processes end. -/
theorem crashes_end :
    let after := (runProcesses paddingPlatform crashes beforeCrashes).get rfl
    after.processes .telemetry = .ended ∧ after.processes .dashboard = .ended ∧
    (after.processes .telemetry = .ended ↔
      ConnectFails .telemetry ⟨[], 0, fun _ => false⟩ crashes ∨ MalformedArrives crashes) ∧
    (after.processes .dashboard = .ended ↔
      ConnectFails .dashboard ⟨[], 0, fun _ => true⟩ crashes) ∧
    after.processes .client ≠ .ended ∧ ∀ n, after.processes (.shell n) ≠ .ended :=
  ⟨rfl, rfl, processes_ended_iff paddingPlatform crashes beforeCrashes _ (Programs.processes_idle _)
    (Option.some_get rfl).symm (by simp [crashes]) (by simp [crashes]) _ rfl _ rfl⟩

end Vehicle
end Veos
