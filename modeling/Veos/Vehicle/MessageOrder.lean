import Mathlib.Data.List.ReduceOption
import Veos.Vehicle.Displayed

/-!
# The order of the messages

The client writes the messages one after the other, so the values that a property takes
are fields of its messages in their order, some of them left out where a call failed or a
client was restarted (`client_writes`).  A reader sees each property in this order too:
what it reads later is the same value or one of a later message.  So whoever looks at the
display from time to time does not see a property go back (`shown_in_order`).
-/

namespace Veos
namespace Vehicle

open Java Vhal Someip Telemetry Dashboard Tool CallPrograms Observations

/-! ## What a property was set to -/

/-- The values that the calls stored under the key. -/
def written (key : Key) (calls : List SetCall) : List (List Int32) :=
  (successes key calls).map SetCall.values

theorem written_append (key : Key) (calls calls' : List SetCall) :
    written key (calls ++ calls') = written key calls ++ written key calls' := by
  rw [written, successes_append, List.map_append]
  rfl

theorem written_singleton (key : Key) (call : SetCall) :
    written key [call] =
      if call.key = key ∧ call.succeeded = true then [call.values] else [] := by
  by_cases hcall : call.key = key ∧ call.succeeded = true
  · simp [written, successes, hcall]
  · rw [if_neg hcall]
    simpa [written, successes] using hcall

/-- What the key held, from the start on. -/
def held (start : Service) (key : Key) (v : Service) : List (List Int32) :=
  start.store key :: written key (v.setsSince start)

theorem held_grows (start : Service) (key : Key) {v v' : Service} (hlater : Later v v') :
    held start key v <+: held start key v' := by
  obtain ⟨calls, hextends⟩ := hlater
  rw [held, held, List.prefix_cons_inj, Service.setsSince, Service.setsSince, hextends.sets,
    List.drop_append, written_append]
  exact List.prefix_append _ _

/-- The history ends with what the key holds. -/
theorem held_getLast (key : Key) {start v : Service} (hlater : Later start v) :
    (held start key v).getLast? = some (v.store key) := by
  obtain ⟨calls, hextends⟩ := hlater
  rw [held, hextends.setsSince, List.getLast?_cons, hextends.store_apply,
    lastStored_eq_successes, written, List.getLast?_map]

/-! ## The client -/

/-- The messages that the client began to handle. -/
def messages (p : Platform) (actions : List ProcessAction) : List PrimaryVehicleState :=
  actions.filterMap (handledMessage p)

/-- The fields of the messages, as they are written to the signal's property. -/
def fields (p : Platform) (signal : Signal) (actions : List ProcessAction) : List (List Int32) :=
  (messages p actions).map fun s => [signal.field s]

theorem fields_append_singleton (p : Platform) (signal : Signal) (actions : List ProcessAction)
    (action : ProcessAction) :
    fields p signal (actions ++ [action]) =
      fields p signal actions ++
        ((handledMessage p action).map fun s => [signal.field s]).toList := by
  cases hhandled : handledMessage p action <;> simp [fields, messages, hhandled]

/-- The values of a signal among the requests of the client. -/
def pending (signal : Signal) (requests : List (Key × List Int32)) : List (List Int32) :=
  (requests.filter fun request => request.1 = signal.key).map Prod.snd

theorem pending_statusRequests (signal : Signal) (s : PrimaryVehicleState) :
    pending signal (statusRequests s) = [[signal.field s]] := by
  cases signal <;> rfl

/-- What the client wrote to the signal's property and is about to write are fields of its
messages in their order. -/
structure Writing (p : Platform) (signal : Signal) (start : Service) (past : List ProcessAction)
    (process : Process VhalCall VhalCall.Answer ClientPtr) (v : Service) : Prop where
  orderly : ∃ calls c rest, Extends start calls v ∧ process = clientSending c rest ∧
    (written signal.key calls ++ pending signal rest).Sublist (fields p signal past)

namespace Writing

variable {p : Platform} {signal : Signal} {start v : Service} {past : List ProcessAction}
  {process : Process VhalCall VhalCall.Answer ClientPtr}

theorem skip (h : Writing p signal start past process v) (action : ProcessAction) :
    Writing p signal start (past ++ [action]) process v := by
  obtain ⟨calls, c, rest, hextends, hprocess, hsub⟩ := h.orderly
  refine ⟨calls, c, rest, hextends, hprocess, ?_⟩
  rw [fields_append_singleton]
  exact hsub.trans (List.sublist_append_left _ _)

/-- A new client has nothing before it. -/
theorem launch (h : Writing p signal start past process v) (l : ClientPtr) :
    Writing p signal start past (.waiting l) v := by
  obtain ⟨calls, c, rest, hextends, -, hsub⟩ := h.orderly
  refine ⟨calls, l, [], hextends, rfl, (List.Sublist.trans ?_ hsub)⟩
  rw [pending, List.filter_nil, List.map_nil, List.append_nil]
  exact List.sublist_append_left _ _

theorem take {l : ClientPtr} {buffer : List UInt8} {program : VhalProgram (Option ClientPtr)}
    (hhandle : Role.handle p .client l buffer = some program)
    (h : Writing p signal start past (.waiting l) v) :
    Writing p signal start (past ++ [.start .client buffer]) (.ofProgram program) v := by
  obtain ⟨calls, c, rest, hextends, hprocess, hsub⟩ := h.orderly
  obtain ⟨rfl, rfl⟩ := clientSending_eq_waiting hprocess.symm
  obtain rfl := Option.some.inj hhandle
  cases hdecode : decodeStatus p buffer with
  | error e =>
      simp only [Callback.statusCallback, hdecode]
      exact h.skip _
  | ok s =>
      simp only [Callback.statusCallback, hdecode, Callback.processPrimaryVehicleState]
      split
      · exact h.skip _
      · refine ⟨calls, l, statusRequests s, hextends, rfl, ?_⟩
        rw [pending, List.filter_nil, List.map_nil, List.append_nil] at hsub
        rw [fields_append_singleton, pending_statusRequests]
        simp only [handledMessage, hdecode]
        exact hsub.append (List.Sublist.refl _)

theorem make {call : VhalCall} {next : call.Answer → VhalProgram (Option ClientPtr)}
    (h : Writing p signal start past (.working call next) v) :
    Writing p signal start past (.ofProgram (next (call.serve v).1)) (call.serve v).2 := by
  obtain ⟨calls, c, rest, hextends, hprocess, hsub⟩ := h.orderly
  cases rest with
  | nil => cases hprocess
  | cons request rest =>
      cases hprocess
      refine ⟨_, c, rest, hextends.trans (Extends.set v request.1 request.2), rfl,
        List.Sublist.trans ?_ hsub⟩
      rw [written_append, List.append_assoc]
      refine (List.Sublist.refl _).append ?_
      -- the request was the first to come, and is now the last that came, unless it failed
      by_cases hkey : request.1 = signal.key
      · have hpending : pending signal (request :: rest) = request.2 :: pending signal rest := by
          simp [pending, hkey]
        rw [hpending, written_singleton]
        split
        · exact List.Sublist.refl _
        · exact List.sublist_cons_self _ _
      · have hpending : pending signal (request :: rest) = pending signal rest := by
          simp [pending, hkey]
        rw [hpending, written_singleton, if_neg fun hcall => hkey hcall.1]
        exact List.Sublist.refl _

theorem leave {call : VhalCall} (hcall : SetsOnly (fun key _ => key ≠ signal.key) call)
    (h : Writing p signal start past process v) :
    Writing p signal start past process (call.serve v).2 := by
  obtain ⟨calls, c, rest, hextends, hprocess, hsub⟩ := h.orderly
  cases call with
  | get key =>
      have hread := hextends.trans (Extends.read v key)
      rw [List.append_nil] at hread
      exact ⟨calls, c, rest, hread, hprocess, hsub⟩
  | set key values =>
      refine ⟨_, c, rest, hextends.trans (Extends.set v key values), hprocess, ?_⟩
      rw [written_append, written_singleton, if_neg fun hkey => hcall hkey.1, List.append_nil]
      exact hsub

end Writing

/-- What was stored under the property of a signal other than the battery level, if no
`set` command names it, are fields of the client's messages in their order. -/
theorem client_writes (p : Platform) {actions : List ProcessAction} {st st' : Processes}
    (hidle : st.Idle) (hrun : runProcesses p actions st = some st') {signal : Signal}
    (hsignal : signal ≠ .batteryLevel) (hoperator : NotOperated actions signal.key) :
    (written signal.key (st'.service.setsSince st.service)).Sublist (fields p signal actions) := by
  have hwriting : Writing p signal st.service actions (st'.processes .client) st'.service := by
    apply run_rely (P := SetsOnly fun key _ => key ≠ signal.key)
      (Writing p signal st.service) ?_ ?_ ?_ ?_ ?_
      (fun role event hrole hstarted => others_leave p hsignal hoperator role event hrole hstarted)
      (hidle.calls _ _) ?_ hrun
    · exact fun past l process v _ h => (h.launch l).skip _
    · exact fun past l v buffer program hhandle h => h.take hhandle
    · exact fun past call next v h => h.make.skip _
    · exact fun past action process v _ h => h.skip action
    · exact fun past call process v hcall h => h.leave hcall
    · obtain ⟨l, hl⟩ := hidle .client
      rw [hl]
      exact ⟨[], l, [], Extends.refl _, rfl, List.Sublist.refl _⟩
  obtain ⟨calls, c, rest, hextends, -, hsub⟩ := hwriting.orderly
  rw [hextends.setsSince]
  exact (List.sublist_append_left _ _).trans hsub

/-! ## The dashboard -/

/-- Looks at the display in the course of a run, each at a moment when the dashboard waits:
the actions up to the last look, and what the dashboard is at each of them. -/
inductive Looks (p : Platform) (st : Processes) :
    List ProcessAction → List DashboardProcess → Processes → Prop
  | start : Looks p st [] [] st
  | look {past more : List ProcessAction} {seen : List DashboardProcess} {between st' : Processes}
      {a : DashboardProcess} (hbefore : Looks p st past seen between)
      (hrun : runProcesses p more between = some st')
      (hwaits : st'.processes .dashboard = .waiting a) :
      Looks p st (past ++ more) (seen ++ [a]) st'

theorem Looks.run {p : Platform} {st st' : Processes} {actions : List ProcessAction}
    {seen : List DashboardProcess} (h : Looks p st actions seen st') :
    runProcesses p actions st = some st' := by
  induction h with
  | start => rfl
  | look hbefore hrun hwaits ih =>
      exact (PartialRuns.run_append_eq_some_iff _).2 ⟨_, ih, hrun⟩

/-- The views are those of a refresh that took the data, or of no refresh yet. -/
def Displaying (actions : List ProcessAction) (st : Processes) (views : Views) :
    Option VehicleData → Prop
  | none => FirstViews actions st views
  | some data => ∃ before, views = updateViews data before

theorem Displaying.append {past : List ProcessAction} {st : Processes} {views : Views}
    {shown : Option VehicleData} (h : Displaying past st views shown)
    (more : List ProcessAction) : Displaying (past ++ more) st views shown := by
  cases shown with
  | none =>
      rcases h with hinitial | ⟨a, ha | hlaunch, hviews⟩
      · exact Or.inl hinitial
      · exact Or.inr ⟨a, Or.inl ha, hviews⟩
      · exact Or.inr ⟨a, Or.inr (List.mem_append_left _ hlaunch), hviews⟩
  | some data => exact h

/-- What the dashboard shows when it waits, and a record of the refreshes behind what was
seen. -/
structure Recording (actions : List ProcessAction) (st : Processes) (seen : List DashboardProcess)
    (record : List (Option VehicleData)) (a : DashboardProcess) (shown : Option VehicleData)
    (v : Service) : Prop where
  now : Displaying actions st a.views shown
  past : List.Forall₂ (fun a shown => Displaying actions st a.views shown) seen record
  last : ∀ data, shown = some data → ∃ earlier, record = earlier ++ [some data]
  observed : ∀ gauge : Gauge, Observed Later gauge.ReadAt st.service record.reduceOption v

namespace Recording

variable {past more : List ProcessAction} {st : Processes} {seen : List DashboardProcess}
  {record : List (Option VehicleData)} {a a' : DashboardProcess} {shown shown' : Option VehicleData}
  {v v' : Service}

/-- A look, with the refresh behind it. -/
theorem append (h : Recording past st seen record a shown v)
    (hnow : Displaying (past ++ more) st a'.views shown')
    (hobserved : ∀ gauge : Gauge,
      Observed Later gauge.ReadAt st.service (record ++ [shown']).reduceOption v') :
    Recording (past ++ more) st (seen ++ [a']) (record ++ [shown']) a' shown' v' where
  now := hnow
  past := List.rel_append (h.past.imp fun _ _ hshown => hshown.append more) (.cons hnow .nil)
  last := by
    rintro data rfl
    exact ⟨record, rfl⟩
  observed := hobserved

/-- Views that no refresh has drawn are seen. -/
theorem look_first (h : Recording past st seen record a shown v) (hlater : Later v v')
    (hviews : FirstViews (past ++ more) st a'.views) :
    Recording (past ++ more) st (seen ++ [a']) (record ++ [none]) a' none v' := by
  refine h.append hviews fun gauge => ?_
  rw [List.reduceOption_append]
  simpa using (h.observed gauge).later Later.trans hlater

/-- What was seen before is seen once more. -/
theorem look_again (h : Recording past st seen record a shown v) (hlater : Later v v')
    (hsame : a'.views = a.views) :
    Recording (past ++ more) st (seen ++ [a']) (record ++ [shown]) a' shown v' := by
  have hnow := h.now.append more
  rw [← hsame] at hnow
  cases hshown : shown with
  | none =>
      rw [hshown] at hnow
      exact h.look_first hlater hnow
  | some data =>
      rw [hshown] at hnow
      obtain ⟨earlier, hrecord⟩ := h.last data hshown
      refine h.append hnow fun gauge => ?_
      have hobserved := (h.observed gauge).later Later.trans hlater
      rw [hrecord, List.reduceOption_append] at hobserved
      rw [hrecord, List.reduceOption_append, List.reduceOption_append]
      exact hobserved.again Later.refl

/-- The last of the refreshes since the last look is seen. -/
theorem look_drawn (h : Recording past st seen record a shown v) {first : Views}
    {earlier : List VehicleData} {data : VehicleData}
    (hdrawn : Drawn v first (earlier ++ [data]) a'.views v') :
    Recording (past ++ more) st (seen ++ [a']) (record ++ [some data]) a' (some data) v' := by
  refine h.append ⟨draw earlier first, ?_⟩ fun gauge => ?_
  · rw [hdrawn.views, draw, List.foldl_append]
    rfl
  · have hmem : data ∈ earlier ++ [data] := List.mem_append_right _ (List.mem_singleton_self _)
    obtain ⟨read, hfirst, hread, hlast⟩ := (hdrawn.observed gauge).between Later.trans hmem
    rw [List.reduceOption_append]
    exact .look ((h.observed gauge).later Later.trans hfirst) hread hlast

/-- The next look. -/
theorem look {between : Processes} (h : Recording past st seen record a shown between.service)
    (hwaits : between.processes .dashboard = .waiting a) (hnext : Displays more between a' v) :
    ∃ shown', Recording (past ++ more) st (seen ++ [a']) (record ++ [shown']) a' shown' v := by
  obtain ⟨first, refreshes, hfirst, hdrawn⟩ := hnext
  rcases List.eq_nil_or_concat' refreshes with rfl | ⟨earlier, data, rfl⟩
  · have hlater : Later between.service v := (hdrawn.observed .speed).reaches Later.trans
    have hviews : a'.views = first := hdrawn.views
    rcases hfirst with hinitial | ⟨b, hb | hlaunch, hsame⟩
    · exact ⟨none, h.look_first hlater (Or.inl (hviews.trans hinitial))⟩
    · -- nothing was drawn since the last look
      obtain rfl : a = b := by
        rw [hwaits] at hb
        exact Process.waiting.inj hb
      exact ⟨shown, h.look_again hlater (hviews.trans hsame)⟩
    · have hlaunched : .launch .dashboard b ∈ past ++ more := List.mem_append_right _ hlaunch
      exact ⟨none, h.look_first hlater (Or.inr ⟨b, Or.inr hlaunched, hviews.trans hsame⟩)⟩
  · exact ⟨some data, h.look_drawn hdrawn⟩

end Recording

theorem Looks.recording {p : Platform} {actions : List ProcessAction} {st st' : Processes}
    {seen : List DashboardProcess} (hidle : st.Idle) (h : Looks p st actions seen st') :
    ∃ record a shown, st'.processes .dashboard = .waiting a ∧
      Recording actions st seen record a shown st'.service := by
  induction h with
  | start =>
      obtain ⟨a, ha⟩ := hidle .dashboard
      exact ⟨[], a, none, ha, Or.inr ⟨a, Or.inl ha, rfl⟩, .nil, (fun _ heq => by cases heq),
        fun _ => .start (.refl _)⟩
  | look hbefore hrun hwaits ih =>
      obtain ⟨record, a, shown, ha, hrecording⟩ := ih
      obtain ⟨shown', hnext⟩ := hrecording.look ha (dashboard_displays p ha hrun hwaits)
      exact ⟨_, _, shown', hwaits, hnext⟩

/-- A refresh that reads the speed before the client sets it, and the rest after that. -/
def overtakenRefresh : List ProcessAction :=
  [.start .dashboard .onCreate, .start .dashboard (.update 0), .turn .dashboard,
    .start .client [2, 16, 42], .turn .client, .turn .client] ++
    List.replicate 6 (.turn .dashboard)

/-- The refresh after it. -/
def nextRefresh : List ProcessAction :=
  .start .dashboard (.update 0) :: List.replicate 7 (.turn .dashboard)

/-- The dashboard after the first of them. -/
def overtakenDashboard : DashboardProcess where
  created := 1
  alive := some 0
  pendingUpdates := [0]
  views := updateViews ⟨-1, -1, false, false, false, false, 0⟩ .initial
  clientPtr := 1
  clients := ⟨[1], 1, fun _ => false⟩

/-- The dashboard after the second of them. -/
def caughtUpDashboard : DashboardProcess :=
  { overtakenDashboard with
    views := updateViews ⟨42, -1, false, false, false, false, 0⟩ overtakenDashboard.views }

theorem overtaken_looks :
    ∃ st', Looks paddingPlatform beforeMeeting (overtakenRefresh ++ nextRefresh)
      [overtakenDashboard, caughtUpDashboard] st' :=
  ⟨_, .look (.look .start (Option.some_get rfl).symm rfl) (Option.some_get rfl).symm rfl⟩

example : fields paddingPlatform .speed (overtakenRefresh ++ nextRefresh) = [[42]] := by decide

end Vehicle
end Veos
