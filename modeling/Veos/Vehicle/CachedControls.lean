import Veos.Library.ProgramEnsures
import Veos.Vehicle.Provenance

/-!
# What the service believes of the VHAL

`applyControls` compares a requested value with the one that its instance wrote last.  An
instance that writes learns from the return code whether the VHAL took the value, so
whatever else runs and whichever calls fail, the property of a control that nobody else
sets holds what one of the instances has in its cache, or what it held at the start if no
value was taken (`stored_is_cached`).
-/

namespace Veos
namespace Vehicle

open Java Vhal Someip Telemetry Dashboard Tool CallPrograms

/-- What the property `key` holds after a set call for `other`, if `x` before it. -/
def afterSet (key other : Key) (values x : List Int32) : Option VhalError → List Int32
  | none => if other = key then values else x
  | some _ => x

/-- What a call may answer and make of the property `key`. -/
def Touches (key : Key) : (call : VhalCall) → List Int32 → call.Answer → List Int32 → Prop
  | .get _, x, _, x' => x' = x
  | .set other values, x, error, x' => x' = afterSet key other values x error

theorem serve_touches (key : Key) (call : VhalCall) (v : Service) :
    Touches key call (v.store key) (call.serve v).1 ((call.serve v).2.store key) := by
  cases call with
  | get other => rfl
  | set other values =>
      show (v.setValueSync other values).2.store key =
        afterSet key other values (v.store key) (v.setFault v.sets.length)
      cases hfault : v.setFault v.sets.length with
      | none =>
          by_cases hkey : other = key
          · subst hkey
            simp [Service.setValueSync, hfault, afterSet]
          · simp [Service.setValueSync, hfault, afterSet, hkey,
              Function.update_of_ne (Ne.symm hkey)]
      | some e => simp [Service.setValueSync, hfault, afterSet]

theorem touches_read (key : Key) (call : VhalCall) (x : List Int32) (answer : call.Answer)
    (x' : List Int32) (hread : call.IsRead) (h : Touches key call x answer x') : x' = x := by
  cases call with
  | get other => exact h
  | set other values => exact hread.elim

/-- From `caches` and the value `x` of its property, the control comes to `caches'` and
`x'`: nothing changed, or the cache has what the property holds. -/
def Tracked (c : Control) (caches : Caches) (x : List Int32) (caches' : Caches) (x' : List Int32) :
    Prop :=
  (x' = x ∧ caches'.get c = caches.get c) ∨ x' = [caches'.get c]

theorem Tracked.refl (c : Control) (caches : Caches) (x : List Int32) :
    Tracked c caches x caches x := Or.inl ⟨rfl, rfl⟩

theorem Tracked.trans {c : Control} {caches caches' caches'' : Caches} {x x' x'' : List Int32}
    (h : Tracked c caches x caches' x') (h' : Tracked c caches' x' caches'' x'') :
    Tracked c caches x caches'' x'' := by
  rcases h' with ⟨rfl, hcache⟩ | h'
  · rcases h with ⟨rfl, hcache'⟩ | h
    · exact Or.inl ⟨rfl, hcache.trans hcache'⟩
    · exact Or.inr (by rw [hcache, ← h])
  · exact Or.inr h'

/-! ## The callback -/

/-- What `key` holds after a set call of `VhalNative` for `other`: the call stores its value,
or throws and stores nothing. -/
def setResult (key other : Key) (value : Int32) (x : List Int32) :
    Except JavaException Unit → List Int32
  | .ok _ => if other = key then [value] else x
  | .error _ => x

theorem setInt32_ensures (key : Key) (ptr : ClientPtr) (propId : PropId) (value : Int32)
    (x : List Int32) :
    (VhalProgram.setInt32 ptr propId 0 value).Ensures (Touches key)
      (fun result x' => x' = setResult key (propId, 0) value x result) x := by
  unfold VhalProgram.setInt32
  by_cases hptr : ptr = 0
  · rw [if_pos hptr]
    exact rfl
  · rw [if_neg hptr, VhalProgram.setOne, if_neg hptr]
    intro error x' htouches
    obtain rfl : x' = afterSet key (propId, 0) [value] x error := htouches
    cases error with
    | none => exact rfl
    | some e =>
        have hcode : returnCode (some e) ≠ 0 := by simp
        show Program.Ensures (Touches key) _ (if returnCode (some e) ≠ 0 then _ else _) x
        rw [if_pos hcode]
        exact rfl

theorem applyControl_tracked (ptr : ClientPtr) (controls : Option JMap) (c other : Control)
    (caches : Caches) (x : List Int32) :
    (Callback.applyControl ptr controls other caches).Ensures (Touches c.key)
      (fun result x' => Tracked c caches x result.2 x') x := by
  have hrefl := Tracked.refl c caches x
  unfold Callback.applyControl
  cases controls with
  | none => exact hrefl
  | some controls =>
      simp only
      split
      · split
        · exact hrefl
        · rename_i newValue hvalue
          split
          · refine (setInt32_ensures c.key ptr other.propId newValue x).bind ?_
            rintro (e | _) x' hx'
            · obtain rfl : x' = x := hx'
              exact hrefl
            · obtain rfl : x' = if other.key = c.key then [newValue] else x := hx'
              by_cases hother : other = c
              · subst hother
                exact Or.inr (by simp)
              · have hkey : other.key ≠ c.key := fun heq => hother (Control.key_injective heq)
                rw [if_neg hkey]
                exact Or.inl ⟨rfl, Caches.get_set_of_ne caches other c newValue (Ne.symm hother)⟩
          · exact hrefl
      · exact hrefl

theorem applyBlocks_tracked (ptr : ClientPtr) (controls : Option JMap) (c : Control)
    (cs : List Control) (caches : Caches) (x : List Int32) :
    (Callback.applyBlocks ptr controls cs caches).Ensures (Touches c.key)
      (fun result x' => Tracked c caches x result.2 x') x := by
  induction cs generalizing caches x with
  | nil => exact Tracked.refl c caches x
  | cons other cs ih =>
      refine (applyControl_tracked ptr controls c other caches x).bind ?_
      rintro ⟨_ | _, caches'⟩ x' htracked
      · exact htracked
      · exact (ih caches' x').mono fun result x'' hlater => htracked.trans hlater

theorem onResponse_tracked (ptr : ClientPtr) (response : Response) (c : Control) (caches : Caches)
    (x : List Int32) :
    (Callback.onResponse ptr response caches).Ensures (Touches c.key)
      (fun result x' => Tracked c caches x result.2 x') x := by
  have hrefl := Tracked.refl c caches x
  have hcontrols : ∀ controls, (Callback.applyControls ptr controls caches >>= fun caches =>
      return ((.ok () : Except JavaException Unit), caches)).Ensures (Touches c.key)
        (fun result x' => Tracked c caches x result.2 x') x := by
    intro controls
    have hblocks : (Callback.applyControls ptr controls caches).Ensures (Touches c.key)
        (fun caches' x' => Tracked c caches x caches' x') x :=
      (applyBlocks_tracked ptr controls c Control.all caches x).bind fun result x' h => h
    exact hblocks.bind fun caches' x' h => h
  unfold Callback.onResponse
  split
  · split
    · exact hrefl
    · split
      · exact hrefl
      · exact hrefl
      · exact hcontrols none
      · exact hcontrols _
      · exact hrefl
  · exact hrefl

/-! ## The process -/

/-- The property holds `x`, which is what an instance has in its cache, or what was there
at the start and no instance has written the control. -/
def Believed (c : Control) (start : List Int32) (a : TelemetryProcess) (x : List Int32) : Prop :=
  (x = start ∧ ∀ caches ∈ a.caches, caches.get c = ({} : Caches).get c) ∨
    ∃ caches ∈ a.caches, x = [caches.get c]

/-- A new instance believes its defaults. -/
theorem Believed.create {c : Control} {start : List Int32} {a a' : TelemetryProcess}
    {x : List Int32} (h : Believed c start a x)
    (hcaches : a'.caches = a.caches ++ [({} : Caches)]) :
    Believed c start a' x := by
  rcases h with ⟨hx, hall⟩ | ⟨caches, hmem, hx⟩
  · refine Or.inl ⟨hx, fun caches hmem => ?_⟩
    rw [hcaches] at hmem
    rcases List.mem_append.1 hmem with hmem | hmem
    · exact hall caches hmem
    · rw [List.mem_singleton.1 hmem]
  · exact Or.inr ⟨caches, by rw [hcaches]; exact List.mem_append_left _ hmem, hx⟩

/-- A response makes an instance know what it wrote. -/
theorem Believed.respond {c : Control} {start : List Int32} {a a' : TelemetryProcess}
    {x x' : List Int32} {owner : Nat} {caches caches' : Caches} (h : Believed c start a x)
    (howner : a.caches[owner]? = some caches) (htracked : Tracked c caches x caches' x')
    (hcaches : a'.caches = a.caches.set owner caches') : Believed c start a' x' := by
  obtain ⟨hlt, hget⟩ := List.getElem?_eq_some_iff.1 howner
  have hnew : caches' ∈ a'.caches := by
    rw [hcaches]
    exact List.mem_set hlt caches'
  rcases htracked with ⟨rfl, hcache⟩ | hx'
  · rcases h with ⟨hx, hall⟩ | ⟨other, hmem, hx⟩
    · refine Or.inl ⟨hx, fun other hmem => ?_⟩
      rw [hcaches] at hmem
      rcases List.mem_or_eq_of_mem_set hmem with hmem | rfl
      · exact hall other hmem
      · exact hcache.trans (hall caches (hget ▸ List.getElem_mem hlt))
    · -- the instance with the value is the one that answered, or another
      obtain ⟨n, hn, hother⟩ := List.getElem_of_mem hmem
      by_cases howner' : n = owner
      · subst howner'
        refine Or.inr ⟨caches', hnew, ?_⟩
        rw [hcache, hx, ← hother, hget]
      · refine Or.inr ⟨other, ?_, hx⟩
        rw [hcaches]
        exact List.mem_iff_getElem.2 ⟨n, by simpa using hn, by
          rw [List.getElem_set_of_ne (Ne.symm howner')]
          exact hother⟩
  · exact Or.inr ⟨caches', hnew, hx'⟩

theorem handle_believed (c : Control) (start : List Int32) {a : TelemetryProcess}
    {event : Telemetry.Event} {program : VhalProgram (Option TelemetryProcess)} {x : List Int32}
    (hhandle : a.handle event = some program) (h : Believed c start a x) :
    program.Ensures (Touches c.key)
      (fun result x' => ∀ a', result = some a' → Believed c start a' x') x := by
  have hsame : ∀ a' : TelemetryProcess, a'.caches = a.caches →
      ∀ a'', some a' = some a'' → Believed c start a'' x := by
    rintro a' hcaches a'' heq
    obtain rfl := Option.some.inj heq
    simpa only [Believed, hcaches] using h
  cases event with
  | onCreate around =>
      simp only [TelemetryProcess.handle] at hhandle
      split at hhandle
      · cases hhandle
      · split at hhandle
        · cases hhandle
          exact fun _ heq => by cases heq
        · rename_i clientPtr clients hinit
          cases hhandle
          have hreads := (sendTelemetry_calls clientPtr around).ensures (touches_read c.key) x
          refine hreads.bind ?_
          rintro payload x' rfl a' heq
          obtain rfl := Option.some.inj heq
          exact h.create rfl
  | onDestroy =>
      simp only [TelemetryProcess.handle] at hhandle
      split at hhandle
      · cases hhandle
      · cases hhandle
        exact hsame _ rfl
  | timer owner =>
      simp only [TelemetryProcess.handle] at hhandle
      split at hhandle
      · cases hhandle
        exact hsame _ rfl
      · cases hhandle
  | response request response =>
      simp only [TelemetryProcess.handle] at hhandle
      split at hhandle
      · cases hhandle
      · split at hhandle
        · cases hhandle
        · rename_i caches howner
          cases hhandle
          refine (onResponse_tracked a.clientPtr response c caches x).bind ?_
          rintro ⟨_ | _, caches'⟩ x' htracked a' heq
          · cases heq
          · obtain rfl := Option.some.inj heq
            exact h.respond howner htracked rfl
  | failure request =>
      simp only [TelemetryProcess.handle] at hhandle
      split at hhandle
      · cases hhandle
        exact hsame _ rfl
      · cases hhandle

/-- **What is stored is cached.**  Take a run of the processes with any interleaving and
whichever calls fail, in which the service starts without instances and is not launched
again.  Let a control other than the battery have no `set` command.  When the service
waits, its property holds what an instance has in its cache for it, or else what it held at
the start, and then all instances have the default. -/
theorem stored_is_cached (p : Platform) (c : Control) (hc : c ≠ .battery)
    (actions : List ProcessAction) (st st' : Processes) (hidle : st.Idle)
    (hnew : ∀ a, st.processes .telemetry = .waiting a → a.caches = [])
    (hlaunch : ∀ a, .launch .telemetry a ∉ actions) (hoperator : NotOperated actions c.key)
    (hrun : runProcesses p actions st = some st') (a : TelemetryProcess)
    (hwaits : st'.processes .telemetry = .waiting a) :
    Believed c (st.service.store c.key) a (st'.service.store c.key) := by
  refine run_ensures (P := SetsOnly fun key _ => key ≠ c.key) (fun v : Service => v.store c.key)
    (Believed c (st.service.store c.key)) (serve_touches c.key)
    (fun l event program x hhandle h => handle_believed c _ hhandle h) ?_ hlaunch ?_ hidle ?_ hrun
    hwaits
  · rintro (key | ⟨key, values⟩) v hkey
    · rfl
    · show (v.setValueSync key values).2.store c.key = v.store c.key
      cases hfault : v.setFault v.sets.length with
      | none => simp [Service.setValueSync, hfault, Function.update_of_ne (Ne.symm hkey)]
      | some e => simp [Service.setValueSync, hfault]
  · intro role event hrole hstarted l program hhandle
    refine (handle_calls p role event l program hhandle).mono ?_
    rintro (key | ⟨key, values⟩) hset
    · trivial
    · rintro rfl
      cases role with
      | client =>
          obtain ⟨state, -, signal, hkey, -⟩ := hset
          exact hc ((shared_key_iff signal c).1 hkey.symm).2
      | telemetry => exact hrole rfl
      | dashboard => exact hset
      | shell n =>
          obtain ⟨value, hcommand, -⟩ := hset
          exact hoperator n event hstarted value hcommand
  · intro a hwaiting
    refine Or.inl ⟨rfl, fun caches hmem => ?_⟩
    rw [hnew a hwaiting] at hmem
    cases hmem

/-- The service applies a response while the client makes the calls for a message. -/
def answered : List ProcessAction :=
  .start .telemetry (.onCreate ⟨0, none⟩) :: List.replicate 15 (.turn .telemetry) ++
    [.start .client [0], .start .telemetry (.timer 0), .turn .client,
      .start .telemetry (.response 0 (App.fullResponse 80)), .turn .telemetry, .turn .client] ++
    List.replicate 4 (.turn .telemetry)

/-- The service at the end of it. -/
def answeredService : TelemetryProcess where
  caches := [⟨80, 80, 80, 80, 80⟩]
  alive := some 0
  pendingTasks := [0]
  issued := 1
  inFlight := []
  clientPtr := 1
  clients := ⟨[1], 1, fun _ => false⟩

theorem answered_cached :
    Believed .speed (beforeMeeting.service.store Control.speed.key) answeredService
      (((runProcesses paddingPlatform answered beforeMeeting).get rfl).service.store
        Control.speed.key) :=
  stored_is_cached paddingPlatform .speed (by decide) answered beforeMeeting _
    (Programs.processes_idle _)
    (by
      rintro a ha
      cases ha
      rfl)
    (by simp [answered])
    (by
      intro n i hstarted
      simp [Started, answered] at hstarted)
    (Option.some_get rfl).symm answeredService rfl

end Vehicle
end Veos
