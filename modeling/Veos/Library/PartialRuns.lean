import Mathlib.Data.List.Induction

/-!
# Runs of a system whose events are not always possible

A step function `σ → ε → Option σ` says which events a state admits.  A run admits a
sequence of events if each is admitted by the state that the earlier ones lead to.

The two rules for invariants are the ones that every statement about reachable
states is proved with: the invariant is preserved by each step, or by each step
whose event has a property that all events of the run have.
-/

namespace PartialRuns

variable {σ ε : Type*} (step : σ → ε → Option σ)

/-- The state after a sequence of events, if every one of them is admitted. -/
def run (events : List ε) (s : σ) : Option σ :=
  events.foldlM step s

theorem run_cons (event : ε) (events : List ε) (s : σ) :
    run step (event :: events) s = (step s event).bind (run step events) := rfl

theorem run_append (events events' : List ε) (s : σ) :
    run step (events ++ events') s = (run step events s).bind (run step events') := by
  rw [run, List.foldlM_append]
  rfl

/-- A run that goes through is a run to an intermediate state and one from there. -/
theorem run_append_eq_some_iff {events events' : List ε} {s s' : σ} :
    run step (events ++ events') s = some s' ↔
      ∃ between, run step events s = some between ∧ run step events' between = some s' := by
  rw [run_append, Option.bind_eq_some_iff]

theorem run_singleton (event : ε) (s : σ) : run step [event] s = step s event := by
  rw [run_cons]
  cases step s event <;> rfl

variable {step}

/-- The invariant rule for runs whose events all have a property. -/
theorem invariant_of_forall {Inv : σ → Prop} (allowed : ε → Prop)
    (hstep : ∀ s event s', Inv s → allowed event → step s event = some s' → Inv s')
    {events : List ε} (hallowed : ∀ event ∈ events, allowed event) {s s' : σ} (hs : Inv s)
    (hrun : run step events s = some s') : Inv s' := by
  induction events generalizing s with
  | nil =>
      cases hrun
      exact hs
  | cons event events ih =>
      obtain ⟨next, hnext, hrest⟩ := Option.bind_eq_some_iff.1 hrun
      have hinv := hstep s event next hs (hallowed event List.mem_cons_self) hnext
      exact ih (fun other hother => hallowed other (List.mem_cons_of_mem event hother)) hinv hrest

/-- The invariant rule. -/
theorem invariant {Inv : σ → Prop} (hstep : ∀ s event s', Inv s → step s event = some s' → Inv s')
    {events : List ε} {s s' : σ} (hs : Inv s) (hrun : run step events s = some s') : Inv s' :=
  invariant_of_forall (fun _ => True)
    (fun s event s' hinv _ => hstep s event s' hinv) (fun _ _ => trivial) hs hrun

/-- The invariant rule for a property of the events so far and the state. -/
theorem invariant_past {Inv : List ε → σ → Prop} (allowed : ε → Prop)
    (hstep : ∀ past s event s', Inv past s → allowed event → step s event = some s' →
      Inv (past ++ [event]) s')
    {events : List ε} (hallowed : ∀ event ∈ events, allowed event) {s s' : σ} (hs : Inv [] s)
    (hrun : run step events s = some s') : Inv events s' := by
  induction events using List.reverseRecOn generalizing s' with
  | nil =>
      cases hrun
      exact hs
  | append_singleton events event ih =>
      obtain ⟨between, hbefore, hlast⟩ := (run_append_eq_some_iff step).1 hrun
      rw [run_singleton] at hlast
      have hearlier :=
        ih (fun other hother => hallowed other (List.mem_append_left _ hother)) hbefore
      exact hstep events between event s' hearlier (hallowed event (by simp)) hlast

end PartialRuns
