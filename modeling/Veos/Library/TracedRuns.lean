import Mathlib.Data.List.Induction

/-!
# Runs of a system that says what each step did

A step function `σ → ε → ω × σ` takes every event in every state and gives an output
for it.  A run leaves a trace, the outputs in order, and a final state.

A statement about one entry of a trace is proved at the state in which that entry was
made (`trace_eq_append_cons`), with an invariant that ties the trace so far to the
state (`invariant`).
-/

namespace TracedRuns

variable {σ ε ω : Type*} (step : σ → ε → ω × σ)

/-- The state after a sequence of events. -/
def final (events : List ε) (s : σ) : σ :=
  events.foldl (fun s event => (step s event).2) s

/-- The outputs of a sequence of events. -/
def trace : List ε → σ → List ω
  | [], _ => []
  | event :: events, s => (step s event).1 :: trace events (step s event).2

theorem final_append (events events' : List ε) (s : σ) :
    final step (events ++ events') s = final step events' (final step events s) :=
  List.foldl_append

theorem trace_append (events events' : List ε) (s : σ) :
    trace step (events ++ events') s =
      trace step events s ++ trace step events' (final step events s) := by
  induction events generalizing s with
  | nil => rfl
  | cons event events ih => exact congrArg (List.cons _) (ih _)

/-- A split of the trace is a split of the events. -/
theorem trace_eq_append {events : List ε} {s : σ} {before after : List ω}
    (h : trace step events s = before ++ after) :
    ∃ events₁ events₂, events = events₁ ++ events₂ ∧ trace step events₁ s = before ∧
      trace step events₂ (final step events₁ s) = after := by
  induction before generalizing events s with
  | nil => exact ⟨[], events, rfl, rfl, h⟩
  | cons out before ih =>
      cases events with
      | nil => cases h
      | cons event events =>
          obtain ⟨hout, hrest⟩ := List.cons.inj h
          obtain ⟨events₁, events₂, rfl, hbefore, hafter⟩ := ih hrest
          exact ⟨event :: events₁, events₂, rfl, by rw [trace, hout, hbefore], hafter⟩

/-- The state in which an entry of the trace was made. -/
theorem trace_eq_append_cons {events : List ε} {s : σ} {before after : List ω} {out : ω}
    (h : trace step events s = before ++ out :: after) :
    ∃ events₁ event events₂, events = events₁ ++ event :: events₂ ∧
      trace step events₁ s = before ∧ (step (final step events₁ s) event).1 = out ∧
      trace step events₂ (step (final step events₁ s) event).2 = after := by
  obtain ⟨events₁, rest, rfl, hbefore, hrest⟩ := trace_eq_append step h
  cases rest with
  | nil => cases hrest
  | cons event events₂ =>
      obtain ⟨hout, hafter⟩ := List.cons.inj hrest
      exact ⟨events₁, event, events₂, rfl, hbefore, hout, hafter⟩

variable {step}

/-- The invariant rule, for a property of the trace so far and the state. -/
theorem invariant {Inv : List ω → σ → Prop}
    (hstep : ∀ past s event, Inv past s → Inv (past ++ [(step s event).1]) (step s event).2)
    {s : σ} (hs : Inv [] s) (events : List ε) :
    Inv (trace step events s) (final step events s) := by
  induction events using List.reverseRecOn with
  | nil => exact hs
  | append_singleton events event ih =>
      rw [trace_append, final_append]
      exact hstep _ _ event ih

/-- The simulation rule: related states with the same output at every step give the same
trace. -/
theorem simulation {τ : Type*} {step' : τ → ε → ω × τ} {Rel : σ → τ → Prop}
    (hstep : ∀ s t event, Rel s t →
      (step s event).1 = (step' t event).1 ∧ Rel (step s event).2 (step' t event).2)
    {s : σ} {t : τ} (h : Rel s t) (events : List ε) :
    trace step events s = trace step' events t ∧
      Rel (final step events s) (final step' events t) := by
  induction events generalizing s t with
  | nil => exact ⟨rfl, h⟩
  | cons event events ih =>
      obtain ⟨hout, hnext⟩ := hstep s t event h
      obtain ⟨htrace, hfinal⟩ := ih hnext
      exact ⟨congrArg₂ List.cons hout htrace, hfinal⟩

end TracedRuns
