import Veos.Library.ProgramBlocks

/-!
# Reduction

When does an interleaved run come to the same as one in which every program goes through
without an interruption?  A call is a mover if it commutes with all calls of the other
processes.  If each program makes movers only, up to one call, the programs of a run can
be put one after the other in the order of these calls.  A program that skips can be put
anywhere (`reduce`).

The proof reads a run from its end: what comes after an action is already in blocks, and
either the action moves to the block that finishes its program, or that block to it.
-/

namespace CallPrograms

section Reduction

variable {ι : Type} [DecidableEq ι] {Call : Type} {Answer : Call → Type} {Local Event : ι → Type}
  {σ : Type}
variable {handler : (i : ι) → Local i → Event i → Option (Program Call Answer (Option (Local i)))}
  {serve : (c : Call) → σ → Answer c × σ} {Sim : σ → σ → Prop} {P M : ι → Call → Prop}
  {Hidden : Call → Prop}

/-! ## The order of the events -/

/-- Each process has the same events in the same order. -/
def SameOrder (events events' : List ((i : ι) × Event i)) : Prop :=
  ∀ i, events.filter (fun e => e.1 = i) = events'.filter (fun e => e.1 = i)

/-- An event may move in front of the events of other processes. -/
theorem SameOrder.insert {before after events : List ((i : ι) × Event i)}
    (h : SameOrder (before ++ after) events) {e : (i : ι) × Event i}
    (hbefore : ∀ other ∈ before, other.1 ≠ e.1) :
    SameOrder (before ++ e :: after) (e :: events) := by
  intro i
  rw [List.filter_cons, ← h i, List.filter_append, List.filter_append, List.filter_cons]
  by_cases hi : e.1 = i
  · have hnone : before.filter (fun other => other.1 = i) = [] := by
      rw [List.filter_eq_nil_iff]
      rintro other hother hother'
      exact hbefore other hother ((of_decide_eq_true hother').trans hi.symm)
    simp [hi, hnone]
  · simp [hi]

omit [DecidableEq ι] in
theorem Block.event_process {b : Block Event} {e : (i : ι) × Event i} (h : b.event = some e) :
    e.1 = b.process := by
  cases b with
  | rest i => cases h
  | whole i event =>
      cases h
      rfl

/-- A process that is in a program and comes to rest has a block for the rest of it, and no
block before that one. -/
theorem exists_rest {st st' : State Answer Local σ} {blocks : List (Block Event)} {i : ι} {c : Call}
    {next : Answer c → Program Call Answer (Option (Local i))}
    (hworking : st.processes i = .working c next)
    (hrun : runBlocks handler serve blocks st = some st') (hrest : st'.AtRest) :
    ∃ before after between, blocks = before ++ .rest i :: after ∧
      (∀ b ∈ before, b.process ≠ i) ∧ runBlocks handler serve before st = some between ∧
      runBlocks handler serve after (between.finish serve i (.call c next)) = some st' := by
  induction blocks generalizing st with
  | nil =>
      obtain rfl := Option.some.inj hrun
      exact absurd hworking (hrest i c next)
  | cons b blocks ih =>
      obtain ⟨st₁, hstep, hrun⟩ := Option.bind_eq_some_iff.1 hrun
      by_cases hi : b.process = i
      · cases b with
        | rest j =>
            obtain rfl : j = i := hi
            rw [blockStep_rest hworking] at hstep
            obtain rfl := Option.some.inj hstep
            exact ⟨[], blocks, st, rfl, fun b hb => absurd hb List.not_mem_nil, rfl, hrun⟩
        | whole j event =>
            obtain rfl : j = i := hi
            obtain ⟨p, hp, -⟩ := Option.map_eq_some_iff.1 hstep
            obtain ⟨l, hwaiting, -⟩ := blockProgram_whole hp
            rw [hworking] at hwaiting
            cases hwaiting
      · rw [← blockStep_processes_of_ne hi hstep] at hworking
        obtain ⟨before, after, between, rfl, hbefore, hbetween, hafter⟩ := ih hworking hrun
        refine ⟨b :: before, after, between, rfl, ?_, ?_, hafter⟩
        · rintro other hother
          rcases List.mem_cons.1 hother with rfl | hother
          · exact hi
          · exact hbefore other hother
        · rw [runBlocks, PartialRuns.run_cons, hstep]
          exact hbetween

theorem runBlocks_processes_of_ne {st st' : State Answer Local σ} {blocks : List (Block Event)}
    {i : ι} (hblocks : ∀ b ∈ blocks, b.process ≠ i)
    (hrun : runBlocks handler serve blocks st = some st') : st'.processes i = st.processes i := by
  induction blocks generalizing st with
  | nil =>
      obtain rfl := Option.some.inj hrun
      rfl
  | cons b blocks ih =>
      obtain ⟨between, hstep, hrest⟩ := Option.bind_eq_some_iff.1 hrun
      have hlater := ih (fun other hother => hblocks other (List.mem_cons_of_mem b hother)) hrest
      exact hlater.trans (blockStep_processes_of_ne (hblocks b List.mem_cons_self) hstep)

/-! ## The reduction -/

variable (handler serve Sim P M Hidden) in
/-- From `st` the events, each process's in the given order, can be handled in whole, and
that leads to `st'` or a state that is the same. -/
def Reduced (st st' : State Answer Local σ) (events : List ((i : ι) × Event i)) : Prop :=
  ∃ blocks st'', (∀ b ∈ blocks, b.Starts handler P M Hidden) ∧
    SameOrder (blocks.filterMap Block.event) events ∧
    runBlocks handler serve blocks st = some st'' ∧ Same serve Sim st'' st'

namespace Reduced

variable {st st' : State Answer Local σ} {events events' : List ((i : ι) × Event i)} {i : ι}

theorem same (hsim : Similarity serve Sim) {x y : State Answer Local σ}
    (hxy : Same serve Sim x y) (h : Reduced handler serve Sim P M Hidden y st' events) :
    Reduced handler serve Sim P M Hidden x st' events := by
  obtain ⟨blocks, y', hstarts, horder, hrun, hsame⟩ := h
  obtain ⟨x', hrun', hsame'⟩ := hxy.blocks hsim hrun
  exact ⟨blocks, x', hstarts, horder, hrun', hsame'.trans hsim hsame⟩

theorem reorder (h : Reduced handler serve Sim P M Hidden st st' events)
    (horder : SameOrder events events') : Reduced handler serve Sim P M Hidden st st' events' := by
  obtain ⟨blocks, st'', hstarts, horder', hrun, hsame⟩ := h
  exact ⟨blocks, st'', hstarts, fun i => (horder' i).trans (horder i), hrun, hsame⟩

theorem blocks {before : List (Block Event)} {between : State Answer Local σ}
    (hstarts : ∀ b ∈ before, b.Starts handler P M Hidden)
    (hrun : runBlocks handler serve before st = some between)
    (h : Reduced handler serve Sim P M Hidden between st' events) :
    Reduced handler serve Sim P M Hidden st st' (before.filterMap Block.event ++ events) := by
  obtain ⟨after, st'', hstarts', horder, hrun', hsame⟩ := h
  refine ⟨before ++ after, st'', ?_, ?_, ?_, hsame⟩
  · rintro b hb
    rcases List.mem_append.1 hb with hb | hb
    · exact hstarts b hb
    · exact hstarts' b hb
  · intro i
    rw [List.filterMap_append, List.filter_append, List.filter_append, horder i]
  · exact (PartialRuns.run_append_eq_some_iff _).2 ⟨between, hrun, hrun'⟩

theorem block (b : Block Event) {between : State Answer Local σ}
    (hstarts : b.Starts handler P M Hidden) (hstep : blockStep handler serve st b = some between)
    (h : Reduced handler serve Sim P M Hidden between st' events) :
    Reduced handler serve Sim P M Hidden st st' ([b].filterMap Block.event ++ events) := by
  have hrun : runBlocks handler serve [b] st = some between :=
    (PartialRuns.run_singleton _ b st).trans hstep
  refine h.blocks ?_ hrun
  rintro other hother
  obtain rfl := List.mem_singleton.1 hother
  exact hstarts

/-- If a process is in a program, there are blocks of other processes before the one that
finishes it. -/
theorem split {c : Call} {next : Answer c → Program Call Answer (Option (Local i))}
    (hworking : st.processes i = .working c next) (hrest : st'.AtRest)
    (h : Reduced handler serve Sim P M Hidden st st' events) :
    ∃ before between after, (∀ b ∈ before, b.Starts handler P M Hidden ∧ ¬ b.process = i) ∧
      runBlocks handler serve before st = some between ∧
      Reduced handler serve Sim P M Hidden (between.finish serve i (.call c next)) st' after ∧
      SameOrder (before.filterMap Block.event ++ after) events := by
  obtain ⟨blocks, st'', hstarts, horder, hrun, hsame⟩ := h
  have hrest'' : st''.AtRest := fun j d rest hj =>
    hrest j d rest ((hsame.processes j id).symm.trans hj)
  obtain ⟨before, after, between, rfl, hbefore, hbetween, hafter⟩ :=
    exists_rest hworking hrun hrest''
  refine ⟨before, between, after.filterMap Block.event, ?_, hbetween, ?_, ?_⟩
  · exact fun b hb => ⟨hstarts b (List.mem_append_left _ hb), hbefore b hb⟩
  · exact ⟨after, st'', fun b hb => hstarts b (List.mem_append_right _ (List.mem_cons_of_mem _ hb)),
      fun _ => rfl, hafter, hsame⟩
  · rw [List.filterMap_append, List.filterMap_cons_none rfl] at horder
    exact horder

/-- The start of a program moves to the block that finishes it. -/
theorem start (hm : Movers serve Sim P M Hidden) (hst : st.Allowed P M Hidden)
    (hgood : Sim st.service st.service) (hrest : st'.AtRest) {l : Local i} {event : Event i}
    {p : Program Call Answer (Option (Local i))} (hwaiting : st.processes i = .waiting l)
    (hp : handler i l event = some p) (hevent : StartsAllowed handler P M Hidden i event)
    (h : Reduced handler serve Sim P M Hidden (st.set i (.ofProgram p)) st' events) :
    Reduced handler serve Sim P M Hidden st st' (⟨i, event⟩ :: events) := by
  match p with
  | .ret result =>
      -- a program without calls is through at once
      have hfinish : st.finish serve i (.ret result) = st.set i (.ofProgram (.ret result)) := by
        cases result <;> rfl
      rw [← hfinish] at h
      exact h.block (.whole i event) hevent (blockStep_whole hwaiting hp)
  | .call c next =>
      have hworking : (st.set i (.ofProgram (.call c next))).processes i = .working c next := by
        simp [Process.ofProgram]
      obtain ⟨before, between, after, hbefore, hbetween, hafter, horder⟩ := h.split hworking hrest
      have hahead : Ahead serve Sim (· = i) (.ret () : Program Call Answer Unit) () st
          (st.set i (.ofProgram (.call c next))) :=
        ⟨fun j hj => (State.set_processes_of_ne st _ hj).symm, hgood, rfl, hgood⟩
      have hmove := hahead.blocks hm hst hbefore fun j r _ _ =>
        (Commuting.ret hm.toSimilarity r ()).symm hm.toSimilarity
      rw [hbetween] at hmove
      generalize hbetween' : runBlocks handler serve before st = moved at hmove
      cases hmove with
      | some hahead' =>
          have hwaiting' :=
            (runBlocks_processes_of_ne (fun b hb => (hbefore b hb).2) hbetween').trans hwaiting
          have hsame := hahead'.finish hm.toSimilarity fun _ => .call c next
          have hwhole := (hafter.same hm.toSimilarity hsame).block (.whole i event) hevent
            (blockStep_whole hwaiting' hp)
          refine (hwhole.blocks (fun b hb => (hbefore b hb).1) hbetween').reorder ?_
          refine horder.insert fun e he => ?_
          obtain ⟨b, hb, hbe⟩ := List.mem_filterMap.1 he
          rw [Block.event_process hbe]
          exact (hbefore b hb).2

/-- A turn whose call is a mover moves to the block that finishes the program. -/
theorem turn_mover (hm : Movers serve Sim P M Hidden) (hst : st.Allowed P M Hidden)
    {before : List (Block Event)} {st₁ between : State Answer Local σ} {c : Call}
    {next : Answer c → Program Call Answer (Option (Local i))} {answer : Answer c}
    (hworking : st.processes i = .working c next)
    (hmover : ∀ j (q : Program Call Answer (Option (Local j))), ¬ j = i → Allowed P M Hidden j q →
      Commuting serve Sim (Program.one c : Program Call Answer _) q)
    (hahead : Ahead serve Sim (· = i) (Program.one c : Program Call Answer _) answer st st₁)
    (hbefore : ∀ b ∈ before, b.Starts handler P M Hidden ∧ ¬ b.process = i)
    (hbetween : runBlocks handler serve before st₁ = some between)
    (h : Reduced handler serve Sim P M Hidden (between.finish serve i (next answer)) st' events) :
    Reduced handler serve Sim P M Hidden st st' (before.filterMap Block.event ++ events) := by
  have hmove := hahead.blocks hm hst hbefore hmover
  rw [hbetween] at hmove
  generalize hbetween' : runBlocks handler serve before st = moved at hmove
  cases hmove with
  | some hahead' =>
      have hworking' :=
        (runBlocks_processes_of_ne (fun b hb => (hbefore b hb).2) hbetween').trans hworking
      have hrest := (h.same hm.toSimilarity (hahead'.finish hm.toSimilarity next)).block (.rest i)
        trivial (blockStep_rest hworking')
      exact hrest.blocks (fun b hb => (hbefore b hb).1) hbetween'

/-- The rest of a program moves to the front if it commutes with all before it. -/
theorem rest_first (hm : Movers serve Sim P M Hidden) (hst : st.Allowed P M Hidden)
    (hgood : Sim st.service st.service) {before : List (Block Event)}
    {between : State Answer Local σ} {p : Program Call Answer (Option (Local i))}
    (hmover : ∀ j (q : Program Call Answer (Option (Local j))), ¬ j = i → Allowed P M Hidden j q →
      Commuting serve Sim p q)
    (hbefore : ∀ b ∈ before, b.Starts handler P M Hidden ∧ ¬ b.process = i)
    (hbetween : runBlocks handler serve before st = some between)
    (h : Reduced handler serve Sim P M Hidden (between.finish serve i p) st' events) :
    Reduced handler serve Sim P M Hidden (st.finish serve i p) st'
      (before.filterMap Block.event ++ events) := by
  have hahead : Ahead serve Sim (· = i) p (p.run serve st.service).1 st (st.finish serve i p) :=
    ⟨fun j hj => (State.finish_processes_of_ne st _ hj).symm, hgood, rfl, (hm.run p hgood).2⟩
  have hmove := hahead.blocks hm hst hbefore hmover
  rw [hbetween] at hmove
  generalize hbetween' : runBlocks handler serve before (st.finish serve i p) = moved at hmove
  cases hmove with
  | some hahead' =>
      have hfinished :=
        (runBlocks_processes_of_ne (fun b hb => (hbefore b hb).2) hbetween').trans
          (State.finish_processes_self st i p)
      have hsame := (hahead'.finished hm.toSimilarity hfinished).symm hm.toSimilarity
      exact (h.same hm.toSimilarity hsame).blocks (fun b hb => (hbefore b hb).1) hbetween'

/-- A turn. -/
theorem turn (hm : Movers serve Sim P M Hidden) (hst : st.Allowed P M Hidden)
    (hgood : Sim st.service st.service) (hrest : st'.AtRest) {c : Call}
    {next : Answer c → Program Call Answer (Option (Local i))}
    (hworking : st.processes i = .working c next) {st₁ : State Answer Local σ}
    (hstep : st₁ = { st with service := (serve c st.service).2 }.set i
      (.ofProgram (next (serve c st.service).1)))
    (hnext : st₁.Allowed P M Hidden) (h : Reduced handler serve Sim P M Hidden st₁ st' events) :
    Reduced handler serve Sim P M Hidden st st' events := by
  have hservice : st₁.service = (serve c st.service).2 := congrArg State.service hstep
  have hothers : ∀ j, ¬ j = i → st.processes j = st₁.processes j := by
    intro j hj
    rw [hstep]
    exact (State.set_processes_of_ne { st with service := (serve c st.service).2 } _ hj).symm
  have hfinish : blockStep handler serve st (.rest i) =
      some (st₁.finish serve i (next (serve c st.service).1)) := by
    rw [blockStep_rest hworking, hstep]
    simp [State.finish, State.set, Program.run]
  cases hp : next (serve c st.service).1 with
  | ret result =>
      -- the call was the last one
      have hdone : st₁.finish serve i (.ret result) = st₁ := by
        rw [hstep, hp]
        cases result <;> simp [State.finish, State.set, Program.run, Process.ofProgram, finished]
      rw [hp, hdone] at hfinish
      exact h.block (.rest i) trivial hfinish
  | call d rest =>
      have hworking₁ : st₁.processes i = .working d rest := by
        rw [hstep, hp]
        simp [Process.ofProgram]
      obtain ⟨before, between, after, hbefore, hbetween, hafter, horder⟩ := h.split hworking₁ hrest
      rw [← hp] at hafter
      rcases (hst i c next hworking).moves hm with hmover | hmover
      · have hahead : Ahead serve Sim (· = i) (Program.one c : Program Call Answer _)
            (serve c st.service).1 st st₁ := by
          refine ⟨hothers, hgood, rfl, ?_⟩
          rw [hservice]
          exact hm.next c hgood
        exact (turn_mover hm hst hworking hmover hahead hbefore hbetween hafter).reorder horder
      · have hgood₁ : Sim st₁.service st₁.service := by
          rw [hservice]
          exact hm.next c hgood
        have hfirst := rest_first hm hnext hgood₁ (hmover _) hbefore hbetween hafter
        exact (hfirst.block (.rest i) trivial hfinish).reorder horder

end Reduced

theorem reduced_of_run (hm : Movers serve Sim P M Hidden) {actions : List (Action Local Event)}
    (hlaunch : ∀ i l, .launch i l ∉ actions)
    (hactions : ∀ i event, Started actions i event → StartsAllowed handler P M Hidden i event)
    {st st' : State Answer Local σ} (hst : st.Allowed P M Hidden)
    (hgood : Sim st.service st.service) (hrun : run handler serve actions st = some st')
    (hrest : st'.AtRest) :
    Reduced handler serve Sim P M Hidden st st' (actions.filterMap Action.event) := by
  induction actions generalizing st with
  | nil =>
      obtain rfl := Option.some.inj hrun
      exact ⟨[], st, fun b hb => absurd hb List.not_mem_nil, fun _ => rfl, rfl, .refl hgood⟩
  | cons action actions ih =>
      obtain ⟨between, hstep, hrun₁⟩ := Option.bind_eq_some_iff.1 hrun
      have hnext : between.Allowed P M Hidden := hst.step hm (fun i event heq =>
        hactions i event (List.mem_cons.2 (Or.inl heq.symm))) hstep
      have hlater := ih (fun i l hmem => hlaunch i l (List.mem_cons_of_mem action hmem))
        (fun i event hmem => hactions i event (List.mem_cons_of_mem action hmem)) hnext
      cases action with
      | launch i l => exact absurd List.mem_cons_self (hlaunch i l)
      | start i event =>
          obtain ⟨l, program, hwaiting, hprogram, rfl⟩ := step_start hstep
          exact (hlater hgood hrun₁).start hm hst hgood hrest hwaiting hprogram
            (hactions i event List.mem_cons_self)
      | turn i =>
          obtain ⟨c, next, hworking, hbetween⟩ := step_turn hstep
          have hgood' : Sim between.service between.service := by
            rw [hbetween]
            exact hm.next c hgood
          exact (hlater hgood' hrun₁).turn hm hst hgood hrest hworking hbetween hnext

variable (handler serve) in
/-- An event, with all of its program. -/
def wholeStep (st : State Answer Local σ) (e : (i : ι) × Event i) : Option (State Answer Local σ) :=
  blockStep handler serve st (.whole e.1 e.2)

variable (handler serve) in
/-- A sequence of events, each with all of its program. -/
def runWhole (events : List ((i : ι) × Event i)) (st : State Answer Local σ) :
    Option (State Answer Local σ) :=
  PartialRuns.run (wholeStep handler serve) events st

theorem wholeStep_cases {st st' : State Answer Local σ} {e : (i : ι) × Event i}
    (h : wholeStep handler serve st e = some st') :
    ∃ l program, st.processes e.1 = .waiting l ∧ handler e.1 l e.2 = some program ∧
      st' = st.finish serve e.1 program := by
  obtain ⟨program, hprogram, rfl⟩ := Option.map_eq_some_iff.1 h
  obtain ⟨l, hwaiting, hhandler⟩ := blockProgram_whole hprogram
  exact ⟨l, program, hwaiting, hhandler, rfl⟩

/-- A process that has ended stays so. -/
theorem runWhole_ended {st st' : State Answer Local σ} {events : List ((i : ι) × Event i)} {i : ι}
    (hended : st.processes i = .ended) (hrun : runWhole handler serve events st = some st') :
    st'.processes i = .ended := by
  induction events generalizing st with
  | nil =>
      obtain rfl := Option.some.inj hrun
      exact hended
  | cons e events ih =>
      obtain ⟨between, hstep, hlater⟩ := Option.bind_eq_some_iff.1 hrun
      obtain ⟨l, program, hwaiting, -, rfl⟩ := wholeStep_cases hstep
      refine ih ?_ hlater
      by_cases hi : i = e.1
      · subst hi
        rw [hended] at hwaiting
        cases hwaiting
      · exact (State.finish_processes_of_ne st program hi).trans hended

/-- From a state at rest no block is the rest of a program. -/
theorem runWhole_of_blocks {st st' : State Answer Local σ} (hrest : st.AtRest)
    {blocks : List (Block Event)} (hrun : runBlocks handler serve blocks st = some st') :
    runWhole handler serve (blocks.filterMap Block.event) st = some st' := by
  induction blocks generalizing st with
  | nil => exact hrun
  | cons b blocks ih =>
      obtain ⟨between, hstep, hlater⟩ := Option.bind_eq_some_iff.1 hrun
      have hbetween : between.AtRest := by
        intro j c next hworking
        by_cases hj : j = b.process
        · subst hj
          obtain ⟨p, -, rfl⟩ := Option.map_eq_some_iff.1 hstep
          rw [State.finish_processes_self] at hworking
          exact finished_ne_working _ c next hworking
        · rw [blockStep_processes_of_ne (Ne.symm hj) hstep] at hworking
          exact hrest j c next hworking
      cases b with
      | rest i =>
          obtain ⟨p, hp, -⟩ := Option.map_eq_some_iff.1 hstep
          obtain ⟨c, next, hworking, -⟩ := blockProgram_rest hp
          exact absurd hworking (hrest i c next)
      | whole i event =>
          show runWhole handler serve (⟨i, event⟩ :: blocks.filterMap Block.event) st = some st'
          rw [runWhole, PartialRuns.run_cons, wholeStep, hstep]
          exact ih hbetween hlater

/-- **The reduction.**  If every program is allowed, a run between states at rest comes to
the same as one in which every program goes through without an interruption, and each
process has the same events in the same order there. -/
theorem reduce (hm : Movers serve Sim P M Hidden) {actions : List (Action Local Event)}
    (hlaunch : ∀ i l, .launch i l ∉ actions)
    (hactions : ∀ i event, Started actions i event → StartsAllowed handler P M Hidden i event)
    {st st' : State Answer Local σ} (hrest : st.AtRest) (hgood : Sim st.service st.service)
    (hrun : run handler serve actions st = some st') (hrest' : st'.AtRest) :
    ∃ events st'', SameOrder events (actions.filterMap Action.event) ∧
      runWhole handler serve events st = some st'' ∧
      (∀ i, st''.processes i = st'.processes i) ∧ Sim st''.service st'.service := by
  have hallowed : st.Allowed P M Hidden := fun i c next hworking =>
    absurd hworking (hrest i c next)
  obtain ⟨blocks, st'', -, horder, hrun'', hsame⟩ :=
    reduced_of_run hm hlaunch hactions hallowed hgood hrun hrest'
  exact ⟨_, st'', horder, runWhole_of_blocks hrest hrun'', fun i => hsame.processes i id,
    hsame.service⟩

end Reduction

end CallPrograms
