import Veos.Library.CallPrograms

/-!
# Postconditions of programs that may be interrupted

A process sees its own calls and relies on the others to leave a part of the service alone,
its view.  `Ensures` is the weakest precondition of a program over the view: an effect says
what a call may answer and what it may make of the view, and the program meets the
postcondition whatever the answers are.

If each program of a process keeps up an invariant of its local state and the view, the
invariant holds whenever the process waits, with any interleaving (`run_ensures`).  Where
the others leave nothing alone, the effect of a call takes in what they do before it
(`run_interfered`).

A process whose programs end it either at once or not at all has ended exactly if one of
its events was fatal (`run_ended_iff`).
-/

namespace CallPrograms

section Ensures

variable {Call : Type} {Answer : Call → Type} {α β τ : Type}
  (Effect : (c : Call) → τ → Answer c → τ → Prop)

/-- The weakest precondition over the view. -/
def Program.Ensures (post : α → τ → Prop) : Program Call Answer α → τ → Prop
  | .ret a, x => post a x
  | .call c next, x => ∀ answer x', Effect c x answer x' → (next answer).Ensures post x'

namespace Program

variable {Effect}

theorem Ensures.mono {post post' : α → τ → Prop} (hpost : ∀ a x, post a x → post' a x)
    {p : Program Call Answer α} {x : τ} (h : p.Ensures Effect post x) :
    p.Ensures Effect post' x := by
  induction p generalizing x with
  | ret a => exact hpost a x h
  | call c next ih => exact fun answer x' heffect => ih answer (h answer x' heffect)

/-- The rule for programs one after the other. -/
theorem Ensures.bind {post : α → τ → Prop} {post' : β → τ → Prop} {p : Program Call Answer α}
    {f : α → Program Call Answer β} {x : τ} (hp : p.Ensures Effect post x)
    (hf : ∀ a x, post a x → (f a).Ensures Effect post' x) : (p >>= f).Ensures Effect post' x := by
  induction p generalizing x with
  | ret a => exact hf a x hp
  | call c next ih => exact fun answer x' heffect => ih answer (hp answer x' heffect)

/-- Calls that leave the view alone ensure what held before them. -/
theorem Calls.ensures {P : Call → Prop} (hP : ∀ c x answer x', P c → Effect c x answer x' → x' = x)
    {p : Program Call Answer α} (hp : p.Calls P) (x : τ) :
    p.Ensures Effect (fun _ x' => x' = x) x := by
  induction p with
  | ret a => rfl
  | call c next ih =>
      intro answer x' heffect
      rw [hP c x answer x' hp.1 heffect]
      exact ih answer (hp.2 answer)

end Program

/-- A process that waits has the invariant, and one in a program ensures it for the end
of the program. -/
def Process.Ensures {L : Type} (Inv : L → τ → Prop) : Process Call Answer L → τ → Prop
  | .waiting l, x => Inv l x
  | .working c next, x =>
      (Program.call c next).Ensures Effect (fun result x' => ∀ l, result = some l → Inv l x') x
  | .ended, _ => True

variable {Effect}

theorem Process.ensures_ofProgram {L : Type} {Inv : L → τ → Prop}
    {p : Program Call Answer (Option L)} {x : τ}
    (h : p.Ensures Effect (fun result x' => ∀ l, result = some l → Inv l x') x) :
    (Process.ofProgram p).Ensures Effect Inv x := by
  match p with
  | .ret (some l) => exact h l rfl
  | .ret none => trivial
  | .call c next => exact h

variable {ι : Type} [DecidableEq ι] {Local Event : ι → Type} {σ : Type}
  {handler : (i : ι) → Local i → Event i → Option (Program Call Answer (Option (Local i)))}
  {serve : (c : Call) → σ → Answer c × σ}

/-- The rule for a process.  The effect is what the service does to the view, each program
of the process keeps up the invariant, and the other processes make only calls in `P`,
which leave the view alone. -/
theorem run_ensures {i : ι} {P : Call → Prop} (view : σ → τ) (Inv : Local i → τ → Prop)
    (heffect : ∀ c s, Effect c (view s) (serve c s).1 (view (serve c s).2))
    (hhandler : ∀ l event program x, handler i l event = some program → Inv l x →
      program.Ensures Effect (fun result x' => ∀ l', result = some l' → Inv l' x') x)
    (hrely : ∀ c s, P c → view (serve c s).2 = view s)
    {actions : List (Action Local Event)} (hlaunch : ∀ l, .launch i l ∉ actions)
    (hactions : ∀ j event, j ≠ i → Started actions j event → StartsCalls handler P j event)
    {st st' : State Answer Local σ} (hidle : st.Idle)
    (hinv : ∀ l, st.processes i = .waiting l → Inv l (view st.service))
    (hrun : run handler serve actions st = some st') {l' : Local i}
    (hwaiting : st'.processes i = .waiting l') : Inv l' (view st'.service) := by
  have hend : (st'.processes i).Ensures Effect Inv (view st'.service) := by
    apply run_rely (P := P) (fun _ process s => process.Ensures Effect Inv (view s))
      ?_ ?_ ?_ ?_ ?_ hactions (hidle.calls _ _) ?_ hrun
    · exact fun past l process s hmem _ => absurd hmem (hlaunch l)
    · intro past l s event program hprogram h
      exact Process.ensures_ofProgram (hhandler l event program _ hprogram h)
    · intro past c next s h
      exact Process.ensures_ofProgram (h _ _ (heffect c s))
    · exact fun past action process s _ h => h
    · intro past c process s hc h
      rw [hrely c s hc]
      exact h
    · obtain ⟨l, hl⟩ := hidle i
      rw [hl]
      exact hinv l hl
  rw [hwaiting] at hend
  exact hend

/-! ## Interference -/

/-- A call with the others before it: they lead the service to a state that `R` admits, and
there the call is served. -/
def Interfered (R : σ → σ → Prop) (serve : (c : Call) → σ → Answer c × σ) (c : Call) (s : σ)
    (answer : Answer c) (s' : σ) : Prop :=
  ∃ between, R s between ∧ serve c between = (answer, s')

variable {R : σ → σ → Prop}

theorem Process.Ensures.interfere {L : Type} {Inv : L → σ → Prop}
    (htrans : ∀ s s' s'', R s s' → R s' s'' → R s s'')
    (hstable : ∀ l s s', R s s' → Inv l s → Inv l s') {process : Process Call Answer L} {s s' : σ}
    (hR : R s s') (h : process.Ensures (Interfered R serve) Inv s) :
    process.Ensures (Interfered R serve) Inv s' := by
  cases process with
  | waiting l => exact hstable l s s' hR h
  | working c next =>
      rintro answer s'' ⟨between, hbetween, hserve⟩
      exact h answer s'' ⟨between, htrans s s' between hR hbetween, hserve⟩
  | ended => trivial

/-- The rule for a process that relies on no more than what every call does to the service.
Its programs keep up the invariant with such calls of others between their own, and a
process that is launched has it.  The others may be in the middle of a program. -/
theorem run_interfered {i : ι} (hrefl : ∀ s, R s s)
    (htrans : ∀ s s' s'', R s s' → R s' s'' → R s s'') (hserve : ∀ c s, R s (serve c s).2)
    (Inv : Local i → σ → Prop) (hstable : ∀ l s s', R s s' → Inv l s → Inv l s')
    {actions : List (Action Local Event)} {st st' : State Answer Local σ}
    (hlaunch : ∀ l s, .launch i l ∈ actions → R st.service s → Inv l s)
    (hhandler : ∀ l event program s, handler i l event = some program → R st.service s → Inv l s →
      program.Ensures (Interfered R serve) (fun result s' => ∀ l', result = some l' → Inv l' s') s)
    {l : Local i} (hstart : st.processes i = .waiting l) (hinv : Inv l st.service)
    (hrun : run handler serve actions st = some st') {l' : Local i}
    (hwaiting : st'.processes i = .waiting l') : Inv l' st'.service := by
  have hend : R st.service st'.service ∧
      (st'.processes i).Ensures (Interfered R serve) Inv st'.service := by
    apply run_rely (P := fun _ => True)
      (fun _ process s => R st.service s ∧ process.Ensures (Interfered R serve) Inv s)
      ?_ ?_ ?_ ?_ ?_ (fun j event _ _ l program _ => program.calls_true) (st.calls_true _) ?_ hrun
    · exact fun past l process s hmem h => ⟨h.1, hlaunch l s hmem h.1⟩
    · intro past l s event program hprogram h
      exact ⟨h.1, Process.ensures_ofProgram (hhandler l event program s hprogram h.1 h.2)⟩
    · intro past c next s h
      exact ⟨htrans _ s _ h.1 (hserve c s),
        Process.ensures_ofProgram (h.2 _ _ ⟨s, hrefl s, rfl⟩)⟩
    · exact fun past action process s _ h => h
    · intro past c process s _ h
      exact ⟨htrans _ s _ h.1 (hserve c s), h.2.interfere htrans hstable (hserve c s)⟩
    · rw [hstart]
      exact ⟨hrefl _, hinv⟩
  rw [hwaiting] at hend
  exact hend.2

end Ensures

/-! ## Endings -/

/-- Whatever its calls are answered, the program returns something with `post`. -/
def Program.Returns {Call : Type} {Answer : Call → Type} {α : Type} (post : α → Prop)
    (p : Program Call Answer α) : Prop :=
  p.Ensures (fun _ (_ : Unit) _ _ => True) (fun a _ => post a) ()

/-- If `fatal`, the program ends its process at once, and if not, it returns a `good` state. -/
def Program.Decides {Call : Type} {Answer : Call → Type} {L : Type} (fatal : Prop)
    (good : L → Prop) (p : Program Call Answer (Option L)) : Prop :=
  (fatal ∧ p = .ret none) ∨ (¬fatal ∧ p.Returns fun result => ∃ l, result = some l ∧ good l)

namespace Process

variable {Call : Type} {Answer : Call → Type} {L : Type} {fatal fatal' : Prop}
  {good good' : L → Prop}

/-- The process has ended if `fatal`.  If not, it waits with a `good` state or is in a program
that will return one. -/
def Fares (fatal : Prop) (good : L → Prop) : Process Call Answer L → Prop
  | .waiting l => ¬fatal ∧ good l
  | .working c next =>
      ¬fatal ∧ (Program.call c next).Returns fun result => ∃ l, result = some l ∧ good l
  | .ended => fatal

theorem fares_ofProgram {p : Program Call Answer (Option L)} (h : p.Decides fatal good) :
    (ofProgram p).Fares fatal good := by
  rcases h with ⟨hbad, rfl⟩ | ⟨hfine, h⟩
  · exact hbad
  · match p with
    | .ret (some l) =>
        obtain ⟨l', heq, hl'⟩ := h
        obtain rfl := Option.some.inj heq
        exact ⟨hfine, hl'⟩
    | .ret none =>
        obtain ⟨l', heq, -⟩ := h
        cases heq
    | .call c next => exact ⟨hfine, h⟩

theorem Fares.imp {process : Process Call Answer L} (h : process.Fares fatal good)
    (hfatal : fatal' ↔ fatal) (hgood : ∀ l, good l → good' l) : process.Fares fatal' good' := by
  cases process with
  | waiting l => exact ⟨mt hfatal.1 h.1, hgood l h.2⟩
  | working c next =>
      refine ⟨mt hfatal.1 h.1, Program.Ensures.mono ?_ h.2⟩
      rintro result - ⟨l, heq, hl⟩
      exact ⟨l, heq, hgood l hl⟩
  | ended => exact hfatal.2 h

theorem Fares.ended_iff {process : Process Call Answer L} (h : process.Fares fatal good) :
    process = .ended ↔ fatal := by
  cases process with
  | ended => exact iff_of_true rfl h
  | _ => exact iff_of_false (fun heq => by cases heq) h.1

end Process

section Endings

variable {ι : Type} [DecidableEq ι] {Call : Type} {Answer : Call → Type} {Local Event : ι → Type}
  {σ : Type}
  {handler : (i : ι) → Local i → Event i → Option (Program Call Answer (Option (Local i)))}
  {serve : (c : Call) → σ → Answer c × σ}

/-- The rule for the end of a process.  `Fatal` says of the actions so far that the process
has ended, and `Good` what its local state is else.  Every program decides at its start
which of the two it is. -/
theorem run_ended_iff {i : ι} (Fatal : List (Action Local Event) → Prop)
    (Good : List (Action Local Event) → Local i → Prop)
    {actions : List (Action Local Event)}
    (hlaunch : ∀ past l, .launch i l ∈ actions →
      ¬Fatal (past ++ [.launch i l]) ∧ Good (past ++ [.launch i l]) l)
    (hstart : ∀ past l event program, handler i l event = some program → ¬Fatal past →
      Good past l →
      program.Decides (Fatal (past ++ [.start i event])) (Good (past ++ [.start i event])))
    (hothers : ∀ past action, action.process ≠ i ∨ action = .turn i →
      (Fatal (past ++ [action]) ↔ Fatal past) ∧ ∀ l, Good past l → Good (past ++ [action]) l)
    {st st' : State Answer Local σ} (hidle : st.Idle) (hfatal : ¬Fatal [])
    (hgood : ∀ l, st.processes i = .waiting l → Good [] l)
    (hrun : run handler serve actions st = some st') :
    st'.processes i = .ended ↔ Fatal actions := by
  have hend : (st'.processes i).Fares (Fatal actions) (Good actions) := by
    apply run_rely (P := fun _ => True)
      (fun past process _ => process.Fares (Fatal past) (Good past))
      ?_ ?_ ?_ ?_ ?_ (fun j event _ _ l program _ => program.calls_true) (hidle.calls _ _) ?_ hrun
    · exact fun past l process s hmem _ => hlaunch past l hmem
    · rintro past l s event program hprogram ⟨hfine, hl⟩
      exact Process.fares_ofProgram (hstart past l event program hprogram hfine hl)
    · rintro past c next s ⟨hfine, hreturns⟩
      obtain ⟨hiff, hkeep⟩ := hothers past (.turn i) (Or.inr rfl)
      exact (Process.fares_ofProgram (Or.inr ⟨hfine, hreturns _ () trivial⟩)).imp hiff hkeep
    · intro past action process s hne h
      obtain ⟨hiff, hkeep⟩ := hothers past action (Or.inl hne)
      exact h.imp hiff hkeep
    · exact fun past c process s _ h => h
    · obtain ⟨l, hl⟩ := hidle i
      rw [hl]
      exact ⟨hfatal, hgood l hl⟩
  exact hend.ended_iff

end Endings

end CallPrograms
