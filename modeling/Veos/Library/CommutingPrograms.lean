import Veos.Library.CallPrograms

/-!
# Programs that commute

Two programs commute if a state does not tell in which order they were run.  States are
compared by a relation that is symmetric and transitive but need not be reflexive: what is
said is about the states that are related to themselves.

A program is reducible if at most one of its calls is not a mover, and it skips if its calls
do not show and its result does not depend on the answers.
-/

namespace CallPrograms

/-! ## Programs that commute -/

section Programs

variable {Call : Type} {Answer : Call → Type} {α β σ : Type}

/-- The relation under which the states of the service are compared: no call can tell
related states apart. -/
structure Similarity (serve : (c : Call) → σ → Answer c × σ) (Sim : σ → σ → Prop) : Prop where
  symm : ∀ {s s'}, Sim s s' → Sim s' s
  trans : ∀ {s s' s''}, Sim s s' → Sim s' s'' → Sim s s''
  answer : ∀ c {s s'}, Sim s s' → (serve c s).1 = (serve c s').1
  next : ∀ c {s s'}, Sim s s' → Sim (serve c s).2 (serve c s').2

variable {serve : (c : Call) → σ → Answer c × σ} {Sim : σ → σ → Prop}

theorem Similarity.run (h : Similarity serve Sim) (p : Program Call Answer α) {s s' : σ}
    (hs : Sim s s') :
    (p.run serve s).1 = (p.run serve s').1 ∧ Sim (p.run serve s).2 (p.run serve s').2 := by
  induction p generalizing s s' with
  | ret a => exact ⟨rfl, hs⟩
  | call c next ih =>
      rw [Program.run, Program.run, h.answer c hs]
      exact ih _ (h.next c hs)

/-- The program that makes one call. -/
def Program.one (c : Call) : Program Call Answer (Answer c) := .call c .ret

variable (serve Sim) in
/-- The programs can be run in either order. -/
structure Commuting (p : Program Call Answer α) (q : Program Call Answer β) : Prop where
  left : ∀ s, Sim s s → (p.run serve (q.run serve s).2).1 = (p.run serve s).1
  right : ∀ s, Sim s s → (q.run serve (p.run serve s).2).1 = (q.run serve s).1
  state : ∀ s, Sim s s →
    Sim (p.run serve (q.run serve s).2).2 (q.run serve (p.run serve s).2).2

namespace Commuting

variable {p : Program Call Answer α} {q : Program Call Answer β}

theorem symm (hsim : Similarity serve Sim) (h : Commuting serve Sim p q) :
    Commuting serve Sim q p where
  left := h.right
  right := h.left
  state s hs := hsim.symm (h.state s hs)

theorem ret (hsim : Similarity serve Sim) (p : Program Call Answer α) (b : β) :
    Commuting serve Sim p (.ret b) where
  left _ _ := rfl
  right _ _ := rfl
  state _ hs := (hsim.run p hs).2

/-- Past a call, and past what the program does with any answer. -/
theorem call (hsim : Similarity serve Sim) {c : Call} {next : Answer c → Program Call Answer β}
    (hcall : Commuting serve Sim p (.one c))
    (hnext : ∀ answer, Commuting serve Sim p (next answer)) :
    Commuting serve Sim p (.call c next) := by
  have hgood : ∀ s, Sim s s → Sim (serve c s).2 (serve c s).2 := fun s hs => hsim.next c hs
  have hanswer : ∀ s, Sim s s → (serve c (p.run serve s).2).1 = (serve c s).1 := hcall.right
  have hafter : ∀ s, Sim s s →
      Sim (serve c (p.run serve s).2).2 (p.run serve (serve c s).2).2 :=
    fun s hs => hsim.symm (hcall.state s hs)
  constructor
  · intro s hs
    rw [Program.run, (hnext _).left _ (hgood s hs)]
    exact hcall.left s hs
  · intro s hs
    rw [Program.run, Program.run, hanswer s hs, (hsim.run _ (hafter s hs)).1]
    exact (hnext _).right _ (hgood s hs)
  · intro s hs
    rw [Program.run, Program.run, hanswer s hs]
    exact hsim.trans ((hnext _).state _ (hgood s hs))
      (hsim.symm (hsim.run _ (hafter s hs)).2)

/-- Programs commute if their calls do. -/
theorem of_calls (hsim : Similarity serve Sim) {M P : Call → Prop}
    (hcalls : ∀ c d, M c → P d →
      Commuting serve Sim (Program.one c : Program Call Answer _) (.one d))
    (hp : p.Calls M) (hq : q.Calls P) : Commuting serve Sim p q := by
  have hone : ∀ d, P d → Commuting serve Sim p (.one d) := by
    intro d hd
    apply Commuting.symm hsim
    induction p with
    | ret a => exact .ret hsim _ a
    | call c next ih =>
        exact .call hsim ((hcalls c d hp.1 hd).symm hsim) fun answer => ih answer (hp.2 answer)
  induction q with
  | ret b => exact .ret hsim p b
  | call d next ih => exact .call hsim (hone d hq.1) fun answer => ih answer (hq.2 answer)

end Commuting

/-! ## Reducible programs -/

namespace Program

/-- The program returns `r`, whatever its calls are answered, and the calls are hidden. -/
def Skips (Hidden : Call → Prop) (r : α) : Program Call Answer α → Prop
  | .ret a => a = r
  | .call c next => Hidden c ∧ ∀ answer, (next answer).Skips Hidden r

theorem Calls.skips {Hidden : Call → Prop} {p : Program Call Answer α} (hp : p.Calls Hidden)
    (r : β) : (p >>= fun _ => pure r).Skips Hidden r := by
  induction p with
  | ret a => rfl
  | call c next ih => exact ⟨hp.1, fun answer => ih answer (hp.2 answer)⟩

/-- The program makes calls in `P`, and but for at most one call they are in `M`. -/
def Reducible (P M : Call → Prop) : Program Call Answer α → Prop
  | .ret _ => True
  | .call c next =>
      P c ∧ ((M c ∧ ∀ answer, (next answer).Reducible P M) ∨ ∀ answer, (next answer).Calls M)

variable {P M : Call → Prop}

theorem Calls.reducible (hsub : ∀ c, M c → P c) {p : Program Call Answer α} (hp : p.Calls M) :
    p.Reducible P M := by
  induction p with
  | ret a => trivial
  | call c next ih => exact ⟨hsub c hp.1, Or.inr hp.2⟩

theorem Reducible.calls (hsub : ∀ c, M c → P c) {p : Program Call Answer α}
    (hp : p.Reducible P M) : p.Calls P := by
  induction p with
  | ret a => trivial
  | call c next ih =>
      obtain ⟨hc, ⟨-, hnext⟩ | hnext⟩ := hp
      · exact ⟨hc, fun answer => ih answer (hnext answer)⟩
      · exact ⟨hc, fun answer => (hnext answer).mono hsub⟩

/-- Movers in front. -/
theorem Calls.bind_reducible (hsub : ∀ c, M c → P c) {p : Program Call Answer α}
    {f : α → Program Call Answer β} (hp : p.Calls M) (hf : ∀ a, (f a).Reducible P M) :
    (p >>= f).Reducible P M := by
  induction p with
  | ret a => exact hf a
  | call c next ih => exact ⟨hsub c hp.1, Or.inl ⟨hp.1, fun answer => ih answer (hp.2 answer)⟩⟩

/-- Movers behind. -/
theorem Reducible.bind_calls {p : Program Call Answer α} {f : α → Program Call Answer β}
    (hp : p.Reducible P M) (hf : ∀ a, (f a).Calls M) (hsub : ∀ c, M c → P c) :
    (p >>= f).Reducible P M := by
  induction p with
  | ret a => exact (hf a).reducible hsub
  | call c next ih =>
      obtain ⟨hc, ⟨hmover, hnext⟩ | hnext⟩ := hp
      · exact ⟨hc, Or.inl ⟨hmover, fun answer => ih answer (hnext answer)⟩⟩
      · exact ⟨hc, Or.inr fun answer => (hnext answer).bind hf⟩

end Program

/-- A program that skips can be run before or after any other. -/
theorem Commuting.of_skips (hsim : Similarity serve Sim) {Hidden : Call → Prop}
    (hhidden : ∀ c s, Hidden c → Sim s s → Sim (serve c s).2 s) {r : α}
    {p : Program Call Answer α} (hp : p.Skips Hidden r) (q : Program Call Answer β) :
    Commuting serve Sim p q := by
  have hskips : ∀ s, Sim s s → (p.run serve s).1 = r ∧ Sim (p.run serve s).2 s := by
    intro s hs
    induction p generalizing s with
    | ret a => exact ⟨hp, hs⟩
    | call c next ih =>
        have hc := hhidden c s hp.1 hs
        obtain ⟨hr, hstate⟩ := ih _ (hp.2 _) _ (hsim.next c hs)
        exact ⟨hr, hsim.trans hstate hc⟩
  constructor
  · intro s hs
    rw [(hskips s hs).1, (hskips _ (hsim.run q hs).2).1]
  · intro s hs
    exact (hsim.run q (hskips s hs).2).1
  · intro s hs
    exact hsim.trans (hskips _ (hsim.run q hs).2).2 (hsim.symm (hsim.run q (hskips s hs).2).2)

end Programs

end CallPrograms
