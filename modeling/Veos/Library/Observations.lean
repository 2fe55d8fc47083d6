import Mathlib.Data.List.NodupEquivFin
import Mathlib.Data.List.Forall2

/-!
# What is observed on the way

A system goes from state to state, and an observer looks at it from time to time.  An
observation is about one of the states between the first and the last, and a later one is
about a later state (`Observed`).

If the states carry a history that only grows, and each observation shows the end of the
history at its time, then the observations never go back in it (`Observed.inOrder`).
-/

namespace Observations

variable {σ α β : Type*}

/-- `bs` are observations, in their order, of states that the system passes on its way from
`s` to the given state, where `R` relates each state to the later ones. -/
inductive Observed (R : σ → σ → Prop) (Shows : σ → β → Prop) (s : σ) : List β → σ → Prop
  | start {s' : σ} (hR : R s s') : Observed R Shows s [] s'
  | look {bs : List β} {b : β} {seen s' : σ} (hbefore : Observed R Shows s bs seen)
      (hshows : Shows seen b) (hR : R seen s') : Observed R Shows s (bs ++ [b]) s'

/-- `bs` show elements of `history`, each one the element of the one before or a later
one. -/
def InOrder (Shows : α → β → Prop) (history : List α) (bs : List β) : Prop :=
  ∃ places : List Nat, places.Pairwise (· ≤ ·) ∧
    List.Forall₂ (fun place b => ∃ a, history[place]? = some a ∧ Shows a b) places bs

namespace Observed

variable {R : σ → σ → Prop} {Shows : σ → β → Prop} {s s' s'' : σ} {bs : List β}

theorem later (htrans : ∀ s s' s'', R s s' → R s' s'' → R s s'')
    (h : Observed R Shows s bs s') (hR : R s' s'') : Observed R Shows s bs s'' := by
  cases h with
  | start hfirst => exact .start (htrans _ _ _ hfirst hR)
  | look hbefore hshows hlast => exact .look hbefore hshows (htrans _ _ _ hlast hR)

theorem reaches (htrans : ∀ s s' s'', R s s' → R s' s'' → R s s'')
    (h : Observed R Shows s bs s') : R s s' := by
  induction h with
  | start hR => exact hR
  | look hbefore hshows hR ih => exact htrans _ _ _ ih hR

/-- What was observed last can be observed once more. -/
theorem again (hrefl : ∀ s, R s s) {b : β} (h : Observed R Shows s (bs ++ [b]) s') :
    Observed R Shows s (bs ++ [b] ++ [b]) s' := by
  generalize hall : bs ++ [b] = all at h
  cases h with
  | start hR => simp at hall
  | look hbefore hshows hR =>
      obtain ⟨rfl, hb⟩ := List.append_inj' hall rfl
      cases hb
      exact .look (.look hbefore hshows (hrefl _)) hshows hR

/-- Every observation is of a state on the way. -/
theorem between (htrans : ∀ s s' s'', R s s' → R s' s'' → R s s'')
    (h : Observed R Shows s bs s') {b : β} (hmem : b ∈ bs) :
    ∃ seen, R s seen ∧ Shows seen b ∧ R seen s' := by
  induction h with
  | start hR => cases hmem
  | look hbefore hshows hR ih =>
      rcases List.mem_append.1 hmem with hmem | hmem
      · obtain ⟨seen, hfirst, hseen, hlast⟩ := ih hmem
        exact ⟨seen, hfirst, hseen, htrans _ _ _ hlast hR⟩
      · obtain rfl := List.mem_singleton.1 hmem
        exact ⟨_, hbefore.reaches htrans, hshows, hR⟩

end Observed

/-! ## Histories -/

theorem InOrder.sublist {Shows : α → β → Prop} {history history' : List α} {bs : List β}
    (h : InOrder Shows history bs) (hsub : history.Sublist history') :
    InOrder Shows history' bs := by
  obtain ⟨places, hsorted, hshown⟩ := h
  obtain ⟨f, hf⟩ := List.sublist_iff_exists_orderEmbedding_getElem?_eq.1 hsub
  refine ⟨places.map f, hsorted.map f fun _ _ hle => f.monotone hle, ?_⟩
  rw [List.forall₂_map_left_iff]
  refine hshown.imp ?_
  rintro place b ⟨a, ha, hb⟩
  exact ⟨a, (hf place).symm.trans ha, hb⟩

/-- One more observation, of the end of the history. -/
theorem InOrder.look {Shows : α → β → Prop} {history history' : List α} {bs : List β} {a : α}
    {b : β} (h : InOrder Shows history bs) (hlast : history.getLast? = some a) (hb : Shows a b)
    (hgrow : history <+: history') : InOrder Shows history' (bs ++ [b]) := by
  obtain ⟨places, hsorted, hshown⟩ := h
  have hkept : ∀ (place : Nat) (x : α), history[place]? = some x → history'[place]? = some x := by
    intro place x hx
    obtain ⟨hlt, rfl⟩ := List.getElem?_eq_some_iff.1 hx
    exact List.prefix_iff_getElem?.1 hgrow place hlt
  have hlt : ∀ place ∈ places, place ≤ history.length - 1 := by
    intro place hmem
    obtain ⟨n, hn, rfl⟩ := List.getElem_of_mem hmem
    obtain ⟨x, hx, -⟩ := hshown.get hn (hshown.length_eq ▸ hn)
    exact Nat.le_sub_one_of_lt (List.getElem?_eq_some_iff.1 hx).1
  refine ⟨places ++ [history.length - 1], ?_, ?_⟩
  · rw [List.pairwise_append]
    refine ⟨hsorted, List.pairwise_singleton _ _, fun place hmem other hother => ?_⟩
    rw [List.mem_singleton.1 hother]
    exact hlt place hmem
  · refine List.rel_append ?_ (.cons ⟨a, ?_, hb⟩ .nil)
    · refine hshown.imp ?_
      rintro place x ⟨y, hy, hx⟩
      exact ⟨y, hkept place y hy, hx⟩
    · apply hkept
      rw [← List.getLast?_eq_getElem?]
      exact hlast

/-- **Observations do not go back.** -/
theorem Observed.inOrder {R : σ → σ → Prop} {Shows : σ → β → Prop} {Shows' : α → β → Prop}
    {history : σ → List α} {s s' : σ} {bs : List β}
    (htrans : ∀ s s' s'', R s s' → R s' s'' → R s s'')
    (hgrow : ∀ s s', R s s' → history s <+: history s')
    (hend : ∀ seen b, R s seen → Shows seen b → ∃ a, (history seen).getLast? = some a ∧ Shows' a b)
    (h : Observed R Shows s bs s') : InOrder Shows' (history s') bs := by
  induction h with
  | start hR => exact ⟨[], .nil, .nil⟩
  | look hbefore hshows hR ih =>
      obtain ⟨a, ha, hb⟩ := hend _ _ (hbefore.reaches htrans) hshows
      exact ih.look ha hb (hgrow _ _ hR)

end Observations
