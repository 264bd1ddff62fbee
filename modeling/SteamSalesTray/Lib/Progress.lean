import Mathlib.Data.List.Basic

/-! A thread that takes steps beside its environment.  Where each of its own steps lowers a rank
that no other step raises, it takes at most as many steps as the rank is before it reaches a goal.
-/

namespace SteamSalesTray.Progress

variable {σ α : Type} {step : σ → α → Option σ} {own : α → Bool} {I goal : σ → Prop}
  {rank : σ → Nat} {s s' : σ} {actions : List α}

/-- How many of the steps are those of the thread. -/
def ownSteps (own : α → Bool) (actions : List α) : Nat := actions.countP own

/-- A step comes to the goal, or keeps `I` and does not raise the rank; one of the thread lowers
it.  The goal stays. -/
structure Ranked (step : σ → α → Option σ) (own : α → Bool) (I goal : σ → Prop)
    (rank : σ → Nat) : Prop where
  lowers : ∀ {s s' a}, I s → step s a = some s' → own a = true →
    goal s' ∨ I s' ∧ rank s' < rank s
  keeps : ∀ {s s' a}, I s → step s a = some s' → own a = false →
    goal s' ∨ I s' ∧ rank s' ≤ rank s
  stays : ∀ {s s' a}, goal s → step s a = some s' → goal s'

theorem foldlM_cons_some {a : α} (h : (a :: actions).foldlM step s = some s') :
    ∃ next, step s a = some next ∧ actions.foldlM step next = some s' := by
  rw [List.foldlM_cons] at h
  exact Option.bind_eq_some_iff.mp h

namespace Ranked

theorem goal_run (h : Ranked step own I goal rank) (hs : goal s)
    (hrun : actions.foldlM step s = some s') : goal s' := by
  induction actions generalizing s with
  | nil =>
    obtain rfl := Option.some.inj hrun
    exact hs
  | cons a rest ih =>
    obtain ⟨next, hstep, hrest⟩ := foldlM_cons_some hrun
    exact ih (h.stays hs hstep) hrest

/-- A run that has not come to the goal has at most as many steps of the thread as the rank has
been lowered. -/
theorem run (h : Ranked step own I goal rank) (hs : I s)
    (hrun : actions.foldlM step s = some s') :
    goal s' ∨ I s' ∧ ownSteps own actions + rank s' ≤ rank s := by
  induction actions generalizing s with
  | nil =>
    obtain rfl := Option.some.inj hrun
    exact .inr ⟨hs, by simp [ownSteps]⟩
  | cons a rest ih =>
    obtain ⟨next, hstep, hrest⟩ := foldlM_cons_some hrun
    cases ha : own a with
    | true =>
      obtain hgoal | ⟨hnext, hlower⟩ := h.lowers hs hstep ha
      · exact .inl (h.goal_run hgoal hrest)
      · refine (ih hnext hrest).imp_right fun ⟨hI, hle⟩ => ⟨hI, ?_⟩
        rw [ownSteps, List.countP_cons_of_pos ha]
        unfold ownSteps at hle
        omega
    | false =>
      obtain hgoal | ⟨hnext, hlower⟩ := h.keeps hs hstep ha
      · exact .inl (h.goal_run hgoal hrest)
      · refine (ih hnext hrest).imp_right fun ⟨hI, hle⟩ => ⟨hI, ?_⟩
        rw [ownSteps, List.countP_cons_of_neg (by simp [ha])]
        unfold ownSteps at hle
        omega

end Ranked

end SteamSalesTray.Progress
