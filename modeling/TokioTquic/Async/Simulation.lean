import TokioTquic.Async.Transition

/-!
# Views of a system that are systems themselves

What is seen of a system takes steps of another one. If every event is seen as the
steps on a list that goes by the event, or as none, then every run is seen as the run
over all these lists.
-/

namespace Async
set_option autoImplicit false

universe u v w x
variable {σ : Type u} {ε : Type v} {τ : Type w} {δ : Type x}

/-- What is seen of the events of a run, of each in the state it happens in. -/
def seen (step : σ → ε → Option σ) (label : σ → ε → List δ) (s : σ) : List ε → List δ
  | [] => []
  | e :: es => label s e ++
    match step s e with
    | some t => seen step label t es
    | none => []

theorem run_simulates {step : σ → ε → Option σ} {guard : σ → ε → Prop} {act : τ → δ → Option τ}
    (I : σ → Prop) (view : σ → τ) (label : σ → ε → List δ)
    (hstep : ∀ s e t, I s → guard s e → step s e = some t →
      I t ∧ run act (view s) (label s e) = some (view t)) (es : List ε) :
    ∀ {s t : σ}, I s → Along step guard s es → run step s es = some t →
      I t ∧ run act (view s) (seen step label s es) = some (view t) := by
  induction es with
  | nil =>
    intro s t hs _ hrun
    obtain rfl : s = t := by simpa [run] using hrun
    exact ⟨hs, rfl⟩
  | cons e es ih =>
    intro s t hs hall hrun
    obtain ⟨hg, hall⟩ := hall
    cases hse : step s e with
    | none => simp [run, hse] at hrun
    | some u =>
      rw [hse] at hall
      obtain ⟨hu, hfirst⟩ := hstep s e u hs hg hse
      obtain ⟨ht, hlater⟩ := ih hu hall (by simpa [run, hse] using hrun)
      refine ⟨ht, ?_⟩
      simp only [seen, hse, run_append, hfirst, Option.bind_some]
      exact hlater

end Async
