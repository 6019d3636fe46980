import TokioTquic.Async.Transition

/-!
# Events that use up work

Some events of a system only continue what was begun: each takes from a measure of
the work that is left. Runs of such events alone are short, and they end in a state
in which none of them is possible.
-/

namespace Async
set_option autoImplicit false

universe u v
variable {σ : Type u} {ε : Type v}

/-- Every event in `own` takes from `work`. -/
def Works (step : σ → ε → Option σ) (own : ε → Prop) (work : σ → Nat) : Prop :=
  ∀ s e t, own e → step s e = some t → work t < work s

/-- None of the events in `own` is possible. -/
def Quiet (step : σ → ε → Option σ) (own : ε → Prop) (s : σ) : Prop :=
  ∀ e, own e → step s e = none

namespace Works
variable {step : σ → ε → Option σ} {own : ε → Prop} {work : σ → Nat}

theorem length_le (hw : Works step own work) {es : List ε} (hes : ∀ e ∈ es, own e) :
    ∀ {s t : σ}, run step s es = some t → es.length + work t ≤ work s := by
  induction es with
  | nil =>
    intro s t h
    obtain rfl : s = t := by simpa [run] using h
    simp
  | cons e es ih =>
    intro s t h
    cases hs : step s e with
    | none => simp [run, hs] at h
    | some s' =>
      have hrest : run step s' es = some t := by simpa [run, hs] using h
      have hfirst := hw s e s' (hes e List.mem_cons_self) hs
      have hlater := ih (fun e he => hes e (List.mem_cons_of_mem _ he)) hrest
      simp only [List.length_cons]
      omega

/-- Such events lead to a quiet state. -/
theorem reach_quiet (hw : Works step own work) :
    ∀ s : σ, ∃ t, Reach step (fun _ => own) s t ∧ Quiet step own t := by
  intro s
  induction hn : work s using Nat.strongRecOn generalizing s with
  | ind n ih =>
    by_cases hq : Quiet step own s
    · exact ⟨s, .refl s, hq⟩
    · obtain ⟨e, he, hne⟩ : ∃ e, own e ∧ step s e ≠ none := by simpa [Quiet] using hq
      obtain ⟨s', hs'⟩ := Option.ne_none_iff_exists'.mp hne
      have hless := hw s e s' he hs'
      obtain ⟨t, ht, hquiet⟩ := ih (work s') (by omega) s' rfl
      exact ⟨t, (Reach.single he hs').trans ht, hquiet⟩

end Works

end Async
