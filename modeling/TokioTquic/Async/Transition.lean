import Mathlib.Logic.Function.Basic

/-!
# Transition systems with guarded runs

A system is a partial step function: `step s e = none` says that the event `e`
cannot happen in `s`. A run may in addition be restricted by a guard on the
events and the states they happen in; the guard `Any` restricts nothing.
Invariants of guarded runs are proved one event at a time.
-/

namespace Async
set_option autoImplicit false

universe u v
variable {σ : Type u} {ε : Type v}

/-- `t` is reached from `s`, every event meeting `guard` in the state it happens in. -/
inductive Reach (step : σ → ε → Option σ) (guard : σ → ε → Prop) : σ → σ → Prop where
  | refl (s : σ) : Reach step guard s s
  | tail {s t u : σ} {e : ε} :
      Reach step guard s t → guard t e → step t e = some u → Reach step guard s u

def Any (_ : σ) (_ : ε) : Prop := True

namespace Reach
variable {step : σ → ε → Option σ} {guard : σ → ε → Prop} {s t u : σ}

theorem trans (hst : Reach step guard s t) (htu : Reach step guard t u) :
    Reach step guard s u := by
  induction htu with
  | refl => exact hst
  | tail _ hg hs ih => exact .tail ih hg hs

theorem event (hst : Reach step guard s t) (e : ε) (hg : guard t e) (hs : step t e = some u) :
    Reach step guard s u := .tail hst hg hs

theorem single {e : ε} (hg : guard s e) (hs : step s e = some t) : Reach step guard s t :=
  .tail (.refl s) hg hs

/-- What every guarded event preserves holds along every guarded run. -/
theorem invariant {I : σ → Prop}
    (hstep : ∀ s e t, I s → guard s e → step s e = some t → I t)
    (hst : Reach step guard s t) (hs : I s) : I t := by
  induction hst with
  | refl => exact hs
  | tail _ hg hse ih => exact hstep _ _ _ ih hg hse

theorem imp {guard' : σ → ε → Prop} (hst : Reach step guard s t)
    (hguard : ∀ s e, guard s e → guard' s e) : Reach step guard' s t := by
  induction hst with
  | refl => exact .refl _
  | tail _ hg hse ih => exact ih.tail (hguard _ _ hg) hse

theorem any (hst : Reach step guard s t) : Reach step Any s t := hst.imp fun _ _ _ => trivial

end Reach

/-! ## Lists of events -/

/-- Replay a list of events; `none` when one of them cannot happen. -/
def run (step : σ → ε → Option σ) (s : σ) : List ε → Option σ
  | [] => some s
  | e :: es => (step s e).bind fun t => run step t es

theorem run_append {step : σ → ε → Option σ} (es es' : List ε) :
    ∀ s : σ, run step s (es ++ es') = (run step s es).bind fun t => run step t es' := by
  induction es with
  | nil => exact fun _ => rfl
  | cons e es ih =>
    intro s
    simp only [List.cons_append, run]
    cases step s e with
    | none => rfl
    | some t => exact ih t

/-- Every event of a list meets the guard in the state it happens in. -/
def Along (step : σ → ε → Option σ) (guard : σ → ε → Prop) (s : σ) : List ε → Prop
  | [] => True
  | e :: es => guard s e ∧
    match step s e with
    | some t => Along step guard t es
    | none => True

section
variable {step : σ → ε → Option σ} {guard : σ → ε → Prop}

theorem reach_of_along {es : List ε} :
    ∀ {s t : σ}, run step s es = some t → Along step guard s es → Reach step guard s t := by
  induction es with
  | nil =>
    intro s t h _
    obtain rfl : s = t := by simpa [run] using h
    exact .refl s
  | cons e es ih =>
    intro s t h hall
    obtain ⟨hg, hrest⟩ := hall
    cases hs : step s e with
    | none => simp [run, hs] at h
    | some s' =>
      rw [hs] at hrest
      apply (Reach.single hg hs).trans
      exact ih (by simpa [run, hs] using h) hrest

theorem along_of_forall {es : List ε} (hes : ∀ e ∈ es, ∀ s, guard s e) :
    ∀ s : σ, Along step guard s es := by
  induction es with
  | nil => exact fun _ => trivial
  | cons e es ih =>
    intro s
    refine ⟨hes e List.mem_cons_self s, ?_⟩
    split
    · exact ih (fun e he => hes e (List.mem_cons_of_mem _ he)) _
    · trivial

theorem reach_of_run {es : List ε} (hes : ∀ e ∈ es, ∀ s, guard s e) {s t : σ}
    (h : run step s es = some t) : Reach step guard s t :=
  reach_of_along h (along_of_forall hes s)

theorem reach_any_of_run {es : List ε} {s t : σ} (h : run step s es = some t) :
    Reach step Any s t :=
  reach_of_run (fun _ _ _ => trivial) h

end

end Async
