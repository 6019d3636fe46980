import Mathlib.Data.List.Induction

/-!
# What the last of several commands wrote

A command may write a value that can be read from the state. After any commands
it is the value of the last one that wrote, or else what was there before.
-/

namespace Async
set_option autoImplicit false

universe u v w
variable {σ : Type u} {ω : Type v} {β : Type w}

def lastWritten (written : ω → Option β) (ops : List ω) : Option β :=
  (ops.filterMap written).getLast?

/-- `put` writes what the command says, in states that have a place for it. -/
structure Writes (put : σ → ω → σ) (read : σ → β) (written : ω → Option β)
    (place : σ → ω → Prop) : Prop where
  read : ∀ s op, place s op → read (put s op) = (written op).getD (read s)
  place : ∀ s op op', place s op' → place (put s op) op'

variable {put : σ → ω → σ} {read : σ → β} {written : ω → Option β} {place : σ → ω → Prop}

theorem Writes.place_run (hw : Writes put read written place) (ops : List ω) {s : σ} {op : ω}
    (h : place s op) : place (ops.foldl put s) op := by
  induction ops generalizing s with
  | nil => exact h
  | cons a ops ih => exact ih (hw.place s a op h)

theorem lastWritten_snoc (ops : List ω) (op : ω) (b : β) :
    (lastWritten written (ops ++ [op])).getD b =
      (written op).getD ((lastWritten written ops).getD b) := by
  unfold lastWritten
  rw [List.filterMap_append]
  cases h : written op <;> simp [h]

theorem Writes.run (hw : Writes put read written place) (s : σ) (ops : List ω)
    (hops : ∀ op ∈ ops, place s op) :
    read (ops.foldl put s) = (lastWritten written ops).getD (read s) := by
  induction ops using List.reverseRecOn with
  | nil => rfl
  | append_singleton ops op ih =>
    have hrest := ih fun a ha => hops a (List.mem_append_left _ ha)
    have hop : place s op := hops op (List.mem_append_right _ List.mem_cons_self)
    rw [List.foldl_append, List.foldl_cons, List.foldl_nil,
      hw.read _ _ (hw.place_run ops hop), hrest, lastWritten_snoc]

end Async
