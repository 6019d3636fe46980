import Mathlib.Logic.Function.Basic

/-!
# References to reused slots

A table gives each slot to at most one owner, and a slot is assigned again when
its owner is gone. A reference names a slot and means an owner; it is valid as
long as the slot still belongs to that owner.
-/

namespace Async
set_option autoImplicit false

universe u v
variable {ι : Type u} {α : Type v}

def ValidRefs (owner : ι → Option α) (refs : α → ι → Prop) : Prop :=
  ∀ a i, refs a i → owner i = some a

def OneSlot (owner : ι → Option α) : Prop :=
  ∀ i j a, owner i = some a → owner j = some a → i = j

variable {owner : ι → Option α} {refs refs' : α → ι → Prop}

theorem ValidRefs.mono (h : ValidRefs owner refs) (hrefs : ∀ a i, refs' a i → refs a i) :
    ValidRefs owner refs' := by
  intro a i hr
  exact h a i (hrefs a i hr)

variable [DecidableEq ι]

/-- A slot nobody refers to may be given to a new owner. -/
theorem ValidRefs.assign (h : ValidRefs owner refs) {i : ι} {b : α} (hfree : ∀ a, ¬ refs a i)
    (hrefs : ∀ a j, refs' a j → refs a j ∨ (a = b ∧ j = i)) :
    ValidRefs (Function.update owner i (some b)) refs' := by
  intro a j hr
  by_cases hj : j = i
  · subst hj
    rcases hrefs a j hr with hold | ⟨rfl, _⟩
    · exact absurd hold (hfree a)
    · exact Function.update_self ..
  · rw [Function.update_of_ne hj]
    rcases hrefs a j hr with hold | ⟨_, heq⟩
    · exact h a j hold
    · exact absurd heq hj

theorem OneSlot.assign (h : OneSlot owner) (i : ι) {b : α} (hnew : ∀ j, owner j ≠ some b) :
    OneSlot (Function.update owner i (some b)) := by
  have hback : ∀ j a, Function.update owner i (some b) j = some a →
      (j = i ∧ a = b) ∨ owner j = some a := by
    intro j a hj
    by_cases hji : j = i
    · subst hji
      rw [Function.update_self] at hj
      exact Or.inl ⟨rfl, (Option.some.inj hj).symm⟩
    · rw [Function.update_of_ne hji] at hj
      exact Or.inr hj
  intro j k a hj hk
  rcases hback j a hj with ⟨rfl, rfl⟩ | hj' <;> rcases hback k a hk with ⟨rfl, heq⟩ | hk'
  · rfl
  · exact absurd hk' (hnew k)
  · exact absurd (heq ▸ hj') (hnew j)
  · exact h j k a hj' hk'

/-! ## The keys of a table -/

/-- `keys` lists the slots in use, each once. -/
structure Keys (table : ι → Option α) (keys : List ι) : Prop where
  nodup : keys.Nodup
  mem : ∀ i, i ∈ keys ↔ (table i).isSome

omit [DecidableEq ι] in
theorem keys_empty : Keys (fun _ : ι => (none : Option α)) [] :=
  ⟨List.nodup_nil, by simp⟩

theorem Keys.insert {table : ι → Option α} {keys : List ι} (h : Keys table keys) {i : ι}
    (hfree : table i = none) (a : α) : Keys (Function.update table i (some a)) (i :: keys) := by
  constructor
  · apply List.nodup_cons.mpr
    refine ⟨fun hmem => ?_, h.nodup⟩
    have hused := (h.mem i).mp hmem
    simp [hfree] at hused
  · intro j
    by_cases hj : j = i
    · subst hj
      simp
    · simp [hj, h.mem j]

theorem Keys.replace {table : ι → Option α} {keys : List ι} (h : Keys table keys) {i : ι}
    (hused : (table i).isSome) (a : α) : Keys (Function.update table i (some a)) keys := by
  refine ⟨h.nodup, fun j => ?_⟩
  by_cases hj : j = i
  · subst hj
    simp [h.mem j, hused]
  · simp [hj, h.mem j]

theorem Keys.erase {table : ι → Option α} {keys : List ι} (h : Keys table keys) (i : ι) :
    Keys (Function.update table i none) (keys.erase i) := by
  refine ⟨h.nodup.erase i, fun j => ?_⟩
  rw [h.nodup.mem_erase_iff]
  by_cases hj : j = i
  · subst hj
    simp
  · simp [hj, h.mem j]

end Async
