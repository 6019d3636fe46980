import Mathlib.Data.List.Basic

/-!
# Histories with one last word

A history settles at its only entry of the kind `last`; from there on nothing
of the kind `late` follows. `Flagged` is the invariant of a program that keeps
this order with one flag.
-/

namespace Async
set_option autoImplicit false

universe u
variable {α : Type u} {last late : α → Prop} {l m : List α} {a : α}

/-- Exactly one entry is `last`, and no entry after it is `late`. -/
def Settled (last late : α → Prop) (l : List α) : Prop :=
  ∃ pre a post, l = pre ++ a :: post ∧ last a ∧ (∀ b ∈ pre, ¬ last b) ∧
    ∀ b ∈ post, ¬ last b ∧ ¬ late b

namespace Settled

theorem single (ha : last a) (hl : ∀ b ∈ l, ¬ last b) : Settled last late (l ++ [a]) :=
  ⟨l, a, [], rfl, ha, hl, fun _ hb => absurd hb List.not_mem_nil⟩

theorem append (hl : Settled last late l) (hm : ∀ b ∈ m, ¬ last b ∧ ¬ late b) :
    Settled last late (l ++ m) := by
  obtain ⟨pre, a, post, rfl, ha, hpre, hpost⟩ := hl
  refine ⟨pre, a, post ++ m, by simp, ha, hpre, ?_⟩
  intro b hb
  rcases List.mem_append.mp hb with hb | hb
  · exact hpost b hb
  · exact hm b hb

theorem congr {last' : α → Prop} (hl : Settled last late l) (h : ∀ b ∈ l, last b ↔ last' b) :
    Settled last' late l := by
  obtain ⟨pre, a, post, rfl, ha, hpre, hpost⟩ := hl
  refine ⟨pre, a, post, rfl, (h a ?_).mp ha, fun b hb hlast => ?_, fun b hb => ⟨fun hlast => ?_, ?_⟩⟩
  · exact List.mem_append_right _ List.mem_cons_self
  · exact hpre b hb ((h b (List.mem_append_left _ hb)).mpr hlast)
  · exact (hpost b hb).1 ((h b (List.mem_append_right _ (List.mem_cons_of_mem _ hb))).mpr hlast)
  · exact (hpost b hb).2

theorem at_last (hl : Settled last late l) {pre post : List α} (heq : l = pre ++ a :: post)
    (ha : last a) : (∀ b ∈ pre, ¬ last b) ∧ ∀ b ∈ post, ¬ last b ∧ ¬ late b := by
  obtain ⟨pre', a', post', rfl, ha', hpre, hpost⟩ := hl
  obtain ⟨mid, rfl, hmid⟩ | ⟨mid, rfl, hmid⟩ := List.append_eq_append_iff.mp heq
  · cases mid with
    | nil =>
      obtain ⟨rfl, rfl⟩ := List.cons.inj hmid
      rw [List.append_nil]
      exact ⟨hpre, hpost⟩
    | cons b mid =>
      obtain ⟨rfl, rfl⟩ := List.cons.inj hmid
      exact absurd ha (hpost a (List.mem_append_right _ List.mem_cons_self)).1
  · cases mid with
    | nil =>
      obtain ⟨rfl, rfl⟩ := List.cons.inj hmid
      exact ⟨fun b hb => hpre b (List.mem_append_left _ hb), hpost⟩
    | cons b mid =>
      obtain ⟨rfl, rfl⟩ := List.cons.inj hmid
      exact absurd ha (hpre a (List.mem_append_right _ List.mem_cons_self))

theorem unique {b : α} (hl : Settled last late l) (ha : a ∈ l) (hb : b ∈ l) (hlast : last a)
    (hlast' : last b) : a = b := by
  obtain ⟨pre, post, rfl⟩ := List.append_of_mem ha
  obtain ⟨hpre, hpost⟩ := hl.at_last rfl hlast
  rcases List.mem_append.mp hb with hb | hb
  · exact absurd hlast' (hpre b hb)
  · rcases List.mem_cons.mp hb with rfl | hb
    · rfl
    · exact absurd hlast' (hpost b hb).1

end Settled

/-- A flag that tells whether the history has settled. -/
structure Flagged (last late : α → Prop) (flag : Bool) (l : List α) : Prop where
  settled : flag = true → Settled last late l
  running : flag = false → ∀ b ∈ l, ¬ last b

namespace Flagged
variable {flag : Bool}

theorem nil : Flagged last late false [] where
  settled := fun h => by cases h
  running := fun _ _ hb => absurd hb List.not_mem_nil

/-- The flag stays; what is `late` comes while it is down. -/
theorem append (hl : Flagged last late flag l)
    (hm : ∀ b ∈ m, ¬ last b ∧ (late b → flag = false)) : Flagged last late flag (l ++ m) where
  settled := fun hflag => (hl.settled hflag).append fun b hb =>
    ⟨(hm b hb).1, fun hlate => by rw [(hm b hb).2 hlate] at hflag; cases hflag⟩
  running := fun hflag b hb => by
    rcases List.mem_append.mp hb with hb | hb
    · exact hl.running hflag b hb
    · exact (hm b hb).1

/-- The flag goes up with the last word. -/
theorem settle (hl : Flagged last late flag l) (hflag : flag = false) (ha : last a)
    (hm : ∀ b ∈ m, ¬ last b ∧ ¬ late b) : Flagged last late true (l ++ a :: m) where
  settled := fun _ => by
    have h := (Settled.single ha (hl.running hflag)).append hm
    rwa [List.append_assoc] at h
  running := fun h => by cases h

theorem unique {b : α} (hl : Flagged last late flag l) (ha : a ∈ l) (hb : b ∈ l)
    (hlast : last a) (hlast' : last b) : a = b := by
  cases flag with
  | true => exact (hl.settled rfl).unique ha hb hlast hlast'
  | false => exact absurd hlast (hl.running rfl a ha)

end Flagged

end Async
