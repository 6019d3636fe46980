import Mathlib.Logic.Basic

/-!
# A watch channel

One value with a version that counts the values sent. A receiver remembers a
version; `changed` completes as soon as the version is another one, and fails
when it is not and no sender is left. A clone of a receiver remembers what the
original does.
-/

namespace Async
set_option autoImplicit false

universe u
variable {β : Type u}

structure Watch (β : Type u) where
  value : β
  version : Nat
  hasSender : Bool

namespace Watch

def new (value : β) : Watch β := ⟨value, 0, true⟩

def send (w : Watch β) (value : β) : Watch β := { w with value, version := w.version + 1 }

def dropSender (w : Watch β) : Watch β := { w with hasSender := false }

/-- What `changed` comes to for a receiver; `none` is a receiver that waits. -/
def changed (w : Watch β) (seen : Nat) : Option (Except Unit Nat) :=
  if w.version ≠ seen then some (.ok w.version)
  else if w.hasSender then none
  else some (.error ())

theorem changed_eq_none {w : Watch β} {seen : Nat} :
    w.changed seen = none ↔ w.version = seen ∧ w.hasSender = true := by
  unfold changed
  by_cases hversion : w.version = seen <;> simp [hversion]

/-- The channel has its first value until one is sent. -/
def Begins (w : Watch β) (first : β) : Prop := w.version = 0 → w.value = first

theorem begins_new (first : β) : (new first).Begins first := fun _ => rfl

theorem begins_send (w : Watch β) (value first : β) : (w.send value).Begins first := by
  intro hversion
  simp [send] at hversion

theorem Begins.dropSender {w : Watch β} {first : β} (h : w.Begins first) :
    w.dropSender.Begins first := h

/-- A receiver that has seen the first value only waits while it is there. -/
theorem Begins.waits {w : Watch β} {first : β} (h : w.Begins first) (hwaits : w.changed 0 = none) :
    w.value = first ∧ w.hasSender = true := by
  obtain ⟨hversion, hsender⟩ := changed_eq_none.mp hwaits
  exact ⟨h hversion, hsender⟩

end Watch

end Async
