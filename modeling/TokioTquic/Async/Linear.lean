import Mathlib.Data.List.Basic
import TokioTquic.Async.Transition

/-!
# Objects served from a queue

Any number of clients send operations to one server. It applies them to its object one
after the other and answers each; in between the object may change by itself. Clients
see an object to which every answered operation was applied at one moment between its
call and its return.
-/

namespace Async
set_option autoImplicit false

universe u v w
variable {σ : Type u} {ο : Type v} {ρ : Type w}

/-- What the clients do, in order; calls are numbered as they come. -/
inductive Mark (ο : Type v) (ρ : Type w) where
  | called (i : Nat) (op : ο)
  | returned (i : Nat) (r : ρ)

/-- Operations applied from `s` on, with their answers, and where this leads. `drift` is
what the object does by itself. -/
inductive Explains (apply : σ → ο → σ × ρ) (drift : σ → σ → Prop) (s : σ) :
    List (ο × ρ) → σ → Prop where
  | nil : Explains apply drift s [] s
  | op {l : List (ο × ρ)} {t : σ} (op : ο) : Explains apply drift s l t →
      Explains apply drift s (l ++ [(op, (apply t op).2)]) (apply t op).1
  | drift {l : List (ο × ρ)} {t u : σ} :
      Explains apply drift s l t → drift t u → Explains apply drift s l u

/-- Call `i` returned before call `j` was made. -/
def Earlier (h : List (Mark ο ρ)) (i j : Nat) : Prop :=
  ∃ pre post, h = pre ++ post ∧ (∃ r, .returned i r ∈ pre) ∧ ∃ op, .called j op ∈ post

/-- Only the last event of a history can be new to `Earlier`, and it is a call then. -/
theorem Earlier.of_snoc {h : List (Mark ο ρ)} {m : Mark ο ρ} {i j : Nat}
    (hij : Earlier (h ++ [m]) i j) :
    Earlier h i j ∨ ((∃ op, m = .called j op) ∧ ∃ r, .returned i r ∈ h) := by
  obtain ⟨pre, post, heq, ⟨r, hr⟩, op, hop⟩ := hij
  rcases List.eq_nil_or_concat post with rfl | ⟨post, m', rfl⟩
  · cases hop
  · rw [List.concat_eq_append, ← List.append_assoc] at heq
    obtain ⟨rfl, hm⟩ := List.append_inj' heq rfl
    obtain rfl : m = m' := List.singleton_inj.mp hm
    rcases List.mem_append.mp (List.concat_eq_append ▸ hop) with hop | hop
    · exact Or.inl ⟨pre, post, rfl, ⟨r, hr⟩, op, hop⟩
    · exact Or.inr ⟨⟨op, (List.mem_singleton.mp hop).symm⟩, r, List.mem_append_left _ hr⟩

/-- `l` puts the operations of the history into an order: call `i` is at position `i` with
its answer. -/
structure Linearizes (apply : σ → ο → σ × ρ) (drift : σ → σ → Prop) (s : σ)
    (h : List (Mark ο ρ)) (l : List (ο × ρ)) (t : σ) : Prop where
  explains : Explains apply drift s l t
  called : ∀ i op r, l[i]? = some (op, r) → ∀ op', .called i op' ∈ h ↔ op' = op
  returned : ∀ i r, .returned i r ∈ h → ∃ op, l[i]? = some (op, r)
  order : ∀ i j, Earlier h i j → i < j

/-! ## The server -/

/-- `queue` are the calls not served yet, `mail` the answers not taken yet. -/
structure Server (σ : Type u) (ο : Type v) (ρ : Type w) where
  object : σ
  queue : List ο
  served : Nat
  mail : Nat → Option ρ
  history : List (Mark ο ρ)

inductive ServerEvent (σ : Type u) (ο : Type v) where
  | call (op : ο)
  | serve
  | take (i : Nat)
  | drift (t : σ)

namespace Server

def init (object : σ) : Server σ ο ρ := ⟨object, [], 0, fun _ => none, []⟩

def next (s : Server σ ο ρ) : Nat := s.served + s.queue.length

def step (apply : σ → ο → σ × ρ) (s : Server σ ο ρ) : ServerEvent σ ο → Option (Server σ ο ρ)
  | .call op =>
    some { s with queue := s.queue ++ [op], history := s.history ++ [.called s.next op] }
  | .serve =>
    match s.queue with
    | [] => none
    | op :: queue =>
      some { s with
        object := (apply s.object op).1
        queue := queue
        served := s.served + 1
        mail := Function.update s.mail s.served (some (apply s.object op).2) }
  | .take i =>
    match s.mail i with
    | none => none
    | some r =>
      some { s with
        mail := Function.update s.mail i none
        history := s.history ++ [.returned i r] }
  | .drift t => some { s with object := t }

/-- The object changes by itself only as `drift` allows. -/
def Drifts (drift : σ → σ → Prop) (s : Server σ ο ρ) : ServerEvent σ ο → Prop
  | .drift t => drift s.object t
  | _ => True

variable {apply : σ → ο → σ × ρ} {drift : σ → σ → Prop} {s₀ : σ}

/-- `l` are the operations served so far. -/
structure Serves (apply : σ → ο → σ × ρ) (drift : σ → σ → Prop) (s₀ : σ) (s : Server σ ο ρ)
    (l : List (ο × ρ)) : Prop where
  explains : Explains apply drift s₀ l s.object
  served : l.length = s.served
  called : ∀ i op, .called i op ∈ s.history ↔ (l.map Prod.fst ++ s.queue)[i]? = some op
  mailed : ∀ i r, s.mail i = some r → ∃ op, l[i]? = some (op, r)
  returned : ∀ i r, .returned i r ∈ s.history → ∃ op, l[i]? = some (op, r)
  order : ∀ i j, Earlier s.history i j → i < j

theorem getElem?_lt {α : Type w} {l : List α} {i : Nat} {a : α} (h : l[i]? = some a) :
    i < l.length := (List.getElem?_eq_some_iff.mp h).1

theorem getElem?_snoc {α : Type w} (l : List α) (a b : α) (i : Nat) :
    (l ++ [a])[i]? = some b ↔ l[i]? = some b ∨ i = l.length ∧ b = a := by
  by_cases hlt : i < l.length
  · rw [List.getElem?_append_left hlt]
    exact ⟨Or.inl, fun h => h.resolve_right fun h => by omega⟩
  · rw [List.getElem?_append_right (by omega)]
    have hnone : l[i]? = none := List.getElem?_eq_none (by omega)
    rw [hnone]
    constructor
    · intro h
      have hi := getElem?_lt h
      simp only [List.length_singleton] at hi
      have hzero : i - l.length = 0 := by omega
      rw [hzero] at h
      exact Or.inr ⟨by omega, (Option.some.inj h).symm⟩
    · rintro (h | ⟨rfl, rfl⟩)
      · cases h
      · simp

theorem Serves.linearizes {s : Server σ ο ρ} {l : List (ο × ρ)} (hs : Serves apply drift s₀ s l) :
    Linearizes apply drift s₀ s.history l s.object where
  explains := hs.explains
  called := by
    intro i op r h op'
    have hi := getElem?_lt h
    rw [hs.called, List.getElem?_append_left (by simpa using hi), List.getElem?_map, h]
    constructor
    · exact fun h => (Option.some.inj h).symm
    · rintro rfl
      rfl
  returned := hs.returned
  order := hs.order

theorem serves_init (object : σ) :
    Serves apply drift object (init object : Server σ ο ρ) [] where
  explains := .nil
  served := rfl
  called := by simp [init]
  mailed := by simp [init]
  returned := by simp [init]
  order := by
    rintro i j ⟨pre, post, heq, ⟨r, hr⟩, _⟩
    obtain ⟨rfl, rfl⟩ := List.append_eq_nil_iff.mp heq.symm
    cases hr

theorem serves_call {s : Server σ ο ρ} {l : List (ο × ρ)} (hs : Serves apply drift s₀ s l)
    (op : ο) : Serves apply drift s₀
      { s with queue := s.queue ++ [op], history := s.history ++ [.called s.next op] } l where
  explains := hs.explains
  served := hs.served
  called := by
    intro i op'
    simp only
    rw [← List.append_assoc, getElem?_snoc, ← hs.called, List.mem_append, List.mem_singleton,
      Mark.called.injEq, List.length_append, List.length_map, hs.served]
    rfl
  mailed := hs.mailed
  returned := by
    intro i r h
    rcases List.mem_append.mp h with h | h
    · exact hs.returned i r h
    · cases List.mem_singleton.mp h
  order := by
    intro i j h
    rcases h.of_snoc with h | ⟨⟨op', hop⟩, r, hr⟩
    · exact hs.order i j h
    · -- whoever returned was served, and the new call was not
      obtain ⟨op'', hi⟩ := hs.returned i r hr
      have hlt := getElem?_lt hi
      have hserved := hs.served
      injection hop with hj
      unfold next at hj
      omega

theorem serves_serve {s : Server σ ο ρ} {l : List (ο × ρ)} {op : ο} {queue : List ο}
    (hs : Serves apply drift s₀ s l) (hqueue : s.queue = op :: queue) :
    Serves apply drift s₀
      { s with
        object := (apply s.object op).1
        queue := queue
        served := s.served + 1
        mail := Function.update s.mail s.served (some (apply s.object op).2) }
      (l ++ [(op, (apply s.object op).2)]) where
  explains := .op op hs.explains
  served := by simp [hs.served]
  called := by
    intro i op'
    simp only
    rw [hs.called, hqueue, List.map_append, List.append_assoc]
    rfl
  mailed := by
    intro i r h
    simp only at h
    by_cases hi : i = s.served
    · subst hi
      rw [Function.update_self] at h
      obtain rfl := Option.some.inj h
      exact ⟨op, (getElem?_snoc _ _ _ _).mpr (Or.inr ⟨hs.served.symm, rfl⟩)⟩
    · rw [Function.update_of_ne hi] at h
      obtain ⟨op', h'⟩ := hs.mailed i r h
      exact ⟨op', (getElem?_snoc _ _ _ _).mpr (Or.inl h')⟩
  returned := by
    intro i r h
    obtain ⟨op', h'⟩ := hs.returned i r h
    exact ⟨op', (getElem?_snoc _ _ _ _).mpr (Or.inl h')⟩
  order := hs.order

theorem serves_take {s : Server σ ο ρ} {l : List (ο × ρ)} {i : Nat} {r : ρ}
    (hs : Serves apply drift s₀ s l) (hmail : s.mail i = some r) : Serves apply drift s₀
      { s with
        mail := Function.update s.mail i none
        history := s.history ++ [.returned i r] } l where
  explains := hs.explains
  served := hs.served
  called := by
    intro j op
    simp only
    rw [← hs.called, List.mem_append, List.mem_singleton]
    exact ⟨fun h => h.resolve_right nofun, Or.inl⟩
  mailed := by
    intro j r' h
    simp only at h
    by_cases hj : j = i
    · subst hj
      simp at h
    · rw [Function.update_of_ne hj] at h
      exact hs.mailed j r' h
  returned := by
    intro j r' h
    rcases List.mem_append.mp h with h | h
    · exact hs.returned j r' h
    · cases List.mem_singleton.mp h
      exact hs.mailed _ _ hmail
  order := by
    intro j k h
    rcases h.of_snoc with h | ⟨⟨op, hop⟩, _⟩
    · exact hs.order j k h
    · cases hop

theorem serves_step {s s' : Server σ ο ρ} {e : ServerEvent σ ο} {l : List (ο × ρ)}
    (hs : Serves apply drift s₀ s l) (hdrifts : s.Drifts drift e)
    (hstep : s.step apply e = some s') : ∃ l', Serves apply drift s₀ s' l' := by
  cases e with
  | call op =>
    cases hstep
    exact ⟨l, serves_call hs op⟩
  | serve =>
    simp only [step] at hstep
    split at hstep
    · cases hstep
    · rename_i op queue hqueue
      cases hstep
      exact ⟨_, serves_serve hs hqueue⟩
  | take i =>
    simp only [step] at hstep
    split at hstep
    · cases hstep
    · rename_i r hmail
      cases hstep
      exact ⟨l, serves_take hs hmail⟩
  | drift t =>
    cases hstep
    exact ⟨l, .drift hs.explains hdrifts, hs.served, hs.called, hs.mailed, hs.returned, hs.order⟩

theorem serves_reach {object : σ} {s : Server σ ο ρ}
    (hs : Reach (step apply) (Drifts drift) (init object) s) :
    ∃ l, Serves apply drift object s l :=
  hs.invariant (I := fun s => ∃ l, Serves apply drift object s l)
    (fun _ _ _ hI hguard hstep => serves_step hI.choose_spec hguard hstep)
    ⟨[], serves_init object⟩

theorem linearizable {object : σ} {s : Server σ ο ρ}
    (hs : Reach (step apply) (Drifts drift) (init object) s) :
    ∃ l, l.length = s.served ∧ Linearizes apply drift object s.history l s.object := by
  obtain ⟨l, hl⟩ := serves_reach hs
  exact ⟨l, hl.served, hl.linearizes⟩

end Server

end Async
