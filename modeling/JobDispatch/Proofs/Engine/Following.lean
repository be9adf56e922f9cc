import JobDispatch.Proofs.Engine.Restart
import JobDispatch.Proofs.Policy.Order

/-!
# Following the wanted policy

A tick reads which policy is wanted, once, before it does anything else.  A name that has a factory and
is not the active one is adopted: a fresh policy takes over what is queued.  Every other answer leaves
the running policy with all that it holds; a name that stands for nothing is remembered.  The rest of the
tick moves tickets into the policy and out of it, and changes nothing else.  All this holds for any
policies; of the built-in ones it is said in which order they hold the tickets.

## Main definitions

* `SchedulingPolicy.Descends` — what a policy can become when tickets are added and taken.
* `Engine.Continues` — an engine that differs from another at most in the tickets that it holds.
* `Engine.inForce` — the kind of policy that runs after the wanted one has been read.
* `Services.wanted` — the name that a tick gets to read.

## Main results

* `Engine.follow_of_find?`, `Engine.follow_active`, `Engine.follow_of_find?_eq_none` — what becomes of a
  new name, of the active one and of one that stands for nothing.
* `Engine.order_follow` — the order in which the queued tickets stand afterwards.
* `Engine.tick_eq_finish` — a tick is that reading and the rest.
* `Engine.tick_continues` — the rest of a tick changes nothing but the tickets.
-/

namespace JobDispatch

/-! ### What becomes of a policy -/

/-- What a policy can become when tickets are added and taken. -/
inductive SchedulingPolicy.Descends {π : Type} [SchedulingPolicy π] (p : π) : π → Prop
  | refl : Descends p p
  | enqueue {q : π} (h : Descends p q) (t : Ticket) : Descends p (SchedulingPolicy.enqueue q t)
  | dequeue {q q' : π} {t : Ticket} (h : Descends p q) (ht : SchedulingPolicy.dequeue? q = some (t, q')) :
    Descends p q'

namespace SchedulingPolicy.Descends

variable {π : Type} [SchedulingPolicy π] {p q r : π}

theorem trans (h : Descends p q) (h' : Descends q r) : Descends p r := by
  induction h' with
  | refl => exact h
  | enqueue _ t ih => exact ih.enqueue t
  | dequeue _ ht ih => exact ih.dequeue ht

theorem enqueueAll (h : Descends p q) (ts : List Ticket) :
    Descends p (SchedulingPolicy.enqueueAll q ts) := by
  induction ts generalizing q with
  | nil => exact h
  | cons t ts ih => exact ih (h.enqueue t)

end SchedulingPolicy.Descends

/-- A built-in policy stays of its kind. -/
theorem Policy.kind_of_descends {p q : Policy} (h : SchedulingPolicy.Descends p q) : q.kind = p.kind := by
  induction h with
  | refl => rfl
  | enqueue _ t ih => exact (kind_enqueue _ t).trans ih
  | dequeue _ ht ih => exact (kind_of_dequeue? ht).trans ih

/-! ### What is wanted -/

namespace Engine

section AnyPolicy

variable {φ π μ : Type} [PolicyFactory φ π μ] [SchedulingPolicy π] {e : Engine φ π μ} {name : String}

theorem follow_active (e : Engine φ π μ) : (e.follow (some e.active)).1 = { e with rejected := none } := by
  simp only [follow, if_true]

/-- A name that has a factory and is not the active one is adopted. -/
theorem follow_of_find? {f : φ} (hname : name ≠ e.active) (h : e.registry.find? name = some f) :
    (e.follow (some name)).1
      = { e with
          registry := e.registry.called name
          policy := (SchedulingPolicy.drainInto e.policy (PolicyFactory.call f e.registry.memory).1).target
          active := name
          rejected := none } := by
  simp only [follow, if_neg hname, PolicyRegistry.create_of_find? h]

/-- A name that stands for nothing is remembered. -/
theorem follow_of_find?_eq_none (hname : name ≠ e.active) (h : e.registry.find? name = none) :
    (e.follow (some name)).1 = { e with rejected := some name } := by
  simp only [follow, if_neg hname, PolicyRegistry.create_of_find?_eq_none h]
  split
  · next hr => rw [← hr]
  · rfl

end AnyPolicy

variable {e : Engine} {name : String} {k : PolicyKind}

/-- The kind of policy that runs after the wanted one has been read. -/
def inForce (e : Engine) (desired : Option String) : PolicyKind :=
  match desired with
  | none => e.policy.kind
  | some name =>
    if name = e.active then e.policy.kind else (e.registry.find? name).getD e.policy.kind

/-- The tickets go into an empty policy of the kind that a built-in name stands for. -/
theorem follow_builtin (hname : name ≠ e.active) (h : e.registry.find? name = some k) :
    (e.follow (some name)).1
      = { e with
          policy := (e.policy.drainInto (.ofKind k)).target
          active := name
          rejected := none } := by
  simp only [follow, if_neg hname, PolicyRegistry.create_builtin h]
  rfl

/-- **All that reading the wanted policy can do to an engine** with the built-in policies. -/
theorem follow_cases (e : Engine) (desired : Option String) :
    (e.inForce desired = e.policy.kind ∧
        ∃ rejected, (e.follow desired).1 = { e with rejected := rejected }) ∨
      ∃ name rejected, (e.follow desired).1
        = { e with
            policy := (e.policy.drainInto (.ofKind (e.inForce desired))).target
            active := name
            rejected := rejected } := by
  cases desired with
  | none => exact .inl ⟨rfl, e.rejected, rfl⟩
  | some name =>
    by_cases hname : name = e.active
    · subst hname
      exact .inl ⟨if_pos rfl, none, follow_active e⟩
    · have hforce : e.inForce (some name) = (e.registry.find? name).getD e.policy.kind :=
        if_neg hname
      cases h : e.registry.find? name with
      | none =>
        rw [h] at hforce
        exact .inl ⟨hforce, some name, follow_of_find?_eq_none hname h⟩
      | some k =>
        rw [h] at hforce
        refine .inr ⟨name, none, ?_⟩
        rw [hforce]
        exact follow_builtin hname h

@[simp] theorem kind_follow (e : Engine) (desired : Option String) :
    (e.follow desired).1.policy.kind = e.inForce desired := by
  rcases follow_cases e desired with ⟨hforce, r, h⟩ | ⟨name, r, h⟩
  · rw [h, hforce]
  · rw [h]
    exact (Policy.kind_drainInto _ _).trans (Policy.kind_ofKind _)

theorem reachable_follow (he : e.policy.Reachable) (desired : Option String) :
    (e.follow desired).1.policy.Reachable := by
  rcases follow_cases e desired with ⟨-, r, h⟩ | ⟨name, r, h⟩
  · rw [h]
    exact he
  · rw [h]
    exact (Policy.Reachable.fresh _).drainInto

/-- **The order after the wanted policy has been read**: what is queued, sorted by the policy in force. -/
theorem order_follow (he : e.policy.Reachable) (desired : Option String) :
    (e.follow desired).1.policy.order = e.policy.order.mergeSort (e.inForce desired).le := by
  rcases follow_cases e desired with ⟨hforce, r, h⟩ | ⟨name, r, h⟩
  · rw [h, hforce]
    exact he.mergeSort_order.symm
  · rw [h]
    exact Policy.order_drainInto _ _

/-! ### The rest of a tick -/

section AnyPolicy

variable {φ π μ : Type} [SchedulingPolicy π]

/-- An engine that differs from another at most in the tickets that its policy holds. -/
structure Continues (e' e : Engine φ π μ) : Prop where
  registry : e'.registry = e.registry
  config : e'.config = e.config
  active : e'.active = e.active
  rejected : e'.rejected = e.rejected
  policy : SchedulingPolicy.Descends e.policy e'.policy

namespace Continues

theorem refl (e : Engine φ π μ) : e.Continues e := ⟨rfl, rfl, rfl, rfl, .refl⟩

theorem trans {e₁ e₂ e₃ : Engine φ π μ} (h : e₁.Continues e₂) (h' : e₂.Continues e₃) :
    e₁.Continues e₃ where
  registry := h.registry.trans h'.registry
  config := h.config.trans h'.config
  active := h.active.trans h'.active
  rejected := h.rejected.trans h'.rejected
  policy := h'.policy.trans h.policy

end Continues

variable {σ : Type} [PolicyFactory φ π μ]

/-- A step that does not read the wanted policy changes nothing but the tickets, and the tick does not
come to that reading again. -/
theorem step_continues (v : Services σ) (e : Engine φ π μ) {p : TickPhase} (hp : p ≠ .reconciling) (s : σ) :
    (step v e p s).1.1.Continues e ∧ (step v e p s).1.2 ≠ .reconciling := by
  cases p with
  | reconciling => exact absurd rfl hp
  | ingesting =>
    simp only [step]
    split
    · exact ⟨.refl e, by simp⟩
    · exact ⟨⟨rfl, rfl, rfl, rfl, .enqueueAll .refl _⟩, by simp⟩
  | dispatching ingested dispatched =>
    cases hd : SchedulingPolicy.dequeue? e.policy with
    | none =>
      rw [step_dispatching_of_dequeue?_eq_none hd]
      exact ⟨.refl e, by simp⟩
    | some next =>
      rw [step_dispatching_of_dequeue? hd]
      split
      · exact ⟨.refl e, by simp⟩
      · exact ⟨⟨rfl, rfl, rfl, rfl, .dequeue .refl hd⟩, by simp⟩
  | finished result => exact ⟨.refl e, hp⟩

/-- **Once the wanted policy has been read, a tick changes nothing but the tickets.** -/
theorem finish_continues (v : Services σ) (e : Engine φ π μ) (p : TickPhase) (hp : p ≠ .reconciling)
    (s : σ) : (finish v e p s).2.1.Continues e := by
  fun_induction finish v e p s with
  | case1 e p s result h => exact .refl e
  | case2 e p s h next ih =>
    obtain ⟨hfirst, hphase⟩ := step_continues v e hp s
    exact (ih hphase).trans hfirst

end AnyPolicy

end Engine

variable {φ π μ σ : Type} [PolicyFactory φ π μ] [SchedulingPolicy π]

namespace Services

/-- The name that a tick gets to read; there is none if nothing is wanted or the broker fails. -/
def wanted (v : Services σ) (s : σ) : Option String :=
  match (v.broker .desiredPolicy s).1 with
  | .ok desired => desired
  | .error _ => none

/-- Gives notice of something, if there is anything to say. -/
def tell (v : Services σ) (notice : Option Notice) (s : σ) : σ := notice.elim s fun n => v.note n s

/-- The state after a tick has read which policy is wanted. -/
def afterReading (v : Services σ) (e : Engine φ π μ) (s : σ) : σ :=
  v.tell (e.follow (v.wanted s)).2 (v.broker .desiredPolicy s).2

end Services

namespace Engine

/-- **A tick is the reading of the wanted policy and the rest**; it ends if the broker fails. -/
theorem tick_eq_finish (v : Services σ) (e : Engine φ π μ) (s : σ) : e.tick v s =
    match (v.broker .desiredPolicy s).1 with
    | .error problem => (.error (.broker problem), e, (v.broker .desiredPolicy s).2)
    | .ok desired => (e.follow desired).1.finish v .ingesting
        (v.tell (e.follow desired).2 (v.broker .desiredPolicy s).2) := by
  rw [tick, finish_eq_step _ _ rfl]
  simp only [step]
  rcases v.broker .desiredPolicy s with ⟨problem | desired, s'⟩
  · exact finish_finished _ _ _ _
  · simp only
    rcases e.follow desired with ⟨e', _ | notice⟩ <;> rfl

/-- A tick that reads a name goes on with the engine that has followed it. -/
theorem tick_of_wanted {v : Services σ} {s : σ} {name : String} (h : v.wanted s = some name)
    (e : Engine φ π μ) :
    e.tick v s = (e.follow (some name)).1.finish v .ingesting (v.afterReading e s) := by
  rw [tick_eq_finish, Services.afterReading, h]
  rw [Services.wanted] at h
  cases hread : (v.broker .desiredPolicy s).1 with
  | error problem =>
    rw [hread] at h
    cases h
  | ok desired =>
    rw [hread] at h
    obtain rfl : desired = some name := h
    rfl

/-- **What a tick changes besides the tickets is what it reads.** -/
theorem tick_continues (v : Services σ) (e : Engine φ π μ) (s : σ) :
    (e.tick v s).2.1.Continues (e.follow (v.wanted s)).1 := by
  rw [tick_eq_finish, Services.wanted]
  cases (v.broker .desiredPolicy s).1 with
  | error problem => exact .refl e
  | ok desired => exact finish_continues v _ .ingesting nofun _

end Engine

end JobDispatch
