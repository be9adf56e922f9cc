import JobDispatch.Proofs.Scheduler.Advance
import JobDispatch.Proofs.Scheduler.Parties

/-!
# The wanted policy

The broker keeps the name of the policy that is wanted.  No party of a scheduler touches it but those
who ask for a policy, so it stays from one wish to the next, whatever else happens in between.

## Main results

* `Control.of_setPolicy_ok` — a wish that is granted stands for a policy, and the broker keeps it.
* `Scheduler.policy_step` — what is no wish leaves the wanted policy.
* `Scheduler.policy_run` — **along every run without another wish the wanted policy stays.**
-/

namespace JobDispatch

variable {m : Moment} {sh sh' : Shared}

/-- A wish that is granted stands for a policy, and the broker keeps it. -/
theorem Control.of_setPolicy_ok {φ μ : Type} {c : Control φ μ} {name : String}
    (h : c.setPolicy m.services name sh = (.ok (), sh')) :
    c.registry.contains name = true ∧ sh'.broker.policy = some name := by
  cases hknown : c.registry.contains name with
  | false =>
    simp only [setPolicy, PolicyRegistry.validate, hknown, Bool.false_eq_true, if_false] at h
    cases (Prod.mk.inj h).1
  | true =>
    refine ⟨rfl, ?_⟩
    simp only [setPolicy, PolicyRegistry.validate, hknown, if_true] at h
    have hresult : (m.services.broker (.setDesiredPolicy name) sh).1.mapError SchedulerError.broker
        = .ok () := congrArg Prod.fst h
    have hstate : (m.services.broker (.setDesiredPolicy name) sh).2 = sh' := congrArg Prod.snd h
    cases hb : m.brokerOutage with
    | some reason =>
      rw [Moment.services_broker_outage hb] at hresult
      cases hresult
    | none =>
      rw [← hstate, Moment.services_broker hb]
      rfl

/-! ### Those who ask for no policy -/

/-- Taking a message leaves the wanted policy. -/
theorem Moment.policy_popReady (m : Moment) (timeout : Span) (sh : Shared) :
    (m.services.broker (.popReady timeout) sh).2.broker.policy = sh.broker.policy := by
  cases hb : m.brokerOutage with
  | some reason => rw [services_broker_outage hb]
  | none =>
    rw [services_broker hb, Broker.perform_popReady, Broker.popReady]
    split <;> rfl

theorem EngineLoop.policy_step (m : Moment) (l : EngineLoop) (sh : Shared) :
    (l.step m.services sh).2.broker.policy = sh.broker.policy := by
  have hadvance := l.step_advance m sh
  generalize (l.step m.services sh).1 = l' at hadvance
  generalize (l.step m.services sh).2 = sh' at hadvance ⊢
  cases hadvance <;> rfl

theorem Execution.policy_step (m : Moment) (x : Execution) (handlers : List String) (sh : Shared) :
    (x.step m.services handlers sh).2.broker.policy = sh.broker.policy := by
  rw [shared_step, sharedAfter.eq_def]
  split
  -- only a dead letter goes to the broker
  case h_7 e job error n =>
    simp only [Moment.services, Moment.onBroker]
    split <;> rfl
  all_goals simp only [Moment.services_store_broker]

/-! ### All together -/

namespace Scheduler

/-- **What is no wish leaves the wanted policy.** -/
theorem policy_step {e : Event} (he : ∀ name, e.move ≠ .wish name) (s : Scheduler) :
    (s.step e).shared.broker.policy = s.shared.broker.policy := by
  unfold step
  cases hmove : e.move with
  | submit new =>
    simp only [submit]
    split
    · rfl
    · rcases e.moment.shared_submit new s.shared with hsh | ⟨-, hsh⟩ <;> rw [hsh]
  | wish name => exact absurd hmove (he name)
  | inject message => rfl
  | tick i =>
    simp only [tick]
    split
    · rfl
    · exact EngineLoop.policy_step ..
  | recover => rfl
  | proceed i =>
    simp only [proceed]
    split
    · rfl
    · exact congrArg Broker.policy (Recovery.broker_step ..)
  | take handlers timeout =>
    have htaken := e.moment.policy_popReady timeout s.shared
    simp only [take]
    generalize (e.moment.services.broker (.popReady timeout) s.shared).1 = answer
    rcases answer with (_ | _ | _ | _) | (_ | ticket) <;> exact htaken
  | hand handlers t => rfl
  | execute k =>
    simp only [execute]
    split
    · rfl
    · exact Execution.policy_step ..
  | conclude k outcome elapsed =>
    simp only [conclude]
    split <;> rfl
  | cancel id => rfl
  | pursue i =>
    simp only [pursue]
    split
    · rfl
    · exact congrArg Broker.policy (Cancellation.broker_step ..)

/-- **Along every run without another wish the wanted policy stays.** -/
theorem policy_run {es : List Event} (hes : ∀ e ∈ es, ∀ name, e.move ≠ .wish name) (s : Scheduler) :
    (s.run es).shared.broker.policy = s.shared.broker.policy :=
  run_induction (P := fun s' => s'.shared.broker.policy = s.shared.broker.policy) rfl hes
    fun s' _ he hs' => (policy_step he s').trans hs'

end Scheduler

end JobDispatch
