import JobDispatch.Proofs.Scheduler.Submissions
import JobDispatch.Proofs.Store.Counts

/-!
# Counts in a system at work

The parties of a system use its store one operation at a time, so whatever they do, the store goes through
a run of operations, and what is known of such runs holds of the system.  In particular its counts agree
with its listings and with what the operations report, and no record is ever in the reserved state.

## Main definitions

* `Store.Leads` — operations lead from one store to another.

## Main results

* `Scheduler.leads_step`, `Scheduler.leads_run` — **a run of a system is a run of its store.**
* `Scheduler.counts_follow_transitions` — **counts, listings and transitions agree.**
-/

namespace JobDispatch

/-! ### What becomes of the store -/

namespace Store

/-- **Operations lead from one store to another.** -/
def Leads (s s' : Store) : Prop := ∃ xs : List StoreStep, s' = s.run xs

variable {s s' s'' : Store}

theorem Leads.of_eq (h : s' = s) : s.Leads s' := ⟨[], h⟩

theorem Leads.trans (h : s.Leads s') (h' : s'.Leads s'') : s.Leads s'' := by
  obtain ⟨xs, rfl⟩ := h
  obtain ⟨ys, rfl⟩ := h'
  exact ⟨xs ++ ys, List.foldl_append.symm⟩

/-- One operation. -/
theorem leads_perform {α : Type} (s : Store) (call : StoreCall α) (now : Timestamp) (fresh : JobId) :
    s.Leads (s.perform now fresh call).2 := ⟨[⟨call, now, fresh⟩], rfl⟩

end Store

variable (m : Moment) (sh : Shared)

/-- The store after an operation, which is not carried out while the store cannot be reached. -/
theorem Moment.leads_services_store {α : Type} (call : StoreCall α) :
    sh.store.Leads (m.services.store call sh).2.store := by
  cases hm : m.storeOutage with
  | some reason =>
    simp only [services, onStore, hm]
    exact .of_eq rfl
  | none =>
    rw [services_store hm]
    exact sh.store.leads_perform call m.now m.fresh

theorem Execution.leads_step (x : Execution) (handlers : List String) :
    sh.store.Leads (x.step m.services handlers sh).2.store := by
  rw [shared_step]
  unfold sharedAfter
  split <;> first
    | exact m.leads_services_store sh _
    | exact .of_eq rfl
    | exact .of_eq (Moment.services_broker_store _ sh)

theorem EngineLoop.leads_step (l : EngineLoop) : sh.store.Leads (l.step m.services sh).2.store := by
  have ha := l.step_advance m sh
  generalize (l.step m.services sh).1 = l' at ha
  generalize (l.step m.services sh).2 = sh' at ha
  cases ha with
  | kept | sent => exact .of_eq rfl
  | claimed _ _ limit => exact sh.store.leads_perform (.claimPending limit) m.now m.fresh

theorem Recovery.leads_step (r : Recovery) : sh.store.Leads (r.step m.services sh).2.store := by
  have ha := r.step_advance m sh
  generalize (r.step m.services sh).1 = r' at ha
  generalize (r.step m.services sh).2 = sh' at ha
  cases ha with
  | kept => exact .of_eq rfl
  | reset => exact sh.store.leads_perform .resetScheduled m.now m.fresh

theorem Cancellation.leads_step (c : Cancellation) :
    sh.store.Leads (c.step m.services sh).2.store := by
  cases c with
  | requesting id =>
    have hleads := m.leads_services_store sh (.cancel id)
    rcases hr : m.services.store (.cancel id) sh with ⟨e | u, sh'⟩
    all_goals
      rw [hr] at hleads
      simp only [step, Control.onStore, hr]
      exact hleads
  | reading id => exact m.leads_services_store sh (.load id)
  | finished id result => exact .of_eq rfl

namespace Scheduler

open StatusChange (leaving entering)

/-- What becomes of a message does not touch what is shared. -/
theorem shared_receive (s : Scheduler) (handlers : List String)
    (answer : Except BrokerError (Option Ticket)) : (s.receive handlers answer).shared = s.shared := by
  unfold receive
  split <;> rfl

/-- **A step of a system leads its store on.** -/
theorem leads_step (s : Scheduler) (e : Event) : s.shared.store.Leads (s.step e).shared.store := by
  unfold step
  cases e.move with
  | submit new =>
    simp only [submit]
    split
    · exact .of_eq rfl
    · rcases e.moment.shared_submit new s.shared with hsame | ⟨-, hnew⟩
      · exact .of_eq (congrArg Shared.store hsame)
      · simp only [hnew]
        exact s.shared.store.leads_perform (.insert new) e.moment.now e.moment.fresh
  | wish name => exact .of_eq (Moment.services_broker_store _ _)
  | inject message => exact .of_eq rfl
  | tick i =>
    simp only [tick]
    cases s.engines[i]? with
    | none => exact .of_eq rfl
    | some l => exact l.leads_step e.moment s.shared
  | recover => exact .of_eq rfl
  | proceed i =>
    simp only [proceed]
    cases s.recoveries[i]? with
    | none => exact .of_eq rfl
    | some r => exact r.leads_step e.moment s.shared
  | take handlers timeout =>
    simp only [take, shared_receive]
    exact .of_eq (Moment.services_broker_store _ _)
  | hand handlers ticket => exact .of_eq rfl
  | execute k =>
    simp only [execute]
    cases s.deliveries[k]? with
    | none => exact .of_eq rfl
    | some d => exact d.execution.leads_step e.moment s.shared d.handlers
  | conclude k outcome elapsed =>
    simp only [conclude]
    cases s.deliveries[k]? <;> exact .of_eq rfl
  | cancel id => exact .of_eq rfl
  | pursue i =>
    simp only [pursue]
    cases s.cancellations[i]? with
    | none => exact .of_eq rfl
    | some c => exact c.leads_step e.moment s.shared

/-- **A run of a system is a run of its store.** -/
theorem leads_run (s : Scheduler) (es : List Event) : s.shared.store.Leads (s.run es).shared.store :=
  run_induction (P := fun s' => s.shared.store.Leads s'.shared.store) (Q := fun _ => True)
    (.of_eq rfl) (fun _ _ => trivial) fun s' e _ h => h.trans (leads_step s' e)

/-- **Counts, listings and transitions agree.**  Whatever the records of a store are: the count of a state
is the total of every listing of that state, the total is that of every listing without conditions, and
the five counts make up the total exactly when no record is retried.  Whatever operations follow one
another, at any times: a count grows by the transitions into its state that are reported and shrinks by
those out of it, and the total grows by the new jobs.  Along every run of a system the five counts make up
the total. -/
theorem counts_follow_transitions (s : Store) :
    (∀ f st, f.status = some st → f.jobType = none → st ≠ .retried →
      s.stats.count st = (s.query f).total) ∧
    (∀ f, f.status = none → f.jobType = none → s.stats.total = (s.query f).total) ∧
    (s.stats.inStates = s.stats.total ↔ ∀ j ∈ s.jobs, j.status ≠ .retried) ∧
    (∀ xs st, st ≠ .retried → (s.run xs).stats.count st + leaving st (s.history xs)
      = s.stats.count st + entering st (s.history xs)) ∧
    (∀ xs, (s.run xs).stats.total = s.stats.total + StatusChange.new (s.history xs)) ∧
    ∀ engines es, ((start engines).run es).shared.store.stats.inStates
      = ((start engines).run es).shared.store.stats.total := by
  refine ⟨fun f st hf ht hst => ?_, fun f hf ht => ?_, s.inStates_eq_total_iff, fun xs st hst => ?_,
    fun xs => ?_, fun engines es => ?_⟩
  · rw [s.count_stats hst, s.total_query_withStatus hf ht]
  · rw [s.total_stats, s.total_query_all hf ht]
  · rw [Store.count_stats _ hst, s.count_stats hst]
    exact (s.balanced_run xs).counts st
  · rw [Store.total_stats, s.total_stats]
    exact (s.balanced_run xs).total
  · obtain ⟨xs, hrun⟩ := leads_run (start engines) es
    have hnone : ((start engines).run es).shared.store.countIn .retried = 0 :=
      hrun ▸ Store.countIn_retried_run rfl xs
    have hall := ((start engines).run es).shared.store.inStates_stats
    omega

/-- A pending job, one in the reserved state and a completed one. -/
def withReserved : Store :=
  ⟨[NewJob.oneShot.record (.ofNat 1) ⟨1, 0⟩,
    { NewJob.oneShot.record (.ofNat 2) ⟨2, 0⟩ with status := .retried },
    (NewJob.oneShot.record (.ofNat 3) ⟨3, 0⟩).completed (.object []) ⟨4, 0⟩]⟩

/-- Jobs are moved from states in which nobody expects them, and one is not moved at all. -/
def strayMoves : List StoreStep :=
  [⟨.exhaust (.ofNat 3) 1 "late", ⟨5, 0⟩, .nil⟩, ⟨.start (.ofNat 1), ⟨6, 0⟩, .nil⟩,
    ⟨.claimPending 5, ⟨7, 0⟩, .nil⟩, ⟨.giveBack (.ofNat 2) 1 "again", ⟨8, 0⟩, .nil⟩,
    ⟨.exhaust (.ofNat 3) 2 "later", ⟨9, 0⟩, .nil⟩]

/-- The completed job leaves its state, and the five counts make up the total once no job is retried. -/
theorem counts_of_strayMoves :
    withReserved.history strayMoves
        = [⟨some .completed, .failed⟩, ⟨some .pending, .scheduled⟩, ⟨some .retried, .pending⟩,
            ⟨some .failed, .failed⟩] ∧
      (withReserved.query (JobFilter.everything.withStatus .completed)).total = 1 ∧
      (withReserved.run strayMoves).stats.count .completed = 0 ∧
      withReserved.stats.inStates ≠ withReserved.stats.total ∧
      (withReserved.run strayMoves).stats.inStates = (withReserved.run strayMoves).stats.total := by
  have hhistory : withReserved.history strayMoves
      = [⟨some .completed, .failed⟩, ⟨some .pending, .scheduled⟩, ⟨some .retried, .pending⟩,
          ⟨some .failed, .failed⟩] := by
    decide +kernel
  have hcompleted : withReserved.stats.count .completed = 1 := rfl
  have hnone : ∀ j ∈ (withReserved.run strayMoves).jobs, j.status ≠ .retried := by decide +kernel
  obtain ⟨hlisted, -, hreserved, hmoved, -⟩ := counts_follow_transitions withReserved
  obtain ⟨-, -, hreserved', -⟩ := counts_follow_transitions (withReserved.run strayMoves)
  have hleft := hmoved strayMoves .completed (by decide)
  simp only [hhistory, hcompleted, leaving, entering, List.countP_cons, List.countP_nil] at hleft
  refine ⟨hhistory, ?_, ?_, ?_, hreserved'.mpr hnone⟩
  · rw [← hlisted _ .completed rfl rfl (by decide), hcompleted]
  · simpa using hleft
  · rw [Ne, hreserved]
    decide

end Scheduler

end JobDispatch
