import JobDispatch.Proofs.Store.Records
import JobDispatch.Rehearsal.Stage
import Mathlib.Data.List.Nodup

/-!
# What recording a failed attempt leaves behind

A recording uses the store once or twice and then, if the job has no attempt left, the broker once.  Each
use does all that it should or fails and does nothing.  Between the last two uses there is a record that
is failed without a dead letter.  Of whatever a recording meets it makes all or nothing, but for this one
case: the record has been failed and the dead letter cannot be sent.

## Main definitions

* `Services.Atomic` — each use of the services does all or nothing.
* `FailureRecording.AllOrNothing` — a result, and the store and the broker before and after: a decision
  that has been recorded in full, or an error or no decision and nothing changed.
* `FailureRecording.HalfRecorded` — the record is failed, and there is no dead letter.

## Main results

* `Rehearsal.Stage.atomic_services` — the services of a rehearsal are atomic, whatever fails on it.
* `FailureRecording.record_cases` — a recording makes all or nothing, or it reports an error of the
  broker and has failed the record.
* `FailureRecording.allOrNothing_iff` — **it makes all or nothing exactly if it reports no error of the
  broker.**
* `FailureRecording.half_recorded_of_unsent` — a dead letter that cannot be sent leaves half a recording.
-/

namespace JobDispatch

/-! ### Services that do all or nothing -/

/-- **Each use of the services does all or nothing**: a use of the store or of the broker does what it
is for, or it fails and leaves both as they were. -/
structure Services.Atomic {σ : Type} (v : Services σ) (store : σ → Store) (broker : σ → Broker) :
    Prop where
  onStore : ∀ {α : Type} (call : StoreCall α) (s : σ), broker (v.store call s).2 = broker s ∧
    ((∃ e, (v.store call s).1 = .error e ∧ store (v.store call s).2 = store s) ∨
      ∃ now fresh, (v.store call s).1 = ((store s).perform now fresh call).1 ∧
        store (v.store call s).2 = ((store s).perform now fresh call).2)
  onBroker : ∀ {α : Type} (call : BrokerCall α) (s : σ), store (v.broker call s).2 = store s ∧
    ((∃ e, (v.broker call s).1 = .error e ∧ broker (v.broker call s).2 = broker s) ∨
      ((v.broker call s).1 = ((broker s).perform call).1 ∧
        broker (v.broker call s).2 = ((broker s).perform call).2))
  onClock : ∀ s, store (v.clock s).2 = store s ∧ broker (v.clock s).2 = broker s
  onNote : ∀ n s, store (v.note n s) = store s ∧ broker (v.note n s) = broker s

/-- **The services of a rehearsal are atomic**, whatever fails on it and when. -/
theorem Rehearsal.Stage.atomic_services :
    services.Atomic (fun s => s.backend.store) (fun s => s.backend.broker) where
  onStore := by
    intro α call s
    simp only [services, onStore]
    rcases s.outages.consult (storeTarget call) with ⟨_ | kind, outages⟩
    · exact ⟨rfl, .inr ⟨s.backend.time, s.backend.nextId, rfl, rfl⟩⟩
    · exact ⟨rfl, .inl ⟨_, rfl, rfl⟩⟩
  onBroker := by
    intro α call s
    simp only [services, onBroker]
    rcases s.outages.consult (brokerTarget call) with ⟨_ | kind, outages⟩
    · exact ⟨rfl, .inr ⟨rfl, rfl⟩⟩
    · exact ⟨rfl, .inl ⟨_, rfl, rfl⟩⟩
  onClock := fun s => ⟨rfl, rfl⟩
  onNote := fun n s => ⟨rfl, rfl⟩

namespace FailureRecording

/-! ### All, half or nothing -/

/-- **A decision that has been recorded in full, or nothing changed**: a job that is given back is
pending with one more failure; a job that is not is failed with one more failure, and there is one more
dead letter, which is its own. -/
def AllOrNothing (id : JobId) (error : String) (st st' : Store) (br br' : Broker) :
    Except RetryError (Option RetryDecision) → Prop
  | .ok (some (.retry n _)) => ∃ j, st.find? id = some j ∧
      n = RetryDecision.countedUp j.retryCount ∧ st' = st.put (j.returned n error) ∧ br' = br
  | .ok (some (.deadLetter n)) => ∃ j now sent, st.find? id = some j ∧
      n = RetryDecision.countedUp j.retryCount ∧ st' = st.put (j.exhausted n error now) ∧
        br' = { br with deadLetters := br.deadLetters ++ [(j.deadLetter error n sent).text] }
  | .ok none => st' = st ∧ br' = br
  | .error _ => st' = st ∧ br' = br

/-- The record of a job that had not ended is failed, and there is no dead letter. -/
def HalfRecorded (id : JobId) (error : String) (st st' : Store) (br br' : Broker) : Prop :=
  ∃ j n now, st.find? id = some j ∧ j.status.isTerminal = false ∧
    n = RetryDecision.countedUp j.retryCount ∧ st' = st.put (j.exhausted n error now) ∧ br' = br

/-- A store in which a job that had not ended is failed is not what it was. -/
theorem HalfRecorded.ne {id : JobId} {error : String} {st st' : Store} {br br' : Broker}
    (h : HalfRecorded id error st st' br br') : st' ≠ st := by
  obtain ⟨j, n, now, hj, hlive, -, rfl, -⟩ := h
  intro hsame
  have hid : (j.exhausted n error now).id = id := (Store.id_of_find? hj :)
  have hput := Store.find?_put_self hj hid
  rw [hsame, hj, Option.some.injEq] at hput
  -- the record would have ended before
  rw [hput] at hlive
  cases hlive

/-! ### Step by step -/

variable {σ : Type} {v : Services σ}

theorem run_finished (r : Except RetryError (Option RetryDecision)) (s : σ) :
    run v (finished r) s = (r, s) := by
  rw [run]
  rfl

theorem run_of_result?_eq_none {p : FailureRecording} (h : p.result? = none) (s : σ) :
    run v p s = run v (p.step v s).1 (p.step v s).2 := by
  rw [run]
  split
  · next result hresult =>
    rw [h] at hresult
    cases hresult
  · rfl

section Steps

variable {store : σ → Store} {broker : σ → Broker} (ha : v.Atomic store broker)
include ha

/-- The dead letter is sent, or nothing more happens. -/
theorem run_burying (job : Job) (error : String) (n : UInt16) (s : σ) :
    store (run v (burying job error n) s).2 = store s ∧
      ((∃ sent, (run v (burying job error n) s).1 = .ok (some (.deadLetter n)) ∧
          broker (run v (burying job error n) s).2 = { broker s with
            deadLetters := (broker s).deadLetters ++ [(job.deadLetter error n sent).text] }) ∨
        ∃ e, (run v (burying job error n) s).1 = .error (.broker e) ∧
          broker (run v (burying job error n) s).2 = broker s) := by
  have hclock := ha.onClock s
  rcases hc : v.clock s with ⟨sent, s₁⟩
  rw [hc] at hclock
  obtain ⟨hstore, hbroker⟩ := hclock
  have hcall := ha.onBroker (.pushDeadLetter (job.deadLetter error n sent)) s₁
  rcases hb : v.broker (.pushDeadLetter (job.deadLetter error n sent)) s₁ with ⟨result, s₂⟩
  rw [hb] at hcall
  obtain ⟨hstore₁, hcall⟩ := hcall
  rw [run_of_result?_eq_none rfl]
  simp only [step, hc, hb]
  rcases hcall with ⟨e, rfl, hsame⟩ | ⟨rfl, hsent⟩
  · simp only [run_finished]
    exact ⟨hstore₁.trans hstore, .inr ⟨e, rfl, hsame.trans hbroker⟩⟩
  · dsimp only [Broker.perform]
    rw [run_finished]
    refine ⟨hstore₁.trans hstore, .inl ⟨sent, rfl, ?_⟩⟩
    rw [hsent, hbroker]
    rfl

/-- The record is failed, and then it is for the dead letter; or nothing happens. -/
theorem run_exhausting {job : Job} (error : String) (n : UInt16) {s : σ} (hs : (store s).Distinct)
    (hj : (store s).find? job.id = some job) :
    (∃ e, (run v (exhausting job error n) s).1 = .error (.store e) ∧
        store (run v (exhausting job error n) s).2 = store s ∧
          broker (run v (exhausting job error n) s).2 = broker s) ∨
      ∃ now s₁, store s₁ = (store s).put (job.exhausted n error now) ∧ broker s₁ = broker s ∧
        run v (exhausting job error n) s = run v (burying job error n) s₁ := by
  have hcall := ha.onStore (.exhaust job.id n error) s
  rcases hb : v.store (.exhaust job.id n error) s with ⟨result, s₁⟩
  rw [hb] at hcall
  obtain ⟨hbroker, hcall⟩ := hcall
  rw [run_of_result?_eq_none rfl]
  simp only [step, hb]
  rcases hcall with ⟨e, rfl, hsame⟩ | ⟨now, fresh, hresult, hstore⟩
  · simp only [run_finished]
    exact .inl ⟨e, rfl, hsame, hbroker⟩
  · simp only [Store.perform, Store.exhaust_eq hs, hj, Store.outcome] at hresult hstore
    subst hresult
    exact .inr ⟨now, s₁, hstore, hbroker, rfl⟩

/-- The job is given back, or nothing happens. -/
theorem run_givingBack {id : JobId} {j : Job} (error : String) (n max : UInt16) {s : σ}
    (hs : (store s).Distinct) (hj : (store s).find? id = some j) :
    broker (run v (givingBack id error n max) s).2 = broker s ∧
      ((∃ e, (run v (givingBack id error n max) s).1 = .error (.store e) ∧
          store (run v (givingBack id error n max) s).2 = store s) ∨
        ((run v (givingBack id error n max) s).1 = .ok (some (.retry n max)) ∧
          store (run v (givingBack id error n max) s).2 = (store s).put (j.returned n error))) := by
  have hcall := ha.onStore (.giveBack id n error) s
  rcases hb : v.store (.giveBack id n error) s with ⟨result, s₁⟩
  rw [hb] at hcall
  obtain ⟨hbroker, hcall⟩ := hcall
  rw [run_of_result?_eq_none rfl]
  simp only [step, hb]
  rcases hcall with ⟨e, rfl, hsame⟩ | ⟨now, fresh, hresult, hstore⟩
  · simp only [run_finished]
    exact ⟨hbroker, .inl ⟨e, rfl, hsame⟩⟩
  · simp only [Store.perform, Store.giveBack_eq hs, hj, Store.outcome] at hresult hstore
    subst hresult
    dsimp only
    rw [run_finished]
    exact ⟨hbroker, .inr ⟨rfl, hstore⟩⟩

/-- The record is loaded, and then it is for what follows from it; or nothing happens. -/
theorem run_loading (id : JobId) (error : String) (s : σ) :
    (∃ e, (run v (loading id error) s).1 = .error (.store e) ∧
        store (run v (loading id error) s).2 = store s ∧
          broker (run v (loading id error) s).2 = broker s) ∨
      ∃ s₁, store s₁ = store s ∧ broker s₁ = broker s ∧
        run v (loading id error) s = run v (judged id error ((store s).find? id)).1 s₁ := by
  have hcall := ha.onStore (.load id) s
  rcases hb : v.store (.load id) s with ⟨result, s₁⟩
  rw [hb] at hcall
  obtain ⟨hbroker, hcall⟩ := hcall
  rw [run_of_result?_eq_none rfl]
  simp only [step, hb]
  rcases hcall with ⟨e, rfl, hsame⟩ | ⟨now, fresh, rfl, hstore⟩
  · simp only [run_finished]
    exact .inl ⟨e, rfl, hsame, hbroker⟩
  · simp only [Store.perform] at hstore ⊢
    rcases judged id error ((store s).find? id) with ⟨p, _ | notice⟩
    · exact .inr ⟨s₁, hstore, hbroker, rfl⟩
    · obtain ⟨hnote, hnote'⟩ := ha.onNote notice s₁
      exact .inr ⟨v.note notice s₁, hnote.trans hstore, hnote'.trans hbroker, rfl⟩

end Steps

end FailureRecording

namespace RetryDecision

variable {count limit n : UInt16}

/-- What is decided counts one more failure. -/
theorem eq_countedUp_of_retry {max : UInt16} (h : decide count limit = .retry n max) :
    n = countedUp count := by
  unfold decide at h
  split at h
  · exact (RetryDecision.retry.inj h).1.symm
  · cases h

theorem eq_countedUp_of_deadLetter (h : decide count limit = .deadLetter n) :
    n = countedUp count := by
  unfold decide at h
  split at h
  · cases h
  · exact (RetryDecision.deadLetter.inj h).symm

end RetryDecision

namespace FailureRecording

variable {σ : Type} {v : Services σ} {store : σ → Store} {broker : σ → Broker}

/-- A recording makes all or nothing, or it reports an error of the broker and has failed the record. -/
theorem record_cases (ha : v.Atomic store broker) {s : σ} (hs : (store s).Distinct) (id : JobId)
    (error : String) :
    ((∀ e, (record v id error s).1 ≠ .error (.broker e)) ∧
        AllOrNothing id error (store s) (store (record v id error s).2) (broker s)
          (broker (record v id error s).2) (record v id error s).1) ∨
      ((∃ e, (record v id error s).1 = .error (.broker e)) ∧
        HalfRecorded id error (store s) (store (record v id error s).2) (broker s)
          (broker (record v id error s).2)) := by
  rw [record]
  rcases run_loading ha id error s with ⟨e, hresult, hstore, hbroker⟩ | ⟨s₁, hstore, hbroker, hrun⟩
  · rw [hresult]
    exact .inl ⟨fun _ => nofun, hstore, hbroker⟩
  have hs₁ : (store s₁).Distinct := hstore ▸ hs
  rw [hrun]
  cases hj : (store s).find? id with
  | none =>
    have hnext : (judged id error none).1 = finished (.ok none) := rfl
    rw [hnext, run_finished]
    exact .inl ⟨fun _ => nofun, hstore, hbroker⟩
  | some j =>
    have hj₁ : (store s₁).find? id = some j := hstore ▸ hj
    cases hlive : j.status.isTerminal with
    | true =>
      have hnext : (judged id error (some j)).1 = finished (.ok none) := by
        simp only [judged, hlive, if_true]
      rw [hnext, run_finished]
      exact .inl ⟨fun _ => nofun, hstore, hbroker⟩
    | false =>
      cases hd : RetryDecision.decide j.retryCount j.maxRetries with
      | retry n max =>
        have hnext : (judged id error (some j)).1 = givingBack id error n max := by
          simp only [judged, hlive, hd, Bool.false_eq_true, if_false]
        rw [hnext]
        obtain ⟨hbroker', ⟨e, hresult, hstore'⟩ | ⟨hresult, hstore'⟩⟩ :=
          run_givingBack ha error n max hs₁ hj₁
        · rw [hresult]
          exact .inl ⟨fun _ => nofun, hstore'.trans hstore, hbroker'.trans hbroker⟩
        · rw [hresult, hstore', hstore, hbroker', hbroker]
          exact .inl ⟨fun _ => nofun, j, hj, RetryDecision.eq_countedUp_of_retry hd, rfl, rfl⟩
      | deadLetter n =>
        have hnext : (judged id error (some j)).1 = exhausting j error n := by
          simp only [judged, hlive, hd, Bool.false_eq_true, if_false]
        rw [hnext]
        have hid : (store s₁).find? j.id = some j := (Store.id_of_find? hj).symm ▸ hj₁
        rcases run_exhausting ha error n hs₁ hid with
          ⟨e, hresult, hstore', hbroker'⟩ | ⟨now, s₂, hstore', hbroker', hrun'⟩
        · rw [hresult]
          exact .inl ⟨fun _ => nofun, hstore'.trans hstore, hbroker'.trans hbroker⟩
        -- from here on the record is failed
        rw [hrun']
        obtain ⟨hkept, ⟨sent, hresult, hsent⟩ | ⟨e, hresult, hunsent⟩⟩ :=
          run_burying ha j error n s₂
        · rw [hresult, hkept, hstore', hstore, hsent, hbroker', hbroker]
          exact .inl ⟨fun _ => nofun, j, now, sent, hj, RetryDecision.eq_countedUp_of_deadLetter hd, rfl, rfl⟩
        · rw [hresult, hkept, hstore', hstore, hunsent, hbroker', hbroker]
          exact .inr ⟨⟨e, rfl⟩, j, n, now, hj, hlive, RetryDecision.eq_countedUp_of_deadLetter hd, rfl, rfl⟩

/-- **A recording makes all or nothing exactly if it reports no error of the broker**; if it reports
one, the record is failed without a dead letter. -/
theorem allOrNothing_iff (ha : v.Atomic store broker) {s : σ} (hs : (store s).Distinct) (id : JobId)
    (error : String) :
    (AllOrNothing id error (store s) (store (record v id error s).2) (broker s)
        (broker (record v id error s).2) (record v id error s).1 ↔
      ∀ e, (record v id error s).1 ≠ .error (.broker e)) ∧
    ∀ e, (record v id error s).1 = .error (.broker e) →
      HalfRecorded id error (store s) (store (record v id error s).2) (broker s)
        (broker (record v id error s).2) := by
  rcases record_cases ha hs id error with ⟨hnone, hall⟩ | ⟨⟨e, he⟩, hhalf⟩
  · exact ⟨⟨fun _ => hnone, fun _ => hall⟩, fun e he => absurd he (hnone e)⟩
  · refine ⟨⟨fun hall => ?_, fun hnone => absurd he (hnone e)⟩, fun _ _ => hhalf⟩
    -- an error with nothing changed does not go with a changed record
    rw [he] at hall
    exact absurd hall.1 hhalf.ne

end FailureRecording

/-! ### Where it makes half -/

namespace Rehearsal.Stage

/-- A job without a second attempt runs; nothing fails. -/
def runningOnce : Stage :=
  { backend := { store := ⟨[(((NewJob.record { name := "once", jobType := "report", maxRetries := 0 }
      .nil ⟨0, 0⟩).claimed ⟨1, 0⟩).started ⟨2, 0⟩)]⟩ } }

/-- The record cannot be failed. -/
def unfailed : Stage := runningOnce.plan "store.mark_job_failed" { kind := .unavailable }

/-- The dead letter cannot be sent. -/
def unsent : Stage := runningOnce.plan "broker.push_dead_letter" { kind := .unavailable }

end Rehearsal.Stage

namespace FailureRecording

open Rehearsal

/-- A recording that cannot fail the record changes nothing. -/
theorem allOrNothing_of_unfailed :
    Stage.services.Atomic (fun s => s.backend.store) (fun s => s.backend.broker) ∧
      Stage.unfailed.backend.store.Distinct ∧
      AllOrNothing .nil "boom" Stage.unfailed.backend.store
        (record Stage.services .nil "boom" Stage.unfailed).2.backend.store
        Stage.unfailed.backend.broker
        (record Stage.services .nil "boom" Stage.unfailed).2.backend.broker
        (record Stage.services .nil "boom" Stage.unfailed).1 := by
  have hs : Stage.unfailed.backend.store.Distinct := List.nodup_singleton _
  have hresult : (record Stage.services .nil "boom" Stage.unfailed).1 =
      .error (.store (.unavailable "injected")) := by decide +kernel
  refine ⟨Stage.atomic_services, hs, ?_⟩
  refine (allOrNothing_iff Stage.atomic_services hs .nil "boom").1.mpr ?_
  rw [hresult]
  exact fun _ => nofun

/-- **A dead letter that cannot be sent leaves half a recording**: the record is failed, there is no dead
letter, and the recording reports an error. -/
theorem half_recorded_of_unsent :
    (record Stage.services .nil "boom" Stage.unsent).1 =
        .error (.broker (.unavailable "injected")) ∧
      (Stage.unsent.backend.store.find? .nil).map Job.status = some .running ∧
      ((record Stage.services .nil "boom" Stage.unsent).2.backend.store.find? .nil).map Job.status =
        some .failed ∧
      (record Stage.services .nil "boom" Stage.unsent).2.backend.broker.deadLetters = [] ∧
      ¬ AllOrNothing .nil "boom" Stage.unsent.backend.store
        (record Stage.services .nil "boom" Stage.unsent).2.backend.store Stage.unsent.backend.broker
        (record Stage.services .nil "boom" Stage.unsent).2.backend.broker
        (record Stage.services .nil "boom" Stage.unsent).1 := by
  have hresult : (record Stage.services .nil "boom" Stage.unsent).1 =
      .error (.broker (.unavailable "injected")) := by decide +kernel
  have hbefore : (Stage.unsent.backend.store.find? .nil).map Job.status = some .running := by
    decide +kernel
  have hafter : ((record Stage.services .nil "boom" Stage.unsent).2.backend.store.find? .nil).map
      Job.status = some .failed := by decide +kernel
  have hletters : (record Stage.services .nil "boom" Stage.unsent).2.backend.broker.deadLetters
      = [] := by decide +kernel
  refine ⟨hresult, hbefore, hafter, hletters, fun hall => ?_⟩
  -- an error asks for an unchanged store
  rw [hresult] at hall
  rw [hall.1, hbefore] at hafter
  cases hafter

end FailureRecording

end JobDispatch
