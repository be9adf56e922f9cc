import JobDispatch.Proofs.Scheduler.Basic
import JobDispatch.Proofs.Store.Records

/-!
# One step of an execution

An execution learns about its job when it loads the record and writes to it later, so what it knows may
be out of date.  Here it is said what an execution and the record of its job must have to do with each
other for the writes to be right, and what a step then does to both.

## Main definitions

* `Execution.Fits` — what an execution knows agrees with the record.
* `Execution.Advance` — **all that a step can do to an execution and to the record of its job.**

## Main results

* `Execution.step_advance` — a step at which the store answers is an advance.
* `Execution.shared_step` — a step uses one shared service once.
* `Execution.find?_step_of_ne`, `Execution.ready_step`, `Execution.deadLetters_step` — a step leaves all
  other records and the ready queue alone, and sends no dead letter but its own.
* `Execution.Advance.fits` — what an execution knows agrees with the record after a step as before.
* `Execution.Fits.of_kept` — a change of the record by others does no harm, as long as they leave a
  running job and a job whose life has ended alone.
-/

namespace JobDispatch

namespace Execution

/-! ### What an execution knows -/

/-- There is a record, it is running, and more. -/
def Running (r : Option Job) (P : Job → Prop) : Prop := ∃ j, r = some j ∧ j.status = .running ∧ P j

/-- **What an execution of a job knows agrees with the record.**  Until it has started the job it knows
only what never changes; from then on until it has recorded the end of the attempt the job is running
and the count of its failures is what it was when it was loaded. -/
def Fits (id : JobId) (r : Option Job) : Execution → Prop
  | loading i => i = id
  | starting job => job.id = id ∧ ∃ j, r = some j ∧ job.request = j.request
  | working job => job.id = id ∧ Running r fun j => job.request = j.request
  | completing i _ _ => i = id ∧ Running r fun _ => True
  | recovering _ (.loading i _) => i = id ∧ Running r fun _ => True
  | recovering _ (.givingBack i _ n max) =>
    i = id ∧ Running r fun j => RetryDecision.decide j.retryCount j.maxRetries = .retry n max
  | recovering _ (.exhausting job _ n) =>
    job.id = id ∧ Running r fun j => job.request = j.request ∧
      RetryDecision.decide j.retryCount j.maxRetries = .deadLetter n
  | recovering _ (.burying job error n) =>
    job.id = id ∧ ∃ j, r = some j ∧ j.status = .failed ∧ job.request = j.request ∧
      j.retryCount = n ∧ j.errorMessage = some error
  | recovering _ (.finished _) => False
  | finished _ => True

/-- The job of an execution that holds it is running. -/
theorem Fits.running {id : JobId} {r : Option Job} {x : Execution} (h : x.Fits id r)
    (hx : x.holds = true) : ∃ j, r = some j ∧ j.status = .running := by
  cases x with
  | loading i => simp [holds] at hx
  | starting job => simp [holds] at hx
  | working job =>
    obtain ⟨-, j, hr, hj, -⟩ := h
    exact ⟨j, hr, hj⟩
  | completing i result elapsed =>
    obtain ⟨-, j, hr, hj, -⟩ := h
    exact ⟨j, hr, hj⟩
  | recovering e rec =>
    cases rec with
    | loading i error =>
      obtain ⟨-, j, hr, hj, -⟩ := h
      exact ⟨j, hr, hj⟩
    | givingBack i error n max =>
      obtain ⟨-, j, hr, hj, -⟩ := h
      exact ⟨j, hr, hj⟩
    | exhausting job error n =>
      obtain ⟨-, j, hr, hj, -⟩ := h
      exact ⟨j, hr, hj⟩
    | burying job error n => simp [holds] at hx
    | finished result => exact h.elim
  | finished outcome => simp [holds] at hx

/-- What an execution of a job without a record knows does not speak of one. -/
theorem Fits.of_none {id : JobId} {x : Execution} (h : x.Fits id none) (r : Option Job) :
    x.Fits id r := by
  cases x with
  | loading i => exact h
  | starting job => simp [Fits] at h
  | working job => simp [Fits, Running] at h
  | completing i result elapsed => simp [Fits, Running] at h
  | recovering e rec => cases rec <;> simp [Fits, Running] at h
  | finished outcome => trivial

/-- **A change of the record by others does no harm**, if they keep what the job was made from and, of
a record that an execution relies on, everything. -/
theorem Fits.of_kept {id : JobId} {j j' : Job} {x : Execution} (h : x.Fits id (some j))
    (hr : j'.request = j.request) (hx : x.holds = true → j' = j) (hj : j.status = .failed → j' = j) :
    x.Fits id (some j') := by
  by_cases hh : x.holds = true
  · -- an execution that relies on the whole record finds it as it was
    rw [hx hh]
    exact h
  · cases x with
    | loading i => exact h
    | starting job =>
      obtain ⟨hid, i, hi, hreq⟩ := h
      obtain rfl := Option.some.inj hi
      exact ⟨hid, j', rfl, hreq.trans hr.symm⟩
    | working job => exact absurd rfl hh
    | completing i result elapsed => exact absurd rfl hh
    | recovering e rec =>
      cases rec with
      | loading i error => exact absurd rfl hh
      | givingBack i error n max => exact absurd rfl hh
      | exhausting job error n => exact absurd rfl hh
      | burying job error n =>
        obtain ⟨hid, i, hi, hf, hrest⟩ := h
        obtain rfl := Option.some.inj hi
        rw [hj hf]
        exact ⟨hid, j, rfl, hf, hrest⟩
      | finished result => exact h
    | finished outcome => exact h

/-! ### What a step can do -/

/-- **All that a step can do to an execution and to the record of its job**: the record and the
execution before it, and the record and the execution after it. -/
inductive Advance (now : Timestamp) (handlers : List String) :
    Option Job → Execution → Option Job → Execution → Prop
  /-- There is no such job. -/
  | absent (id : JobId) : Advance now handlers none (loading id) none (finished .skipped)
  /-- The job waits for its execution. -/
  | ready (id : JobId) (j : Job) (h : j.status = .scheduled) :
    Advance now handlers (some j) (loading id) (some j) (starting j)
  /-- The job does not wait for an execution. -/
  | idle (id : JobId) (j : Job) (h : j.status ≠ .scheduled) :
    Advance now handlers (some j) (loading id) (some j) (finished .skipped)
  /-- The job starts. -/
  | started (job j : Job) (h : j.status = .scheduled) :
    Advance now handlers (some j) (starting job) (some (j.started now)) (engaged handlers job)
  /-- Somebody else has taken the job. -/
  | lost (job j : Job) (h : j.status ≠ .scheduled) :
    Advance now handlers (some j) (starting job) (some j) (finished .skipped)
  /-- The result is stored. -/
  | completed (id : JobId) (result : Json) (elapsed : Span) (j : Job) (h : j.status = .running) :
    Advance now handlers (some j) (completing id result elapsed)
      (some (j.completed (withElapsed result elapsed) now)) (finished (.completed elapsed))
  /-- There will be another attempt. -/
  | retrying (e : String) (id : JobId) (error : String) (j : Job) (n max : UInt16)
    (h : j.status = .running) (hd : RetryDecision.decide j.retryCount j.maxRetries = .retry n max) :
    Advance now handlers (some j) (recovering e (.loading id error)) (some j)
      (recovering e (.givingBack id error n max))
  /-- There will be no other attempt. -/
  | resigning (e : String) (id : JobId) (error : String) (j : Job) (n : UInt16)
    (h : j.status = .running) (hd : RetryDecision.decide j.retryCount j.maxRetries = .deadLetter n) :
    Advance now handlers (some j) (recovering e (.loading id error)) (some j)
      (recovering e (.exhausting j error n))
  /-- The job is given back. -/
  | returned (e : String) (id : JobId) (error : String) (j : Job) (n max : UInt16)
    (h : j.status = .running) (hd : RetryDecision.decide j.retryCount j.maxRetries = .retry n max) :
    Advance now handlers (some j) (recovering e (.givingBack id error n max))
      (some (j.returned n error)) (finished (.failed e (some (.retry n max))))
  /-- The job is failed. -/
  | exhausted (e : String) (job : Job) (error : String) (j : Job) (n : UInt16)
    (h : j.status = .running) (hd : RetryDecision.decide j.retryCount j.maxRetries = .deadLetter n) :
    Advance now handlers (some j) (recovering e (.exhausting job error n))
      (some (j.exhausted n error now)) (recovering e (.burying job error n))
  /-- The dead letter is sent, or cannot be sent. -/
  | buried (e : String) (job : Job) (error : String) (n : UInt16) (r : Option Job)
    (decision : Option RetryDecision) :
    Advance now handlers r (recovering e (.burying job error n)) r (finished (.failed e decision))
  /-- The execution rests. -/
  | resting (r : Option Job) (x : Execution) (h : x.isResting = true) : Advance now handlers r x r x

/-- A record that is there stays there. -/
theorem Advance.exists_of_some {now : Timestamp} {handlers : List String} {j : Job} {r' : Option Job}
    {x x' : Execution} (h : Advance now handlers (some j) x r' x') : ∃ j', r' = some j' := by
  cases h <;> exact ⟨_, rfl⟩

/-- An execution adds no record. -/
theorem Advance.eq_none {now : Timestamp} {handlers : List String} {r' : Option Job}
    {x x' : Execution} (h : Advance now handlers none x r' x') : r' = none := by
  cases h <;> rfl

/-- An execution that has just started its job is at work or has failed already. -/
theorem holds_engaged (handlers : List String) (job : Job) : (engaged handlers job).holds = true := by
  unfold engaged
  split <;> rfl

/-- What an execution that has just started its job knows is true. -/
theorem fits_engaged {id : JobId} {handlers : List String} {job j : Job} (hid : job.id = id)
    (hj : j.status = .running) (hr : job.request = j.request) :
    (engaged handlers job).Fits id (some j) := by
  unfold engaged
  split
  · exact ⟨hid, j, rfl, hj, hr⟩
  · exact ⟨hid, j, rfl, hj, trivial⟩

/-- What the end of a handler leaves behind is known as before. -/
theorem Fits.resume {id : JobId} {r : Option Job} {x : Execution} (h : x.Fits id r)
    (outcome : HandlerOutcome) (elapsed : Span) : (x.resume outcome elapsed).Fits id r := by
  cases x with
  | working job =>
    obtain ⟨hid, j, hr, hj, -⟩ := h
    have hrun : Running r fun _ => True := ⟨j, hr, hj, trivial⟩
    cases outcome <;> exact ⟨hid, hrun⟩
  | loading i => exact h
  | starting job => exact h
  | completing i result elapsed => exact h
  | recovering e rec => exact h
  | finished outcome => exact h

/-- **What an execution knows agrees with the record after a step as before.** -/
theorem Advance.fits {now : Timestamp} {handlers : List String} {id : JobId} {r r' : Option Job}
    {x x' : Execution} (h : Advance now handlers r x r' x') (hid : ∀ j, r = some j → j.id = id)
    (hx : x.Fits id r) : x'.Fits id r' := by
  cases h with
  | absent i => trivial
  | ready i j hj => exact ⟨hid j rfl, j, rfl, rfl⟩
  | idle i j hj => trivial
  | started job j hj =>
    obtain ⟨hjob, k, hk, hreq⟩ := hx
    obtain rfl := Option.some.inj hk
    exact fits_engaged hjob rfl hreq
  | lost job j hj => trivial
  | completed i result elapsed j hj => trivial
  | retrying e i error j n max hj hd => exact ⟨hx.1, j, rfl, hj, hd⟩
  | resigning e i error j n hj hd => exact ⟨hid j rfl, j, rfl, hj, rfl, hd⟩
  | returned e i error j n max hj hd => trivial
  | exhausted e job error j n hj hd =>
    obtain ⟨hjob, k, hk, -, hreq, -⟩ := hx
    obtain rfl := Option.some.inj hk
    exact ⟨hjob, j.exhausted n error now, rfl, rfl, hreq, rfl, rfl⟩
  | buried e job error n r decision => trivial
  | resting r x hr => exact hx

/-! ### A step is an advance -/

variable {m : Moment} {sh : Shared} {id : JobId} {x : Execution}

/-- **A step at which the store answers is an advance**, and keeps the ids of the store distinct. -/
theorem step_advance (hm : m.storeOutage = none) (hs : sh.store.Distinct)
    (hx : x.Fits id (sh.store.find? id)) (handlers : List String) :
    Advance m.now handlers (sh.store.find? id) x
        ((x.step m.services handlers sh).2.store.find? id) (x.step m.services handlers sh).1 ∧
      (x.step m.services handlers sh).2.store.Distinct := by
  cases x with
  | loading i =>
    obtain rfl : i = id := hx
    simp only [step, Moment.services_store hm, Store.perform]
    cases hr : sh.store.find? i with
    | none =>
      simp only [judged, Moment.services_note, hr]
      exact ⟨.absent i, hs⟩
    | some j =>
      by_cases hj : j.status = .scheduled
      · simp only [judged, hj, if_true, hr]
        exact ⟨.ready i j hj, hs⟩
      · simp only [judged, hj, if_false, hr]
        exact ⟨.idle i j hj, hs⟩
  | starting job =>
    obtain ⟨rfl, j, hr, -⟩ := hx
    simp only [step, Moment.services_store hm, Store.perform, Store.start_eq hs, hr]
    -- of all writes this one alone looks at the state of the job
    by_cases hj : j.status = .scheduled
    · simp only [hj, if_true, Store.outcome]
      have hid : (j.started m.now).id = job.id := (Store.id_of_find? hr :)
      rw [Store.find?_put_self hr hid]
      exact ⟨.started job j hj, hs.put _⟩
    · simp only [hj, if_false, Store.outcome, notStarted, hr]
      exact ⟨.lost job j hj, hs⟩
  | working job => exact ⟨.resting _ _ rfl, hs⟩
  | completing i result elapsed =>
    obtain ⟨rfl, j, hr, hj, -⟩ := hx
    -- the write asks for no state; that the job is running is what the execution knows
    simp only [step, Moment.services_store hm, Store.perform, Store.complete_eq hs, hr, Store.outcome]
    have hid : (j.completed (withElapsed result elapsed) m.now).id = i := (Store.id_of_find? hr :)
    rw [Store.find?_put_self hr hid]
    exact ⟨.completed i result elapsed j hj, hs.put _⟩
  | recovering e rec =>
    cases rec with
    | loading i error =>
      obtain ⟨rfl, j, hr, hj, -⟩ := hx
      -- a running job has not ended, so its failure is not ignored
      have hterm : j.status.isTerminal = false := by rw [hj]; rfl
      simp only [step, FailureRecording.step, Moment.services_store hm, Store.perform,
        FailureRecording.judged, hr, hterm, Bool.false_eq_true, if_false]
      cases hd : RetryDecision.decide j.retryCount j.maxRetries with
      | retry n max =>
        simp only [Moment.services_note, recovered, hr]
        exact ⟨.retrying e i error j n max hj hd, hs⟩
      | deadLetter n =>
        simp only [recovered, hr]
        exact ⟨.resigning e i error j n hj hd, hs⟩
    | givingBack i error n max =>
      obtain ⟨rfl, j, hr, hj, hd⟩ := hx
      simp only [step, FailureRecording.step, Moment.services_store hm, Store.perform,
        Store.giveBack_eq hs, hr, Store.outcome, recovered]
      have hid : (j.returned n error).id = i := (Store.id_of_find? hr :)
      rw [Store.find?_put_self hr hid]
      exact ⟨.returned e i error j n max hj hd, hs.put _⟩
    | exhausting job error n =>
      obtain ⟨rfl, j, hr, hj, -, hd⟩ := hx
      simp only [step, FailureRecording.step, Moment.services_store hm, Store.perform,
        Store.exhaust_eq hs, hr, Store.outcome, recovered]
      have hid : (j.exhausted n error m.now).id = job.id := (Store.id_of_find? hr :)
      rw [Store.find?_put_self hr hid]
      exact ⟨.exhausted e job error j n hj hd, hs.put _⟩
    | burying job error n =>
      simp only [step, FailureRecording.step, Moment.services_clock]
      -- whether or not the letter is sent, the store is not touched
      have hstore := Moment.services_broker_store (m := m)
        (.pushDeadLetter (job.deadLetter error n m.now)) sh
      cases hb : m.services.broker (.pushDeadLetter (job.deadLetter error n m.now)) sh with
      | mk result sh' =>
        rw [hb] at hstore
        simp only at hstore
        cases result with
        | error problem =>
          simp only [recovered, hstore]
          exact ⟨.buried e job error n _ none, hs⟩
        | ok sent =>
          simp only [recovered, hstore]
          exact ⟨.buried e job error n _ _, hs⟩
    | finished result => exact hx.elim
  | finished outcome => exact ⟨.resting _ _ rfl, hs⟩

/-! ### What a step leaves alone -/

/-- What is shared after a step: one service has been used once, or none. -/
def sharedAfter (m : Moment) (sh : Shared) : Execution → Shared
  | loading i => (m.services.store (.load i) sh).2
  | starting job => (m.services.store (.start job.id) sh).2
  | completing i result elapsed =>
    (m.services.store (.complete i (withElapsed result elapsed)) sh).2
  | recovering _ (.loading i _) => (m.services.store (.load i) sh).2
  | recovering _ (.givingBack i error n _) => (m.services.store (.giveBack i n error) sh).2
  | recovering _ (.exhausting job error n) => (m.services.store (.exhaust job.id n error) sh).2
  | recovering _ (.burying job error n) =>
    (m.services.broker (.pushDeadLetter (job.deadLetter error n m.now)) sh).2
  | _ => sh

/-- **A step uses one shared service once.** -/
theorem shared_step (m : Moment) (sh : Shared) (x : Execution) (handlers : List String) :
    (x.step m.services handlers sh).2 = x.sharedAfter m sh := by
  cases x with
  | loading i =>
    simp only [step, sharedAfter]
    rcases m.services.store (.load i) sh with ⟨problem | found, sh'⟩
    · rfl
    · simp only
      split <;> rfl
  | starting job =>
    simp only [step, sharedAfter]
    rcases m.services.store (.start job.id) sh with ⟨problem | _, sh'⟩ <;> rfl
  | working job => rfl
  | completing i result elapsed =>
    simp only [step, sharedAfter]
    rcases m.services.store (.complete i (withElapsed result elapsed)) sh with
      ⟨problem | _, sh'⟩ <;> rfl
  | recovering e rec =>
    cases rec with
    | loading i error =>
      simp only [step, FailureRecording.step, sharedAfter]
      rcases m.services.store (.load i) sh with ⟨problem | found, sh'⟩
      · rfl
      · simp only
        split <;> rfl
    | givingBack i error n max =>
      simp only [step, FailureRecording.step, sharedAfter]
      rcases m.services.store (.giveBack i n error) sh with ⟨problem | _, sh'⟩ <;> rfl
    | exhausting job error n =>
      simp only [step, FailureRecording.step, sharedAfter]
      rcases m.services.store (.exhaust job.id n error) sh with ⟨problem | _, sh'⟩ <;> rfl
    | burying job error n =>
      simp only [step, FailureRecording.step, sharedAfter, Moment.services_clock]
      rcases m.services.broker (.pushDeadLetter (job.deadLetter error n m.now)) sh with
        ⟨problem | _, sh'⟩ <;> rfl
    | finished result => rfl
  | finished outcome => rfl

/-- An operation on one job leaves all other records alone, also if the store cannot be reached. -/
theorem find?_services_store_of_ne (hs : sh.store.Distinct) {α : Type} {call : StoreCall α}
    {id id' : JobId} (h : call.subject? = some id) (hne : id' ≠ id) :
    (m.services.store call sh).2.store.find? id' = sh.store.find? id' := by
  cases hm : m.storeOutage with
  | some reason => simp only [Moment.services, Moment.onStore, hm]
  | none =>
    rw [Moment.services_store hm]
    exact (Store.perform_of_subject hs h m.now m.fresh).2 id' hne

/-- **A step leaves all other records alone.** -/
theorem find?_step_of_ne (hs : sh.store.Distinct) {r : Option Job} (hx : x.Fits id r)
    (handlers : List String) {id' : JobId} (hne : id' ≠ id) :
    (x.step m.services handlers sh).2.store.find? id' = sh.store.find? id' := by
  rw [shared_step]
  cases x with
  | loading i =>
    obtain rfl : i = id := hx
    exact find?_services_store_of_ne hs rfl hne
  | starting job =>
    obtain ⟨rfl, -⟩ := hx
    exact find?_services_store_of_ne hs rfl hne
  | working job => rfl
  | completing i result elapsed =>
    obtain ⟨rfl, -⟩ := hx
    exact find?_services_store_of_ne hs rfl hne
  | recovering e rec =>
    cases rec with
    | loading i error =>
      obtain ⟨rfl, -⟩ := hx
      exact find?_services_store_of_ne hs rfl hne
    | givingBack i error n max =>
      obtain ⟨rfl, -⟩ := hx
      exact find?_services_store_of_ne hs rfl hne
    | exhausting job error n =>
      obtain ⟨rfl, -⟩ := hx
      exact find?_services_store_of_ne hs rfl hne
    | burying job error n =>
      simp only [sharedAfter, Moment.services_broker_store]
    | finished result => rfl
  | finished outcome => rfl

/-- A step keeps all ids in their places. -/
theorem ids_step (hs : sh.store.Distinct) (x : Execution) (handlers : List String) :
    (x.step m.services handlers sh).2.store.jobs.map Job.id = sh.store.jobs.map Job.id := by
  have key : ∀ {α : Type} {call : StoreCall α} {id : JobId}, call.subject? = some id →
      (m.services.store call sh).2.store.jobs.map Job.id = sh.store.jobs.map Job.id := by
    intro α call id h
    cases hm : m.storeOutage with
    | some reason => simp only [Moment.services, Moment.onStore, hm]
    | none =>
      rw [Moment.services_store hm]
      exact Store.ids_perform_of_subject hs h m.now m.fresh
  rw [shared_step]
  unfold sharedAfter
  split <;> try exact key rfl
  · rw [Moment.services_broker_store]
  · rfl

/-- A step leaves the ready queue alone. -/
theorem ready_step (m : Moment) (sh : Shared) (x : Execution) (handlers : List String) :
    (x.step m.services handlers sh).2.broker.ready = sh.broker.ready := by
  rw [shared_step]
  unfold sharedAfter
  split <;> try simp only [Moment.services_store_broker]
  · -- a dead letter goes to another list
    simp only [Moment.services, Moment.onBroker]
    split <;> rfl

/-- The dead letters that a step sends. -/
def letters (now : Timestamp) : Execution → List DeadLetter
  | recovering _ (.burying job error n) => [job.deadLetter error n now]
  | _ => []

/-- **A step sends no dead letter but its own.** -/
theorem deadLetters_step (hb : m.brokerOutage = none) (sh : Shared) (x : Execution)
    (handlers : List String) : (x.step m.services handlers sh).2.broker.deadLetters
      = sh.broker.deadLetters ++ (x.letters m.now).map DeadLetter.text := by
  rw [shared_step]
  unfold sharedAfter letters
  split <;> try simp only [Moment.services_store_broker, List.map_nil, List.append_nil]
  · simp only [Moment.services_broker hb, Broker.perform, List.map_cons, List.map_nil]

end Execution

end JobDispatch
