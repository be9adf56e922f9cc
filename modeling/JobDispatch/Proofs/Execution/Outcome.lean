import JobDispatch.Backend
import JobDispatch.Execution.Run
import JobDispatch.Proofs.Store.Records

/-!
# What an execution reports and what it has done

An execution reports its outcome by itself, apart from what it writes to the store and to the broker.
The two always agree: a message is skipped and nothing happens, or the job has the value that its
handler returned, or the attempt has failed and has been recorded as the counts of the job decide.
Which of these it is follows from the record and the handler alone.

Nothing is assumed about the store.  Two records may even have the same id; then the first one is the
one that is read, and the one that is changed.

## Main definitions

* `Store.replace` — the store with the first record of an id replaced.
* `Services.Reliable` — no use of the services fails, and nobody else uses them.
* `Execution.attempt` — how an attempt at a job ends.
* `Execution.Recorded` — what is left when a failed attempt has been recorded.
* `Execution.Matches` — an outcome matches what has been done.

## Main results

* `Execution.perform_of_not_ready`, `Execution.perform_of_ok`, `Execution.perform_of_error` — the three
  courses that an execution can take.
* `Execution.outcome_matches` — **the outcome of an execution always matches what it did.**
-/

namespace JobDispatch

/-! ### The first record with an id -/

namespace Store

/-- The records with the first one of an id replaced. -/
def replaceFirst (id : JobId) (j : Job) : List Job → List Job
  | [] => []
  | i :: is => if i.id = id then j :: is else i :: replaceFirst id j is

/-- **The store with the first record of an id replaced**; all others stay as they are. -/
def replace (s : Store) (id : JobId) (j : Job) : Store := ⟨replaceFirst id j s.jobs⟩

variable {s : Store} {id : JobId} {i j : Job}

/-- A change that succeeds replaces the record. -/
theorem update_of_find? {change : Job → Except StoreError Job} (h : s.find? id = some i)
    (hchange : change i = .ok j) : s.update id change = .ok (s.replace id j) := by
  obtain ⟨jobs⟩ := s
  have hjobs : updateJobs id change jobs = .ok (replaceFirst id j jobs) := by
    induction jobs with
    | nil => cases h
    | cons k jobs ih =>
      rw [find?, List.find?_cons] at h
      by_cases hk : k.id = id
      · rw [beq_iff_eq.mpr hk] at h
        obtain rfl := Option.some.inj h
        rw [updateJobs, if_pos hk, hchange, replaceFirst, if_pos hk]
        rfl
      · rw [beq_false_of_ne hk] at h
        rw [updateJobs, if_neg hk, ih h, replaceFirst, if_neg hk]
        rfl
  rw [update, hjobs]
  rfl

/-- The new record is found. -/
theorem find?_replace (h : s.find? id = some i) (hj : j.id = id) :
    (s.replace id j).find? id = some j := by
  obtain ⟨jobs⟩ := s
  induction jobs with
  | nil => cases h
  | cons k jobs ih =>
    rw [find?, List.find?_cons] at h
    by_cases hk : k.id = id
    · rw [replace, replaceFirst, if_pos hk, find?, List.find?_cons, beq_iff_eq.mpr hj]
    · rw [beq_false_of_ne hk] at h
      rw [replace, replaceFirst, if_neg hk, find?, List.find?_cons, beq_false_of_ne hk]
      exact ih h

/-- Of two replacements the later counts. -/
theorem replace_replace (s : Store) (hj : j.id = id) (j' : Job) :
    (s.replace id j).replace id j' = s.replace id j' := by
  obtain ⟨jobs⟩ := s
  refine congrArg Store.mk ?_
  show replaceFirst id j' (replaceFirst id j jobs) = replaceFirst id j' jobs
  induction jobs with
  | nil => rfl
  | cons k jobs ih =>
    by_cases hk : k.id = id
    · rw [replaceFirst, if_pos hk, replaceFirst, if_pos hj, replaceFirst, if_pos hk]
    · rw [replaceFirst, if_neg hk, replaceFirst, if_neg hk, ih, replaceFirst, if_neg hk]

theorem find?_replace_of_ne (s : Store) (hj : j.id = id) {other : JobId} (hne : other ≠ id) :
    (s.replace id j).find? other = s.find? other := by
  obtain ⟨jobs⟩ := s
  induction jobs with
  | nil => rfl
  | cons k jobs ih =>
    have hskip : (j.id == other) = false := beq_false_of_ne fun h => hne (h.symm.trans hj)
    by_cases hk : k.id = id
    · have hskip' : (k.id == other) = false := beq_false_of_ne fun h => hne (h.symm.trans hk)
      rw [replace, replaceFirst, if_pos hk, find?, find?, List.find?_cons, List.find?_cons, hskip, hskip']
    · rw [replace, replaceFirst, if_neg hk, find?, find?, List.find?_cons, List.find?_cons]
      cases k.id == other with
      | true => rfl
      | false => exact ih

end Store

/-! ### Services that never fail -/

/-- **No use of the services fails, and nobody else uses them**: each does what it is for. -/
structure Services.Reliable {σ : Type} (v : Services σ) (store : σ → Store) (broker : σ → Broker) :
    Prop where
  onStore : ∀ {α : Type} (call : StoreCall α) (s : σ), broker (v.store call s).2 = broker s ∧
    ∃ now fresh, (v.store call s).1 = ((store s).perform now fresh call).1 ∧
      store (v.store call s).2 = ((store s).perform now fresh call).2
  onBroker : ∀ {α : Type} (call : BrokerCall α) (s : σ), store (v.broker call s).2 = store s ∧
    (v.broker call s).1 = ((broker s).perform call).1 ∧
      broker (v.broker call s).2 = ((broker s).perform call).2
  onClock : ∀ s, store (v.clock s).2 = store s ∧ broker (v.clock s).2 = broker s
  onNote : ∀ n s, store (v.note n s) = store s ∧ broker (v.note n s) = broker s

/-- What a use of the store gives back and leaves behind. -/
theorem Services.Reliable.store_eq {σ : Type} {v : Services σ} {store : σ → Store} {broker : σ → Broker}
    (hv : v.Reliable store broker) {α : Type} (call : StoreCall α) (s : σ) :
    ∃ now fresh s', v.store call s = (((store s).perform now fresh call).1, s') ∧
      store s' = ((store s).perform now fresh call).2 ∧ broker s' = broker s := by
  obtain ⟨hbroker, now, fresh, hresult, hstore⟩ := hv.onStore call s
  exact ⟨now, fresh, _, Prod.ext hresult rfl, hstore, hbroker⟩

/-- The services of one process never fail. -/
theorem Backend.reliable_services : services.Reliable Backend.store Backend.broker where
  onStore := fun _ b => ⟨rfl, b.time, b.nextId, rfl, rfl⟩
  onBroker := fun _ _ => ⟨rfl, rfl, rfl⟩
  onClock := fun _ => ⟨rfl, rfl⟩
  onNote := fun _ _ => ⟨rfl, rfl⟩

namespace Execution

variable {σ ω : Type} {v : Services σ} {store : σ → Store} {broker : σ → Broker} {id : JobId}
  {j : Job} {s : σ}

/-! ### Step by step -/

/-- An execution that does not rest takes its next step. -/
theorem settle_eq_step {available : List String} {x : Execution} (h : x.isResting = false) (s : σ) :
    settle v available x s = settle v available (x.step v available s).1 (x.step v available s).2 := by
  rw [settle]
  split
  · next hr =>
    rw [h] at hr
    cases hr
  · rfl

theorem settle_of_isResting {available : List String} {x : Execution} (h : x.isResting = true) (s : σ) :
    settle v available x s = (x, s) := by
  rw [settle]
  split
  · rfl
  · next hr =>
    rw [h] at hr
    cases hr

section Steps

variable (hv : v.Reliable store broker)
include hv

/-- A message of a job that is not there or not scheduled is skipped. -/
theorem settle_loading_of_not_ready (available : List String)
    (h : ∀ j, (store s).find? id = some j → j.status ≠ .scheduled) :
    ∃ s', settle v available (loading id) s = (finished .skipped, s') ∧
      store s' = store s ∧ broker s' = broker s := by
  obtain ⟨now, fresh, s₁, hcall, hstore, hbroker⟩ := hv.store_eq (.load id) s
  simp only [Store.perform] at hcall hstore
  rw [settle_eq_step rfl]
  simp only [step, hcall]
  cases hj : (store s).find? id with
  | none =>
    obtain ⟨hnoted, hkept⟩ := hv.onNote (.jobMissing id) s₁
    simp only [judged]
    exact ⟨_, settle_of_isResting rfl _, hnoted.trans hstore, hkept.trans hbroker⟩
  | some j =>
    simp only [judged, if_neg (h j hj)]
    exact ⟨_, settle_of_isResting rfl _, hstore, hbroker⟩

/-- A job that is scheduled starts. -/
theorem settle_loading_of_ready (available : List String) (hj : (store s).find? id = some j)
    (h : j.status = .scheduled) :
    ∃ now s', settle v available (loading id) s = settle v available (engaged available j) s' ∧
      store s' = (store s).replace id (j.started now) ∧ broker s' = broker s := by
  obtain ⟨_, _, s₁, hload, hstore₁, hbroker₁⟩ := hv.store_eq (.load id) s
  obtain ⟨now, _, s₂, hstart, hstore₂, hbroker₂⟩ := hv.store_eq (.start j.id) s₁
  obtain rfl : j.id = id := Store.id_of_find? hj
  have hstarted : (store s).start j.id now = .ok ((store s).replace j.id (j.started now)) :=
    Store.update_of_find? hj (if_pos h)
  simp only [Store.perform, hj] at hload hstore₁
  simp only [Store.perform, hstore₁, hstarted, Store.outcome] at hstart hstore₂
  refine ⟨now, s₂, ?_, hstore₂, hbroker₂.trans hbroker₁⟩
  rw [settle_eq_step rfl]
  simp only [step, hload, judged, if_pos h]
  rw [settle_eq_step rfl]
  simp only [step, hstart]

/-- A result is stored. -/
theorem settle_completing (available : List String) (hj : (store s).find? id = some j) (result : Json)
    (elapsed : Span) :
    ∃ now s', settle v available (completing id result elapsed) s = (finished (.completed elapsed), s') ∧
      store s' = (store s).replace id (j.completed (withElapsed result elapsed) now) ∧
      broker s' = broker s := by
  obtain ⟨now, _, s', hcall, hstore, hbroker⟩ :=
    hv.store_eq (.complete id (withElapsed result elapsed)) s
  have hstored : (store s).complete id (withElapsed result elapsed) now
      = .ok ((store s).replace id (j.completed (withElapsed result elapsed) now)) :=
    Store.update_of_find? hj rfl
  simp only [Store.perform, hstored, Store.outcome] at hcall hstore
  refine ⟨now, s', ?_, hstore, hbroker⟩
  rw [settle_eq_step rfl]
  simp only [step, hcall]
  exact settle_of_isResting rfl _

end Steps

/-- What is left of a store and a broker when a failed attempt of a job has been recorded: the job is
given back, or it is failed and there is one more dead letter. -/
def Recorded (id : JobId) (error : String) (j : Job) (st st' : Store) (br br' : Broker) :
    RetryDecision → Prop
  | .retry n _ => st' = st.replace id (j.returned n error) ∧ br' = br
  | .deadLetter n => ∃ now sent, st' = st.replace id (j.exhausted n error now) ∧
      br' = { br with deadLetters := br.deadLetters ++ [(j.deadLetter error n sent).text] }

section Failing

variable (hv : v.Reliable store broker)
include hv

theorem settle_givingBack (available : List String) (hj : (store s).find? id = some j)
    (e error : String) (n max : UInt16) :
    ∃ s', settle v available (recovering e (.givingBack id error n max)) s
        = (finished (.failed e (some (.retry n max))), s') ∧
      Recorded id error j (store s) (store s') (broker s) (broker s') (.retry n max) := by
  obtain ⟨now, _, s', hcall, hstore, hbroker⟩ := hv.store_eq (.giveBack id n error) s
  have hreturned : (store s).giveBack id n error = .ok ((store s).replace id (j.returned n error)) :=
    Store.update_of_find? hj rfl
  simp only [Store.perform, hreturned, Store.outcome] at hcall hstore
  refine ⟨s', ?_, hstore, hbroker⟩
  rw [settle_eq_step rfl]
  simp only [step, FailureRecording.step, hcall]
  exact settle_of_isResting rfl _

theorem settle_exhausting (available : List String) (hj : (store s).find? id = some j)
    (e error : String) (n : UInt16) :
    ∃ s', settle v available (recovering e (.exhausting j error n)) s
        = (finished (.failed e (some (.deadLetter n))), s') ∧
      Recorded id error j (store s) (store s') (broker s) (broker s') (.deadLetter n) := by
  obtain rfl : j.id = id := Store.id_of_find? hj
  obtain ⟨now, _, s₁, hcall, hstore, hbroker⟩ := hv.store_eq (.exhaust j.id n error) s
  have hfailed : (store s).exhaust j.id n error now
      = .ok ((store s).replace j.id (j.exhausted n error now)) := Store.update_of_find? hj rfl
  simp only [Store.perform, hfailed, Store.outcome] at hcall hstore
  obtain ⟨hstore₂, hbroker₂⟩ := hv.onClock s₁
  rcases hclock : v.clock s₁ with ⟨sent, s₂⟩
  rw [hclock] at hstore₂ hbroker₂
  obtain ⟨hstore₃, hsent, hbroker₃⟩ := hv.onBroker (.pushDeadLetter (j.deadLetter error n sent)) s₂
  rcases hpush : v.broker (.pushDeadLetter (j.deadLetter error n sent)) s₂ with ⟨result, s₃⟩
  rw [hpush] at hstore₃ hsent hbroker₃
  obtain rfl : result = .ok () := hsent
  refine ⟨s₃, ?_, now, sent, hstore₃.trans (hstore₂.trans hstore), ?_⟩
  · rw [settle_eq_step rfl]
    simp only [step, FailureRecording.step, hcall, recovered]
    rw [settle_eq_step rfl]
    simp only [step, FailureRecording.step, hclock, hpush, recovered]
    exact settle_of_isResting rfl _
  · rw [← hbroker, ← hbroker₂]
    exact hbroker₃

/-- **A failed attempt of a running job is recorded**, as its counts decide. -/
theorem settle_failing (available : List String) (hj : (store s).find? id = some j)
    (h : j.status = .running) (e : ExecutionError) :
    ∃ s', settle v available (failing id e) s
        = (finished (.failed e.message (some (.decide j.retryCount j.maxRetries))), s') ∧
      Recorded id e.message j (store s) (store s') (broker s) (broker s')
        (.decide j.retryCount j.maxRetries) := by
  obtain ⟨_, _, s₁, hload, hstore₁, hbroker₁⟩ := hv.store_eq (.load id) s
  simp only [Store.perform, hj] at hload hstore₁
  have hlive : ¬j.status.isTerminal = true := by
    rw [h]
    decide
  rw [failing, settle_eq_step rfl]
  cases hd : RetryDecision.decide j.retryCount j.maxRetries with
  | retry n max =>
    obtain ⟨hnoted, hkept⟩ := hv.onNote (.retrying id n max) s₁
    simp only [step, FailureRecording.step, hload, FailureRecording.judged, if_neg hlive, hd, recovered]
    rw [← hstore₁, ← hnoted] at hj ⊢
    rw [← hbroker₁, ← hkept]
    exact settle_givingBack hv available hj _ _ n max
  | deadLetter n =>
    simp only [step, FailureRecording.step, hload, FailureRecording.judged, if_neg hlive, hd, recovered]
    rw [← hstore₁] at hj ⊢
    rw [← hbroker₁]
    exact settle_exhausting hv available hj _ _ n

end Failing

/-! ### From start to end -/

/-- How an attempt at a job ends, and the handlers' world after it: with a result and the time that it
took, or with an error. -/
def attempt (handlers : HandlerRegistry ω) (job : Job) (w : ω) :
    Except ExecutionError (Json × Span) × ω :=
  match handlers.find? job.jobType with
  | none => (.error (.unknownJobType job.jobType handlers.jobTypes), w)
  | some h =>
    match handle h job.payload w with
    | (.returned result, elapsed, w) => (.ok (result, elapsed), w)
    | (.failed e, _, w) => (.error (.handler e), w)
    | (.panicked message, _, w) => (.error (.panicked message), w)
    | (.cancelled, _, w) => (.error .cancelled, w)

variable {handlers : HandlerRegistry ω} {w w' : ω}

/-- **An attempt succeeds exactly if the handler of the job's type returns a value.** -/
theorem attempt_eq_ok_iff {result : Json} {elapsed : Span} :
    attempt handlers j w = (.ok (result, elapsed), w') ↔
      ∃ h, handlers.find? j.jobType = some h ∧ handle h j.payload w = (.returned result, elapsed, w') := by
  unfold attempt
  cases handlers.find? j.jobType with
  | none =>
    refine ⟨fun h => ?_, fun ⟨_, h, _⟩ => ?_⟩
    · cases h
    · cases h
  | some g =>
    simp only [Option.some.injEq, exists_eq_left']
    rcases handle g j.payload w with ⟨_ | _ | _ | _, slept, w₁⟩ <;> simp [and_assoc]

/-- If the handler has returned a value, then the attempt has ended with it. -/
theorem eq_of_attempt_eq_ok {result result' : Json} {elapsed elapsed' : Span} {h : Handler ω} {w₁ : ω}
    (hattempt : attempt handlers j w = (.ok (result, elapsed), w'))
    (hh : handlers.find? j.jobType = some h)
    (hhandled : handle h j.payload w = (.returned result', elapsed', w₁)) :
    result' = result ∧ elapsed' = elapsed ∧ w₁ = w' := by
  have hsame := hattempt.symm.trans (attempt_eq_ok_iff.mpr ⟨h, hh, hhandled⟩)
  obtain ⟨hok, hworld⟩ := Prod.mk.inj hsame
  obtain ⟨hresult, helapsed⟩ := Prod.mk.inj (Except.ok.inj hok)
  exact ⟨hresult.symm, helapsed.symm, hworld.symm⟩

/-- After a failed attempt no handler has returned a value. -/
theorem handle_ne_returned {e : ExecutionError} {h : Handler ω}
    (hattempt : attempt handlers j w = (.error e, w')) (hh : handlers.find? j.jobType = some h)
    (result : Json) : (handle h j.payload w).1 ≠ .returned result := by
  intro hreturned
  have hhandled : handle h j.payload w
      = (.returned result, (handle h j.payload w).2.1, (handle h j.payload w).2.2) :=
    Prod.ext hreturned rfl
  cases (Prod.mk.inj (hattempt.symm.trans (attempt_eq_ok_iff.mpr ⟨h, hh, hhandled⟩))).1

/-- What follows from the counts does not depend on when the job has started. -/
theorem Recorded.of_started {error : String} {st st' : Store} {br br' : Broker} {now : Timestamp}
    {d : RetryDecision} (hj : j.id = id)
    (h : Recorded id error (j.started now) (st.replace id (j.started now)) st' br br' d) :
    Recorded id error (j.started now) st st' br br' d := by
  have hid : (j.started now).id = id := hj
  cases d with
  | retry n max =>
    obtain ⟨rfl, hbr⟩ := h
    exact ⟨Store.replace_replace st hid _, hbr⟩
  | deadLetter n =>
    obtain ⟨later, sent, rfl, hbr⟩ := h
    exact ⟨later, sent, Store.replace_replace st hid _, hbr⟩

/-- A job whose type has a handler is worked on. -/
theorem engaged_of_find? {h : Handler ω} (hh : handlers.find? j.jobType = some h) :
    engaged handlers.jobTypes j = working j := by
  refine if_pos ?_
  rw [HandlerRegistry.jobTypes, Dictionary.contains_names]
  exact Option.isSome_iff_exists.mpr ⟨h, hh⟩

/-- A job whose type has no handler has failed. -/
theorem engaged_of_find?_eq_none (hh : handlers.find? j.jobType = none) :
    engaged handlers.jobTypes j = failing j.id (.unknownJobType j.jobType handlers.jobTypes) := by
  refine if_neg ?_
  rw [HandlerRegistry.jobTypes, Dictionary.contains_names, Dictionary.contains]
  rw [HandlerRegistry.find?] at hh
  rw [hh]
  exact Bool.false_ne_true

section Perform

variable (hv : v.Reliable store broker)
include hv

/-- An execution of a job that is not there or not scheduled. -/
theorem perform_of_not_ready (handlers : HandlerRegistry ω)
    (h : ∀ j, (store s).find? id = some j → j.status ≠ .scheduled) (w : ω) :
    ∃ s', perform v handlers id s w = (finished .skipped, s', w) ∧
      store s' = store s ∧ broker s' = broker s := by
  obtain ⟨s', hsettled, hstore, hbroker⟩ := settle_loading_of_not_ready hv handlers.jobTypes h
  refine ⟨s', ?_, hstore, hbroker⟩
  simp only [perform, hsettled, work?]

/-- **An execution of a scheduled job whose attempt succeeds.** -/
theorem perform_of_ok (hj : (store s).find? id = some j) (h : j.status = .scheduled) {result : Json}
    {elapsed : Span} (hattempt : attempt handlers j w = (.ok (result, elapsed), w')) :
    ∃ now later s', perform v handlers id s w = (finished (.completed elapsed), s', w') ∧
      store s' = (store s).replace id ((j.started now).completed (withElapsed result elapsed) later) ∧
      broker s' = broker s := by
  obtain ⟨g, hg, hhandled⟩ := attempt_eq_ok_iff.mp hattempt
  obtain ⟨now, s₁, hsettled, hstore₁, hbroker₁⟩ := settle_loading_of_ready hv handlers.jobTypes hj h
  obtain rfl : j.id = id := Store.id_of_find? hj
  have hrunning : (store s₁).find? j.id = some (j.started now) := by
    rw [hstore₁]
    exact Store.find?_replace hj rfl
  obtain ⟨later, s', hcompleted, hstore, hbroker⟩ :=
    settle_completing hv handlers.jobTypes hrunning result elapsed
  refine ⟨now, later, s', ?_, ?_, hbroker.trans hbroker₁⟩
  · rw [engaged_of_find? hg, settle_of_isResting (x := working j) rfl] at hsettled
    simp only [perform, hsettled, work?, hg, hhandled, resume_working, ended, hcompleted]
  · rw [hstore, hstore₁]
    exact Store.replace_replace _ (Job.started_id now j) _

/-- **An execution of a scheduled job whose attempt fails.** -/
theorem perform_of_error (hj : (store s).find? id = some j) (h : j.status = .scheduled)
    {e : ExecutionError} (hattempt : attempt handlers j w = (.error e, w')) :
    ∃ now s', perform v handlers id s w
        = (finished (.failed e.message (some (.decide j.retryCount j.maxRetries))), s', w') ∧
      Recorded id e.message (j.started now) (store s) (store s') (broker s) (broker s')
        (.decide j.retryCount j.maxRetries) := by
  obtain ⟨now, s₁, hsettled, hstore₁, hbroker₁⟩ := settle_loading_of_ready hv handlers.jobTypes hj h
  obtain rfl : j.id = id := Store.id_of_find? hj
  have hrunning : (store s₁).find? j.id = some (j.started now) := by
    rw [hstore₁]
    exact Store.find?_replace hj rfl
  obtain ⟨s', hfailed, hrecorded⟩ := settle_failing hv handlers.jobTypes hrunning rfl e
  rw [hstore₁, hbroker₁] at hrecorded
  refine ⟨now, s', ?_, hrecorded.of_started rfl⟩
  unfold attempt at hattempt
  cases hg : handlers.find? j.jobType with
  | none =>
    rw [hg] at hattempt
    obtain ⟨he, rfl⟩ := Prod.mk.inj hattempt
    obtain rfl := Except.error.inj he
    rw [engaged_of_find?_eq_none hg, hfailed] at hsettled
    simp only [perform, hsettled, work?]
    rfl
  | some g =>
    rw [engaged_of_find? hg, settle_of_isResting (x := working j) rfl] at hsettled
    simp only [hg] at hattempt
    simp only [perform, hsettled, work?, hg]
    -- each way in which the handler can end but with a value
    generalize handle g j.payload w = ending at hattempt ⊢
    rcases ending with ⟨result | problem | message | _, slept, w₁⟩
    · cases (Prod.mk.inj hattempt).1
    all_goals
      obtain ⟨he, rfl⟩ := Prod.mk.inj hattempt
      obtain rfl := Except.error.inj he
      simp only [resume_working, ended, hfailed]
      rfl

end Perform

/-! ### Outcomes -/

/-- **What is stored of a result**: an object keeps all its fields but the one for the time that the
handler took, which is set; anything else becomes the field `output`. -/
def Stored (result : Json) (elapsed : Span) (stored : Json) : Prop :=
  ∃ fields, stored = .object fields ∧
    Dictionary.find? elapsedKey fields = some (Json.ofDouble (elapsedSeconds elapsed)) ∧
    ∀ key, key ≠ elapsedKey → Dictionary.find? key fields =
      if result.isObject then result.field? key else if key = "output" then some result else none

theorem find?_output (key : String) (result : Json) :
    Dictionary.find? key [("output", result)] = if key = "output" then some result else none := by
  by_cases h : key = "output"
  · rw [if_pos h, Dictionary.find?, if_pos h.symm]
  · rw [if_neg h, Dictionary.find?, if_neg (Ne.symm h), Dictionary.find?_nil]

theorem stored_withElapsed (result : Json) (elapsed : Span) :
    Stored result elapsed (withElapsed result elapsed) := by
  refine ⟨_, rfl, Dictionary.find?_insert_self .., fun key hkey => ?_⟩
  rw [Dictionary.find?_insert_of_ne hkey]
  cases result with
  | object fields => rfl
  | _ => exact find?_output key _

-- a second and the rest of the time are rounded before they are added, which takes this time down
example : (elapsedSeconds ⟨1172500000⟩).jsonText = "1.172" := by decide +kernel

/-- The record of a job that an execution is going to start. -/
def Startable (st : Store) (id : JobId) (j : Job) : Prop :=
  st.find? id = some j ∧ j.status = .scheduled

/-- **The outcome of an execution matches what it did**: the store, the broker and the handlers' world
before and after it. -/
structure Matches (handlers : HandlerRegistry ω) (id : JobId) (st st' : Store) (br br' : Broker)
    (w w' : ω) (o : ExecutionOutcome) : Prop where
  /-- A message is skipped exactly if its job is not there or not scheduled. -/
  skipped_iff : o = .skipped ↔ ∀ j, ¬Startable st id j
  /-- Then nothing has changed, and no handler has touched the world. -/
  skipped : o = .skipped → st' = st ∧ br' = br ∧ w' = w
  /-- A job is completed exactly if the handler of its type returned a value on its payload. -/
  completed_iff : ∀ elapsed, o = .completed elapsed ↔ ∃ j h result w₁, Startable st id j ∧
    handlers.find? j.jobType = some h ∧ handle h j.payload w = (.returned result, elapsed, w₁)
  /-- Then the value is stored with the time that the handler took. -/
  completed : ∀ j h result elapsed w₁, Startable st id j → handlers.find? j.jobType = some h →
    handle h j.payload w = (.returned result, elapsed, w₁) → ∃ now later stored,
      Stored result elapsed stored ∧
      st' = st.replace id ((j.started now).completed stored later) ∧ br' = br ∧ w' = w₁
  /-- An attempt has failed exactly otherwise. -/
  failed_iff : (∃ error decision, o = .failed error decision) ↔ ∃ j, Startable st id j ∧
    ∀ h, handlers.find? j.jobType = some h → ∀ result, (handle h j.payload w).1 ≠ .returned result
  /-- Then the error and what the counts decide are reported and recorded. -/
  failed : ∀ error decision, o = .failed error decision → ∃ j e now, Startable st id j ∧
    attempt handlers j w = (.error e, w') ∧ error = e.message ∧
    decision = some (.decide j.retryCount j.maxRetries) ∧
    Recorded id error (j.started now) st st' br br' (.decide j.retryCount j.maxRetries)
  /-- No other record has changed. -/
  others : ∀ other, other ≠ id → st'.find? other = st.find? other

/-- Recording a failed attempt leaves the other records alone. -/
theorem Recorded.find?_of_ne {error : String} {st st' : Store} {br br' : Broker} {d : RetryDecision}
    (h : Recorded id error j st st' br br' d) (hj : j.id = id) {other : JobId} (hne : other ≠ id) :
    st'.find? other = st.find? other := by
  cases d with
  | retry n max =>
    obtain ⟨rfl, -⟩ := h
    have hid : (j.returned n error).id = id := hj
    exact Store.find?_replace_of_ne st hid hne
  | deadLetter n =>
    obtain ⟨later, sent, rfl, -⟩ := h
    have hid : (j.exhausted n error later).id = id := hj
    exact Store.find?_replace_of_ne st hid hne

section Cases

variable {st st' : Store} {br br' : Broker}

/-- Nothing is done for a job that is not there or not scheduled. -/
theorem matches_of_skipped (h : ∀ j, ¬Startable st id j) :
    Matches handlers id st st br br w w .skipped where
  skipped_iff := iff_of_true rfl h
  skipped _ := ⟨rfl, rfl, rfl⟩
  completed_iff _ := iff_of_false nofun fun ⟨j, _, _, _, hj, _⟩ => h j hj
  completed j _ _ _ _ hj := absurd hj (h j)
  failed_iff := iff_of_false nofun fun ⟨j, hj, _⟩ => h j hj
  failed := nofun
  others _ _ := rfl

/-- The value of the handler is stored. -/
theorem matches_of_completed (hj : Startable st id j) {result : Json} {elapsed : Span}
    (hattempt : attempt handlers j w = (.ok (result, elapsed), w')) {now later : Timestamp}
    (hst : st' = st.replace id ((j.started now).completed (withElapsed result elapsed) later)) :
    Matches handlers id st st' br br w w' (.completed elapsed) where
  skipped_iff := iff_of_false nofun fun h => h j hj
  skipped := nofun
  completed_iff elapsed' := by
    refine ⟨fun he => ?_, fun ⟨j', h, result', w₁, hj', hh, hhandled⟩ => ?_⟩
    · obtain rfl := ExecutionOutcome.completed.inj he
      obtain ⟨h, hh, hhandled⟩ := attempt_eq_ok_iff.mp hattempt
      exact ⟨j, h, result, w', hj, hh, hhandled⟩
    · obtain rfl := Option.some.inj (hj.1.symm.trans hj'.1)
      obtain ⟨-, rfl, -⟩ := eq_of_attempt_eq_ok hattempt hh hhandled
      rfl
  completed j' h result' elapsed' w₁ hj' hh hhandled := by
    obtain rfl := Option.some.inj (hj.1.symm.trans hj'.1)
    obtain ⟨rfl, rfl, rfl⟩ := eq_of_attempt_eq_ok hattempt hh hhandled
    exact ⟨now, later, _, stored_withElapsed _ _, hst, rfl, rfl⟩
  failed_iff := by
    refine iff_of_false nofun fun ⟨j', hj', hnone⟩ => ?_
    obtain rfl := Option.some.inj (hj.1.symm.trans hj'.1)
    obtain ⟨h, hh, hhandled⟩ := attempt_eq_ok_iff.mp hattempt
    exact hnone h hh result (congrArg Prod.fst hhandled)
  failed := nofun
  others other hne := by
    have hid : ((j.started now).completed (withElapsed result elapsed) later).id = id :=
      (Store.id_of_find? hj.1 :)
    rw [hst]
    exact Store.find?_replace_of_ne st hid hne

/-- The failed attempt is recorded. -/
theorem matches_of_failed (hj : Startable st id j) {e : ExecutionError}
    (hattempt : attempt handlers j w = (.error e, w')) {now : Timestamp}
    (hrecorded : Recorded id e.message (j.started now) st st' br br'
      (.decide j.retryCount j.maxRetries)) :
    Matches handlers id st st' br br' w w'
      (.failed e.message (some (.decide j.retryCount j.maxRetries))) where
  skipped_iff := iff_of_false nofun fun h => h j hj
  skipped := nofun
  completed_iff elapsed := by
    refine iff_of_false nofun fun ⟨j', h, result, w₁, hj', hh, hhandled⟩ => ?_
    obtain rfl := Option.some.inj (hj.1.symm.trans hj'.1)
    exact handle_ne_returned hattempt hh result (congrArg Prod.fst hhandled)
  completed j' h result elapsed w₁ hj' hh hhandled := by
    obtain rfl := Option.some.inj (hj.1.symm.trans hj'.1)
    exact absurd (congrArg Prod.fst hhandled) (handle_ne_returned hattempt hh result)
  failed_iff := iff_of_true ⟨_, _, rfl⟩ ⟨j, hj, fun _ hh => handle_ne_returned hattempt hh⟩
  failed error decision ho := by
    obtain ⟨rfl, rfl⟩ := ExecutionOutcome.failed.inj ho
    exact ⟨j, e, now, hj, hattempt, rfl, rfl, hrecorded⟩
  others other hne := hrecorded.find?_of_ne (Store.id_of_find? hj.1 :) hne

end Cases

/-- A handler that counts its runs and returns a text. -/
def counting : Handler Nat := fun _ runs => (.ended (.returned (.string "done")), runs + 1)

/-- The record of a scheduled job. -/
def awaited : Job :=
  (({ name := "weekly", jobType := "report" } : NewJob).record (.ofNat 1) ⟨0, 0⟩).claimed ⟨1, 0⟩

end Execution

end JobDispatch
