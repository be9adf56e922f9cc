import JobDispatch.Job.Basic

/-!
# What is set stays set

Every transition of a job writes a point in time only if it is not set yet.

## Main definitions

* `Job.Keeps` — the points in time of one record are still those of another, as far as they were set.

## Main results

* `Job.keeps_claimed`, `Job.keeps_unclaimed`, `Job.keeps_started`, `Job.keeps_completed`,
  `Job.keeps_returned`, `Job.keeps_exhausted`, `Job.keeps_cancelled` — every transition keeps what is
  set.
-/

namespace JobDispatch

namespace Job

/-- **What is set stays set.** -/
structure Keeps (j j' : Job) : Prop where
  createdAt : j'.createdAt = j.createdAt
  scheduledAt : ∀ t, j.scheduledAt = some t → j'.scheduledAt = some t
  startedAt : ∀ t, j.startedAt = some t → j'.startedAt = some t
  completedAt : ∀ t, j.completedAt = some t → j'.completedAt = some t

variable {i j k : Job}

theorem Keeps.refl (j : Job) : j.Keeps j := ⟨rfl, fun _ h => h, fun _ h => h, fun _ h => h⟩

theorem Keeps.trans (h : i.Keeps j) (h' : j.Keeps k) : i.Keeps k where
  createdAt := h'.createdAt.trans h.createdAt
  scheduledAt := fun t ht => h'.scheduledAt t (h.scheduledAt t ht)
  startedAt := fun t ht => h'.startedAt t (h.startedAt t ht)
  completedAt := fun t ht => h'.completedAt t (h.completedAt t ht)

/-- What is written only if it is not set keeps what is. -/
theorem getD_of_eq_some {o : Option Timestamp} {t : Timestamp} (h : o = some t) (now : Timestamp) :
    some (o.getD now) = some t := by
  rw [h, Option.getD_some]

theorem keeps_claimed (now : Timestamp) (j : Job) : j.Keeps (j.claimed now) :=
  ⟨rfl, fun _ h => getD_of_eq_some h now, fun _ h => h, fun _ h => h⟩

theorem keeps_unclaimed (j : Job) : j.Keeps j.unclaimed :=
  ⟨rfl, fun _ h => h, fun _ h => h, fun _ h => h⟩

theorem keeps_started (now : Timestamp) (j : Job) : j.Keeps (j.started now) :=
  ⟨rfl, fun _ h => h, fun _ h => getD_of_eq_some h now, fun _ h => h⟩

theorem keeps_completed (r : Json) (now : Timestamp) (j : Job) : j.Keeps (j.completed r now) :=
  ⟨rfl, fun _ h => h, fun _ h => h, fun _ h => getD_of_eq_some h now⟩

theorem keeps_returned (n : UInt16) (e : String) (j : Job) : j.Keeps (j.returned n e) :=
  ⟨rfl, fun _ h => h, fun _ h => h, fun _ h => h⟩

theorem keeps_exhausted (n : UInt16) (e : String) (now : Timestamp) (j : Job) :
    j.Keeps (j.exhausted n e now) :=
  ⟨rfl, fun _ h => h, fun _ h => h, fun _ h => getD_of_eq_some h now⟩

theorem keeps_cancelled (now : Timestamp) (j : Job) : j.Keeps (j.cancelled now) :=
  ⟨rfl, fun _ h => h, fun _ h => h, fun _ h => getD_of_eq_some h now⟩

end Job

end JobDispatch
