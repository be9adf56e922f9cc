import JobDispatch.Proofs.Job.RoundTrip
import JobDispatch.Proofs.Json.Injective

/-!
# What the message of a ticket determines

The message of a ticket is the text of an object with five fields, and a text is that of one object only.
The id of the job, its type and its priority can be told from the message whatever the payload is, and
also the other two if validation has let them through: a duration that is finite and a payload that can be
held.  So a queue of messages says as much as the list of tickets that it is made from.

## Main definitions

* `Ticket.idOf?` — the id that a message carries.

## Main results

* `Job.eq_ticket_iff` — the fields of the ticket of a job.
* `Ticket.idOf?_text` — **a message carries the id of its job**, even if its payload cannot be read.
* `Ticket.heading_eq_of_text_eq` — a message determines the id, the type and the priority.
* `Ticket.text_injective` — **no two tickets that have been let through have one message.**
-/

namespace JobDispatch

/-- The fields of the ticket of a job. -/
theorem Job.eq_ticket_iff {t : Ticket} {j : Job} :
    t = j.ticket ↔ t.jobId = j.id ∧ t.jobType = j.jobType ∧ t.priority = j.priority ∧
      t.estimatedDuration = j.estimatedDuration ∧ t.payload = j.payload := by
  cases t
  simp [Job.ticket]

namespace Ticket

open Json.Document (required? documents)

/-! ### The id -/

/-- **The id that a message carries.**  The other fields are not looked at. -/
def idOf? (message : String) : Option JobId :=
  (Json.Document.ofChars? message.toList).bind fun d =>
    (Json.Document.record? fieldNames Json.Document.maxDepth d).bind fun p =>
      required? JobId.read? "job_id" p.2

/-- **A message carries the id of its job**, even if its payload cannot be read. -/
@[simp] theorem idOf?_text (t : Ticket) : idOf? t.text = some t.jobId := by
  have hnames : (t.fields.map Prod.fst).Nodup := by simp [fields]
  rw [idOf?, text, String.toList_ofList, ofChars?_chars, Option.bind_some, maxDepth_eq,
    Json.Document.record?_fieldsDocument (by simp [fields, fieldNames]) hnames, Option.bind_some,
    Json.Document.required?_documents (.string t.jobId.text) hnames (by simp [fields]), Json.document,
    JobId.read?_written]

/-- A queue of messages carries the ids of its tickets. -/
theorem filterMap_idOf?_map_text (ts : List Ticket) :
    (ts.map text).filterMap idOf? = ts.map jobId := by
  rw [List.filterMap_map, ← List.filterMap_eq_map]
  exact List.filterMap_congr fun t _ => idOf?_text t

/-- The messages of a job on a queue are those of its tickets. -/
theorem filter_idOf?_map_text (ts : List Ticket) (id : JobId) :
    (ts.map text).filter (fun m => decide (idOf? m = some id))
      = (ts.filter fun t => decide (t.jobId = id)).map text := by
  rw [List.filter_map]
  congr 1
  refine List.filter_congr fun t _ => ?_
  simp only [Function.comp, idOf?_text, Option.some.injEq]

/-! ### All fields -/

variable {t t' : Ticket}

/-- Tickets with one message agree in what their fields are written as. -/
theorem documents_eq_of_text_eq (h : t.text = t'.text) :
    (Json.string t.jobType).document = (Json.string t'.jobType).document ∧
      (Json.ofNat t.priority.toNat).document = (Json.ofNat t'.priority.toNat).document ∧
      (Json.number (.double t.estimatedDuration)).document
        = (Json.number (.double t'.estimatedDuration)).document ∧
      t.payload.document = t'.payload.document := by
  have hdocument : Json.Document.ofChars? t.chars = Json.Document.ofChars? t'.chars := by
    rw [← String.toList_ofList (l := t.chars), ← text, h, text, String.toList_ofList]
  rw [ofChars?_chars, ofChars?_chars] at hdocument
  have hfields := Json.Document.object.inj (Option.some.inj hdocument)
  simp only [fields, Json.fieldsDocument, List.cons.injEq, Prod.mk.injEq, true_and, and_true] at hfields
  exact hfields.2

/-- **A message determines the id, the type and the priority**, whatever the other two fields are. -/
theorem heading_eq_of_text_eq (h : t.text = t'.text) :
    t.jobId = t'.jobId ∧ t.jobType = t'.jobType ∧ t.priority = t'.priority := by
  obtain ⟨htype, hpriority, -, -⟩ := documents_eq_of_text_eq h
  have hid : some t.jobId = some t'.jobId := by rw [← idOf?_text, ← idOf?_text, h]
  have htype := congrArg Json.Document.text? htype
  have hpriority := congrArg priority? hpriority
  rw [Json.Document.text?_document, Json.Document.text?_document] at htype
  rw [priority?_document, priority?_document] at hpriority
  exact ⟨Option.some.inj hid, Option.some.inj htype, Option.some.inj hpriority⟩

/-- **No two tickets that have been let through have one message**: their durations are finite and their
payloads can be held. -/
theorem text_injective (hx : t.estimatedDuration.isFinite = true) (hv : t.payload.WellFormed)
    (hx' : t'.estimatedDuration.isFinite = true) (hv' : t'.payload.WellFormed)
    (h : t.text = t'.text) : t = t' := by
  obtain ⟨hid, htype, hpriority⟩ := heading_eq_of_text_eq h
  obtain ⟨-, -, hduration, hpayload⟩ := documents_eq_of_text_eq h
  have hnumber : ∀ {x : Double}, x.isFinite = true → (Json.number (.double x)).WellFormed := by
    intro x hx
    rw [Json.WellFormed]
    exact hx
  have hduration : t.estimatedDuration = t'.estimatedDuration :=
    JsonNumber.double.inj (Json.number.inj (Json.document_injective (hnumber hx) (hnumber hx') hduration))
  have hpayload := Json.document_injective hv hv' hpayload
  cases t
  cases t'
  simp only at hid htype hpriority hduration hpayload
  rw [hid, htype, hpriority, hduration, hpayload]

end Ticket

end JobDispatch
