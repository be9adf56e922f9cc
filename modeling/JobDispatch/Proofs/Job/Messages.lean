import JobDispatch.Broker.Basic
import JobDispatch.Proofs.Job.Id
import JobDispatch.Proofs.Json.FirstField

/-!
# Whose message it is

The id of its job is the first field of every message, and so it survives reading whatever the other
fields are: a message may be unreadable, but it is never read as the ticket of another job.

## Main results

* `Ticket.jobId_of_ofMessage_text` — **a message that can be read is read as a ticket of its job.**
-/

namespace JobDispatch

open Json (stringChars pieceOf)
open Json.Document (required?)

/-- A record whose first field is an id has that id. -/
theorem JobId.required?_of_record? {names : List String} {room : Nat} {name : String} {id id' : JobId}
    {d : Json.Document} {p : Nat × List (String × Json.Document)} {r : List Char}
    (hn : name ∈ names)
    (hd : Json.Document.ofChars? ('\x7b' :: (stringChars name ++ ':' :: (id.written ++ ',' :: r)))
      = some d)
    (hp : Json.Document.record? names room d = some p)
    (hid : required? JobId.read? name p.2 = some id') : id' = id := by
  obtain ⟨fields, rfl⟩ := Json.Document.firstField_ofChars? hd
  have hm := Json.Document.member?_record? hn hp
  rw [required?, hm, Option.bind_some, JobId.read?_written] at hid
  exact (Option.some.inj hid).symm

namespace Ticket

/-- The id of the job comes first. -/
theorem chars_eq (t : Ticket) : ∃ r, t.chars
    = '\x7b' :: (stringChars "job_id" ++ ':' :: (t.jobId.written ++ ',' :: r)) := by
  apply Exists.intro
  simp only [chars, Json.recordChars, Json.memberChars, List.flatMap_cons, List.append_assoc,
    List.cons_append]
  rfl

/-- **A message that can be read is read as a ticket of its job.** -/
theorem jobId_of_ofMessage_text [Json.Dialect] {t t' : Ticket} (h : ofMessage t.text = .ok t') :
    t'.jobId = t.jobId := by
  rw [ofMessage] at h
  split at h
  · next read hr =>
    obtain rfl := Except.ok.inj h
    rw [Json.decode?, text, String.toList_ofList] at hr
    obtain ⟨d, hd, hr⟩ := Option.bind_eq_some_iff.mp hr
    obtain ⟨r, hc⟩ := chars_eq t
    rw [hc] at hd
    -- the record is read, and then its first field
    obtain ⟨p, hp, hr⟩ := Option.bind_eq_some_iff.mp hr
    obtain ⟨id, hid, hr⟩ := Option.bind_eq_some_iff.mp hr
    have hsame := JobId.required?_of_record? (by decide) hd hp hid
    simp only [Option.bind_eq_bind, Option.bind_eq_some_iff, Option.pure_def, Option.some.injEq] at hr
    obtain ⟨_, -, _, -, _, -, _, -, rfl⟩ := hr
    exact hsame
  · exact absurd h (by simp)

end Ticket

/-- A message that cannot be read is thrown away as what it is. -/
theorem Ticket.ofMessage_error [Json.Dialect] {message : String} {e : BrokerError}
    (h : Ticket.ofMessage message = .error e) : e = .decoding message := by
  rw [Ticket.ofMessage] at h
  split at h
  · exact absurd h (by simp)
  · exact (Except.error.inj h).symm

end JobDispatch
