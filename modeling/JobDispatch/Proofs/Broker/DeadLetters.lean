import JobDispatch.Proofs.Broker.Namespaces
import JobDispatch.Proofs.Job.RoundTrip
import JobDispatch.Proofs.Time.RoundTrip

/-!
# The list of dead letters loses nothing

A broker keeps its dead letters as texts and reads all of them when it is asked for any.  Whatever the
names and errors in them are, and however the other things that a broker carries come and go in between,
the letters that were added come back as they were, in the order in which they were added.

## Main definitions

* `DeadLetter.fields` — the fields of a dead letter, with their values.
* `BrokerUse.letters` — the dead letters that are added to one of several brokers.

## Main results

* `DeadLetter.ofEntry_text` — a dead letter is read back from its text.
* `DeadLetter.map_text_injective` — a list of texts is that of one list of dead letters.
* `Broker.deadLetters_transcript` — the texts that a broker keeps are those of the letters added to it.
* `Broker.dead_letters_lossless` — **the list of dead letters is append-only and loses nothing.**
-/

namespace JobDispatch

namespace DeadLetter

open Json.Document (text? required? documents required?_documents text?_document)

variable (e : DeadLetter)

/-! ### The text of a dead letter -/

/-- The fields of a dead letter, with their values. -/
def fields : List (String × Json) :=
  [("job_id", .string e.jobId.text),
   ("job_type", .string e.jobType),
   ("name", .string e.name),
   ("error", .string e.error),
   ("retry_count", Json.ofNat e.retryCount.toNat),
   ("failed_at", .string e.failedAt.text)]

/-- The text of a dead letter is the text of an object. -/
theorem chars_eq_chars : e.chars = (Json.object e.fields).chars := by
  have hretries : natChars e.retryCount.toNat = (Json.ofNat e.retryCount.toNat).chars := by
    simp [natChars, Json.ofNat, Json.numberChars, Json.intChars]
  rw [← Json.recordChars_eq_chars, chars, hretries]
  simp only [fields, List.map_cons, List.map_nil, Json.chars_string]
  rfl

/-- The document that the text of a dead letter writes. -/
theorem ofChars?_chars :
    Json.Document.ofChars? e.chars = some (.object (Json.fieldsDocument e.fields)) := by
  rw [chars_eq_chars, Json.ofChars?_chars, Json.document]

/-- A number of retries is read back. -/
theorem retries?_document (n : UInt16) : retries? (Json.ofNat n.toNat).document = some n := by
  have hlt : n.toNat < 65536 := n.toNat_lt
  rw [retries?, Json.Document.nat?_document (by omega) (by simp only [Nat.pow_eq]; omega),
    Option.map_some, UInt16.ofNat_toNat]

variable {e}

/-- **A dead letter is read back from its text**, whatever its name and its error are. -/
theorem ofEntry_text (he : e.failedAt.Proper) : ofEntry e.text = .ok e := by
  have hnames : (e.fields.map Prod.fst).Nodup := by simp [fields]
  have hid : required? JobId.read? "job_id" (documents e.fields) = some e.jobId := by
    rw [required?_documents (.string e.jobId.text) hnames (by simp [fields]), Json.document,
      JobId.read?_written]
  have htype : required? text? "job_type" (documents e.fields) = some e.jobType := by
    rw [required?_documents (.string e.jobType) hnames (by simp [fields]), text?_document]
  have hname : required? text? "name" (documents e.fields) = some e.name := by
    rw [required?_documents (.string e.name) hnames (by simp [fields]), text?_document]
  have herror : required? text? "error" (documents e.fields) = some e.error := by
    rw [required?_documents (.string e.error) hnames (by simp [fields]), text?_document]
  have hretries : required? retries? "retry_count" (documents e.fields) = some e.retryCount := by
    rw [required?_documents (.ofNat e.retryCount.toNat) hnames (by simp [fields]), retries?_document]
  have htime : required? Timestamp.read? "failed_at" (documents e.fields) = some e.failedAt := by
    rw [required?_documents (.string e.failedAt.text) hnames (by simp [fields]), Json.document,
      Timestamp.read?_written he]
  have hread : Json.decode? read? e.text = some e := by
    rw [Json.decode?, text, String.toList_ofList, ofChars?_chars, Option.bind_some, Ticket.maxDepth_eq,
      read?, Json.Document.record?_fieldsDocument (by simp [fields, fieldNames]) hnames]
    simp only [Option.bind_eq_bind, Option.bind_some, hid, htype, hname, herror, hretries, htime,
      Option.pure_def]
  rw [ofEntry, hread]

/-- Dead letters are read back from their texts, all of them or none. -/
theorem mapM_ofEntry_text {es : List DeadLetter} (h : ∀ e ∈ es, e.failedAt.Proper) :
    (es.map text).mapM ofEntry = .ok es := by
  induction es with
  | nil => rfl
  | cons e es ih =>
    rw [List.map_cons, List.mapM_cons, ofEntry_text (h e List.mem_cons_self),
      ih fun a ha => h a (List.mem_cons_of_mem e ha)]
    rfl

/-- **A list of texts is that of one list of dead letters.** -/
theorem map_text_injective {es es' : List DeadLetter} (he : ∀ e ∈ es, e.failedAt.Proper)
    (he' : ∀ e ∈ es', e.failedAt.Proper) (h : es.map text = es'.map text) : es = es' := by
  have hread := mapM_ofEntry_text he
  rw [h, mapM_ofEntry_text he'] at hread
  exact (Except.ok.inj hread).symm

end DeadLetter

/-! ### The list -/

variable {ι : Type} [DecidableEq ι]

namespace BrokerUse

/-- The dead letter that a use adds to a broker. -/
def letter? (i : ι) : BrokerUse ι → Option DeadLetter
  | .perform j _ (.pushDeadLetter e) => if j = i then some e else none
  | _ => none

/-- **The dead letters that are added to a broker**, in the order in which they are. -/
def letters (i : ι) (us : List (BrokerUse ι)) : List DeadLetter := us.filterMap (letter? i)

/-- The use of another broker adds nothing. -/
theorem letter?_of_ne {u : BrokerUse ι} {i : ι} (h : u.broker ≠ i) : letter? i u = none := by
  cases u with
  | perform j now call =>
    have hj : j ≠ i := h
    cases call <;> simp [letter?, hj]
  | inject j message => rfl

end BrokerUse

namespace Broker

open BrokerUse (letter? letter?_of_ne letters)

/-- An operation adds the text of a dead letter, or leaves the list as it is. -/
theorem deadLetters_perform {α : Type} (call : BrokerCall α) (i : ι) (now : Span) (b : Broker) :
    (b.perform call).2.deadLetters
      = b.deadLetters ++ (letter? i (.perform i now call)).toList.map DeadLetter.text := by
  cases call with
  | pushDeadLetter e => simp [perform, letter?]
  | popReady timeout =>
    simp only [perform, popReady, letter?]
    split <;> simp
  | _ => simp [perform, letter?, pushRaw]

theorem deadLetters_use (u : BrokerUse ι) (ls : ι → Broker) (i : ι) :
    ((Broker.use u ls).2 i).deadLetters
      = (ls i).deadLetters ++ (letter? i u).toList.map DeadLetter.text := by
  cases u with
  | perform j now call =>
    cases hend : call.hasEnd now with
    | false =>
      -- a wait too long adds nothing
      have hnone : letter? i (.perform j now call) = none := by
        cases call <;> first | rfl | cases hend
      rw [Broker.use_of_hasEnd_eq_false (u := .perform j now call) hend, hnone]
      simp
    | true =>
      rw [Broker.use_perform hend]
      by_cases hj : j = i
      · subst hj
        simp only [Function.update_self]
        exact deadLetters_perform call j now (ls j)
      · have hother : (BrokerUse.perform j now call).broker ≠ i := hj
        rw [letter?_of_ne hother]
        simp [Function.update_of_ne (Ne.symm hj)]
  | inject j message =>
    by_cases hj : j = i
    · subst hj
      simp [Broker.use, letter?, pushRaw]
    · simp [Broker.use, letter?, Function.update_of_ne (Ne.symm hj)]

/-- **The texts that a broker keeps are those of the letters that were added to it.** -/
theorem deadLetters_transcript (us : List (BrokerUse ι)) (ls : ι → Broker) (i : ι) :
    ((transcript Broker.use us ls).2 i).deadLetters
      = (ls i).deadLetters ++ (letters i us).map DeadLetter.text := by
  -- what is kept changes with every use, so it must stay general
  induction us generalizing ls with
  | nil => simp [transcript, letters]
  | cons u us ih =>
    have hrest := ih (Broker.use u ls).2
    rw [deadLetters_use, List.append_assoc, ← List.map_append] at hrest
    have hletters : letters i (u :: us) = (letter? i u).toList ++ letters i us := by
      rw [letters, letters, List.filterMap_cons]
      cases letter? i u <;> rfl
    rw [hletters]
    exact hrest

/-- **The list of dead letters is append-only and loses nothing.**  Whatever is done with a broker that
was empty, in whatever order, every dead letter can be added; all that were added are given back, in the
order in which they were, and counted.  Ids, names, error texts and numbers of retries may be any at all;
the times may be any that have a text, those of the years of four digits among them.  The broker may be
one of several that are used in turns. -/
theorem dead_letters_lossless (us : List (BrokerUse ι)) (i : ι)
    (h : ∀ e ∈ letters i us, e.failedAt.Proper) :
    let b := (transcript Broker.use us fun _ => .empty).2 i
    (b.perform .deadLetters).1 = .ok (letters i us) ∧
      (b.perform .deadLetterCount).1 = .ok (letters i us).length ∧
      ∀ e, (b.perform (.pushDeadLetter e)).1 = .ok () := by
  intro b
  have hkept : b.deadLetters = (letters i us).map DeadLetter.text :=
    (deadLetters_transcript us (fun _ => .empty) i).trans (List.nil_append _)
  refine ⟨?_, ?_, fun e => rfl⟩
  · rw [perform, hkept, DeadLetter.mapM_ofEntry_text h]
  · rw [perform, hkept, List.length_map]

/-- A letter whose texts hold quotes, a backslash, control characters and a sign beyond the first plane,
from the last nanosecond of the year 9999. -/
def awkwardLetter : DeadLetter where
  jobId := ⟨BitVec.allOnes 128⟩
  jobType := "\x00\"\\"
  name := ""
  error := "line\nline\t\x7f\u2028😀"
  retryCount := 65535
  failedAt := ⟨253402300799, 999999999⟩

/-- A letter from the first second of the year zero. -/
def earlyLetter : DeadLetter where
  jobId := ⟨0⟩
  jobType := "echo"
  name := "\x7b\"job_id\":0\x7d"
  error := "\\u0000"
  retryCount := 0
  failedAt := ⟨-62167219200, 0⟩

/-- Both letters are added while messages come and go. -/
def twoLetters : List (BrokerUse Unit) :=
  let now := Span.seconds 1
  [.inject () "none", .perform () now (.pushDeadLetter awkwardLetter), .perform () now .deadLetters,
    .perform () now (.popReady Span.zero), .perform () now (.setDesiredPolicy "sjf"),
    .perform () now (.pushDeadLetter earlyLetter), .perform () now .readyLength]

/-- Both letters are given back as they were. -/
theorem deadLetters_of_twoLetters :
    (∀ e ∈ letters () twoLetters, e.failedAt.Proper) ∧
      (((transcript Broker.use twoLetters fun _ => .empty).2 ()).perform .deadLetters).1
        = .ok [awkwardLetter, earlyLetter] ∧
      (((transcript Broker.use twoLetters fun _ => .empty).2 ()).perform .deadLetterCount).1 = .ok 2 := by
  have hproper : ∀ e ∈ letters () twoLetters, e.failedAt.Proper := by
    intro e he
    have hpair : e ∈ [awkwardLetter, earlyLetter] := he
    simp only [List.mem_cons, List.not_mem_nil, or_false] at hpair
    rcases hpair with rfl | rfl
    · exact Timestamp.proper_of_year (by decide +kernel) (by decide +kernel) (by decide)
    · exact Timestamp.proper_of_year (by decide +kernel) (by decide +kernel) (by decide)
  obtain ⟨hall, hcount, -⟩ := dead_letters_lossless twoLetters () hproper
  exact ⟨hproper, hall, hcount⟩

end Broker

end JobDispatch
