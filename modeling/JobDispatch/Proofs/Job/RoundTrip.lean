import Mathlib.Data.List.Nodup
import JobDispatch.Proofs.Job.Messages
import JobDispatch.Proofs.Json.RoundTrip

/-!
# Tickets are read back

The message of a ticket is the text of an object whose last field is the payload, so what holds of the
text of a value holds of the message, with one level of nesting less for the payload.  A ticket whose
estimated duration is not finite has no number there, and its message cannot be read at all.

## Main definitions

* `Json.Document.documents` — the fields of a record as they are picked.
* `Ticket.reread` — a ticket with every double as its text is read.
* `Ticket.Faithful` — the tickets whose message loses nothing.

## Main results

* `Json.Document.record?_fieldsDocument`, `Json.Document.required?_documents` — **the fields of a record
  are read from what their values write.**
* `Ticket.ofChars?_chars` — the document that the message of a ticket writes.
* `Ticket.ofMessage_text` — **what becomes of the message of a ticket.**
* `Ticket.ofMessage_text_of_faithful` — the same when no double changes.
-/

namespace JobDispatch

namespace Json

/-- A record is an object, whatever the order of its fields. -/
theorem recordChars_eq_chars (fs : List (String × Json)) :
    recordChars (fs.map fun f => (f.1, f.2.chars)) = (Json.object fs).chars := by
  have hrest : ∀ gs : List (String × Json),
      (gs.map fun f => (f.1, f.2.chars)).flatMap (fun g => ',' :: memberChars g) ++ ['\x7d']
        = fieldsChars gs := by
    intro gs
    induction gs with
    | nil => rw [fieldsChars]; rfl
    | cons g gs ih =>
      obtain ⟨name, v⟩ := g
      rw [List.map_cons, List.flatMap_cons, fieldsChars, ← ih]
      simp [memberChars]
  cases fs with
  | nil => rw [chars]; rfl
  | cons f fs =>
    obtain ⟨name, v⟩ := f
    rw [List.map_cons, recordChars, List.append_assoc, hrest fs, chars]
    simp [memberChars]

namespace Document

/-- The fields of a record with the names that are asked for are all taken. -/
theorem pickFields?_fieldsDocument {names : List String} {fs : List (String × Json)}
    {picked : List (String × Document)} (hn : ∀ f ∈ fs, f.1 ∈ names)
    (hd : (fs.map Prod.fst).Nodup) (hp : ∀ f ∈ fs, f.1 ∉ picked.map Prod.fst) :
    pickFields? names (fieldsDocument fs) picked
      = some ((fs.map fun f => (f.1, f.2.document)).reverse ++ picked) := by
  induction fs generalizing picked with
  | nil => rw [fieldsDocument]; rfl
  | cons f fs ih =>
    obtain ⟨name, v⟩ := f
    have hname : names.contains name = true := List.contains_iff_mem.mpr (hn _ List.mem_cons_self)
    have hnew : ¬ (picked.map Prod.fst).contains name = true :=
      fun h => hp _ List.mem_cons_self (List.contains_iff_mem.mp h)
    obtain ⟨hfirst, hd⟩ := List.nodup_cons.mp hd
    rw [fieldsDocument, pickFields?, decodePieces?_written]
    simp only [String.ofList_toList, if_pos hname, if_neg hnew]
    rw [ih (fun g hg => hn g (List.mem_cons_of_mem _ hg)) hd]
    · simp
    · -- the field that is taken has a name that does not come again
      intro g hg hmem
      rcases List.mem_cons.mp (List.map_cons ▸ hmem) with h | h
      · exact hfirst (h ▸ List.mem_map_of_mem hg)
      · exact hp g (List.mem_cons_of_mem _ hg) h

/-- The fields of an object as they are picked, the last one first. -/
def documents (fs : List (String × Json)) : List (String × Document) :=
  (fs.map fun f => (f.1, f.2.document)).reverse

/-- The fields of a record that is written as an object. -/
theorem record?_fieldsDocument {names : List String} {fs : List (String × Json)}
    (hn : ∀ f ∈ fs, f.1 ∈ names) (hd : (fs.map Prod.fst).Nodup) (room : Nat) :
    record? names (room + 1) (.object (fieldsDocument fs)) = some (room, documents fs) := by
  have hpick : pickFields? names (fieldsDocument fs) [] = some (documents fs ++ []) :=
    pickFields?_fieldsDocument hn hd (by simp)
  rw [record?, if_neg (by simp), hpick, Option.map_some, List.append_nil, Nat.add_sub_cancel]

/-- **A field of a record is read from what its value writes.** -/
theorem required?_documents {α : Type} {read : Document → Option α} {fs : List (String × Json)}
    {name : String} (v : Json) (hd : (fs.map Prod.fst).Nodup) (hv : (name, v) ∈ fs) :
    required? read name (documents fs) = read v.document := by
  have hmem : (name, v.document) ∈ documents fs := List.mem_reverse.mpr (List.mem_map_of_mem hv)
  have hfind : (documents fs).find? (fun f => f.1 == name) = some (name, v.document) := by
    cases h : (documents fs).find? fun f => f.1 == name with
    | none => exact absurd (beq_self_eq_true name) (List.find?_eq_none.mp h _ hmem)
    | some g =>
      obtain ⟨f, hf, rfl⟩ := List.mem_map.mp (List.mem_reverse.mp (List.mem_of_find?_eq_some h))
      have hfound := List.find?_some h
      have hname : f.1 = name := beq_iff_eq.mp hfound
      rw [List.inj_on_of_nodup_map hd hf hv hname]
  rw [required?, member?, hfind]
  rfl

/-- A string is read back. -/
theorem text?_document (s : String) : text? (Json.string s).document = some s := by
  rw [Json.document, text?, decodePieces?_written, Option.map_some, String.ofList_toList]

/-- A natural number of 64 bits is read back where the limit allows it. -/
theorem nat?_document {limit n : Nat} (h : n ≤ limit) (hn : n < Nat.pow 2 64) :
    nat? limit (Json.ofNat n).document = some n := by
  have hwf : JsonNumber.WellFormed (.int n) := by
    constructor
    · simp only [Nat.pow_eq]
      omega
    · exact_mod_cast hn
  have hfit : (0 : Int) ≤ n ∧ (n : Int) ≤ limit := by omega
  rw [Json.ofNat, Json.document, Json.numberDocument, nat?, Json.value?_intWritten hwf]
  simp only [if_pos hfit, Int.toNat_natCast]

end Document

end Json

namespace Ticket

open Json.Document (text? double? value? required? documents required?_documents text?_document)

/-- The fields of a ticket, with their values. -/
def fields (t : Ticket) : List (String × Json) :=
  [("job_id", .string t.jobId.text),
   ("job_type", .string t.jobType),
   ("priority", Json.ofNat t.priority.toNat),
   ("estimated_duration", .number (.double t.estimatedDuration)),
   ("payload", t.payload)]

/-- The message of a ticket is the text of an object. -/
theorem chars_eq_chars (t : Ticket) : t.chars = (Json.object t.fields).chars := by
  have hpriority : natChars t.priority.toNat = (Json.ofNat t.priority.toNat).chars := by
    simp [natChars, Json.ofNat, Json.numberChars, Json.intChars]
  rw [← Json.recordChars_eq_chars, chars, hpriority]
  simp only [fields, List.map_cons, List.map_nil, Json.chars_string, Json.chars_number,
    Json.numberChars]
  rfl

/-- The document that the message of a ticket writes. -/
theorem ofChars?_chars (t : Ticket) :
    Json.Document.ofChars? t.chars = some (.object (Json.fieldsDocument t.fields)) := by
  rw [chars_eq_chars, Json.ofChars?_chars, Json.document]

/-- A priority is read back. -/
theorem priority?_document (p : UInt8) : priority? (Json.ofNat p.toNat).document = some p := by
  have hlt : p.toNat < 256 := p.toNat_lt
  rw [priority?, Json.Document.nat?_document (by omega) (by simp only [Nat.pow_eq]; omega),
    Option.map_some, UInt8.ofNat_toNat]

/-- A ticket with every double as its text is read. -/
def reread (t : Ticket) : Ticket :=
  { t with
    estimatedDuration := (Json.rereadNumber (.double t.estimatedDuration)).toDouble
    payload := t.payload.reread }

/-- How deep a payload may be nested: the message is one level around it. -/
def maxPayloadDepth : Nat := Json.Document.maxDepth - 1

theorem maxDepth_eq : Json.Document.maxDepth = maxPayloadDepth + 1 := rfl

section Reading

variable [Json.Dialect]

/-- **What is read from the message of a ticket**: all but its doubles is there again. -/
theorem read?_message (t : Ticket) (room : Nat) :
    read? (room + 1) (.object (Json.fieldsDocument t.fields))
      = (Json.Document.double? (Json.numberDocument (.double t.estimatedDuration))).bind fun x =>
          (value? room t.payload.document).map fun v =>
            { t with estimatedDuration := x, payload := v } := by
  have hnames : (t.fields.map Prod.fst).Nodup := by simp [fields]
  have hid : required? JobId.read? "job_id" (documents t.fields) = some t.jobId := by
    rw [required?_documents (.string t.jobId.text) hnames (by simp [fields]), Json.document,
      JobId.read?_written]
  have htype : required? text? "job_type" (documents t.fields) = some t.jobType := by
    rw [required?_documents (.string t.jobType) hnames (by simp [fields]), text?_document]
  have hpriority : required? priority? "priority" (documents t.fields) = some t.priority := by
    rw [required?_documents (.ofNat t.priority.toNat) hnames (by simp [fields]), priority?_document]
  have hduration : required? double? "estimated_duration" (documents t.fields)
      = double? (Json.numberDocument (.double t.estimatedDuration)) := by
    rw [required?_documents (.number (.double t.estimatedDuration)) hnames (by simp [fields]),
      Json.document]
  have hpayload : required? (value? room) "payload" (documents t.fields)
      = value? room t.payload.document :=
    required?_documents t.payload hnames (by simp [fields])
  rw [read?, Json.Document.record?_fieldsDocument (by simp [fields, fieldNames]) hnames]
  simp only [Option.bind_eq_bind, Option.bind_some, hid, htype, hpriority, hduration, hpayload,
    Option.map_eq_bind, Function.comp_def, Option.pure_def]

/-- What is read from the text of a ticket. -/
theorem decode?_text (t : Ticket) :
    Json.decode? read? t.text
      = (Json.Document.double? (Json.numberDocument (.double t.estimatedDuration))).bind fun x =>
          (value? maxPayloadDepth t.payload.document).map fun v =>
            { t with estimatedDuration := x, payload := v } := by
  rw [Json.decode?, text, String.toList_ofList, ofChars?_chars, Option.bind_some, maxDepth_eq,
    read?_message]

/-- **What becomes of the message of a ticket**: it is read as the ticket if the duration is finite
and the payload not nested too deep, and cannot be read otherwise. -/
theorem ofMessage_text {t : Ticket} (hw : t.payload.WellFormed) (hp : t.payload.Plain) :
    ofMessage t.text
      = if t.estimatedDuration.isFinite = true ∧ t.payload.depth ≤ maxPayloadDepth then .ok t.reread
        else .error (.decoding t.text) := by
  have hpayload : value? maxPayloadDepth t.payload.document
      = if t.payload.depth ≤ maxPayloadDepth then some t.payload.reread else none :=
    Json.Document.valueWith?_document t.payload hw hp maxPayloadDepth
  rw [ofMessage, decode?_text, hpayload, Json.numberDocument]
  by_cases hfinite : t.estimatedDuration.isFinite = true
  · obtain ⟨n, hn⟩ := Option.isSome_iff_exists.mp (Double.legible_of_isFinite hfinite)
    rw [if_pos hfinite, Json.Document.double?, hn, Option.map_some, Option.bind_some]
    by_cases hdepth : t.payload.depth ≤ maxPayloadDepth
    · simp [hfinite, hdepth, reread, Json.rereadNumber, hn]
    · simp [hdepth]
  · simp [hfinite, Json.Document.double?]

/-- The tickets whose message loses nothing: the payload can be held and marks no object as the value of
a text, and all doubles are read back unchanged. -/
structure Faithful (t : Ticket) : Prop where
  wellFormed : t.payload.WellFormed
  plain : t.payload.Plain
  faithful : ∀ x ∈ t.payload.doubles, x.Faithful
  faithful_duration : t.estimatedDuration.isFinite = true → t.estimatedDuration.Faithful

/-- **A faithful ticket is read back as it is**, if its message can be read. -/
theorem ofMessage_text_of_faithful {t : Ticket} (h : t.Faithful) :
    ofMessage t.text
      = if t.estimatedDuration.isFinite = true ∧ t.payload.depth ≤ maxPayloadDepth then .ok t
        else .error (.decoding t.text) := by
  rw [ofMessage_text h.wellFormed h.plain]
  split
  · next hsent =>
    have hpayload : t.payload.reread = t.payload :=
      Json.reread_eq_self t.payload h.wellFormed h.faithful
    have hduration : Json.rereadNumber (.double t.estimatedDuration) = .double t.estimatedDuration := by
      rw [Json.rereadNumber,
        (Json.faithful_iff_value?_written hsent.1).mp (h.faithful_duration hsent.1)]
      rfl
    rw [reread, hpayload, hduration]
    rfl
  · rfl

end Reading

end Ticket

end JobDispatch
