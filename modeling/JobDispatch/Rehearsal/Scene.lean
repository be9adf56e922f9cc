import JobDispatch.Handler.Builtin

/-!
# Handlers for rehearsals

Two handlers do as their payload says, so that a rehearsal can play every course of a job.

## Main definitions

* `imageReports` — what the library of images says in a rehearsal.
* `Scene` — what the handlers of a rehearsal see and leave behind.
* `Scene.script` — fails, panics or returns as its payload says.
* `Scene.trace` — sleeps as long as its payload says, and leaves a mark at its start and at its end.
* `Scene.handlers` — these two beside the built-in ones.
-/

namespace JobDispatch

namespace Rehearsal

/-- A mark that a handler leaves. -/
structure Mark where
  /-- The time in milliseconds. -/
  time : Nat
  event : String
  tag : String
  deriving DecidableEq

/-- What the library of images says in a rehearsal. -/
@[reducible] def imageReports : Thumbnail.ImageReports where
  unreadable _ path := "Cannot read an image from " ++ Text.quote path
  unwritable _ path _ := "Cannot write an image to " ++ Text.quote path

/-- What the handlers of a rehearsal see and leave behind. -/
structure Scene where
  surroundings : Surroundings := { images := imageReports }
  /-- The time in milliseconds. -/
  now : Nat := 0
  /-- How often a key has been run with. -/
  attempts : List (String × Nat) := []
  /-- The marks that handlers have left, newest first. -/
  marks : List Mark := []
  /-- How many handlers that leave marks are at work. -/
  running : Nat := 0
  /-- The most that ever were. -/
  maxRunning : Nat := 0

namespace Scene

/-- The text of a field. -/
def text? (payload : Json) (key : String) : Option String := (payload.field? key).bind Json.string?

/-- The text of a field, or an empty one. -/
def textOf (payload : Json) (key : String) : String := (text? payload key).getD ""

/-- The natural number of a field, or zero. -/
def natOf (payload : Json) (key : String) : Nat :=
  ((payload.field? key).bind Json.nat?).getD 0

/-- What is said about a panic without a message of its own: the number of the task differs from run to
run, so a letter stands for it. -/
def silentPanic : String := "task N panicked"

/-- How an attempt beyond the failing ones ends. -/
def scripted (payload : Json) : HandlerOutcome :=
  let kind := textOf payload "kind"
  match text? payload "fail", text? payload "panic" with
  | some message, _ =>
    .failed (match kind with
      | "invalid" => .invalidPayload message
      | "io" => .file (.other message)
      | _ => .failed message)
  | none, some message =>
    .panicked (match kind with
      | "static" => "static panic"
      | "number" => silentPanic
      | _ => message)
  | none, none => .returned ((payload.field? "return").getD payload)

/-- **Does as its payload says**: the first runs with a key fail, later ones fail, panic or return. -/
def script : Handler Scene := fun payload w =>
  match payload.field? "fail_first" with
  | none => (HandlerRun.ended (scripted payload), w)
  | some _ =>
    let key := textOf payload "key"
    let attempt := (Dictionary.find? key w.attempts).getD 0 + 1
    let w := { w with attempts := Dictionary.insert key attempt w.attempts }
    if attempt ≤ natOf payload "fail_first" then
      (HandlerRun.ended (.failed (.failed ("attempt " ++ toString attempt ++ " failed"))), w)
    else (HandlerRun.ended (scripted payload), w)

/-- Leaves a mark. -/
def mark (w : Scene) (event tag : String) : Scene := { w with marks := ⟨w.now, event, tag⟩ :: w.marks }

/-- How a run that leaves marks ends. -/
def traced (payload : Json) : HandlerOutcome :=
  match text? payload "fail" with
  | some message => .failed (.failed message)
  | none => .returned ((payload.field? "return").getD (.object []))

/-- **Sleeps, and leaves a mark at its start and at its end.** -/
def trace : Handler Scene := fun payload w =>
  let tag := textOf payload "tag"
  let w := { w.mark "start" tag with
    running := w.running + 1, maxRunning := max w.maxRunning (w.running + 1) }
  (⟨Span.millis (natOf payload "ms"), fun w =>
    (traced payload, { w.mark "end" tag with running := w.running - 1 })⟩, w)

/-- The handlers of a rehearsal. -/
def handlers : HandlerRegistry Scene :=
  let builtin := HandlerRegistry.builtin.within Scene.surroundings
    fun surroundings w => { w with surroundings := surroundings }
  builtin.register "script" script

/-- The handlers of a timed rehearsal. -/
def timedHandlers : HandlerRegistry Scene := handlers.register "trace" trace

end Scene

end Rehearsal

end JobDispatch
