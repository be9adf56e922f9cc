import JobDispatch.Number.Layout
import JobDispatch.Text.Dictionary
import JobDispatch.Time.Span

/-!
# A server of texts and lists

A server keeps texts and lists of texts under keys.  A key whose list has become empty is gone.

## Main definitions

* `ListServer` — what is kept.
* `ListServer.Command` — what can be asked of it, and `Command.words`, how it is asked.
* `ListServer.Reply` — what it answers.
* `ListServer.run` — what each command does.
-/

namespace JobDispatch

namespace ListServer

/-- What is kept under a key. -/
inductive Entry
  | text (s : String)
  | list (items : List String)
  deriving DecidableEq

/-- What can be asked of a server. -/
inductive Command
  /-- The text under a key. -/
  | get (key : String)
  /-- Keeps a text under a key, whatever was there. -/
  | set (key value : String)
  /-- Adds to the end of a list. -/
  | pushBack (key value : String)
  /-- Takes the first member of a list. -/
  | popFront (key : String)
  /-- Takes the first member of a list, waiting for one if there is none. -/
  | popFrontWithin (key : String) (timeout : Span)
  /-- The number of members of a list. -/
  | length (key : String)
  /-- All members of a list. -/
  | members (key : String)
  deriving DecidableEq

/-- The words of a command, as they are sent. -/
def Command.words : Command → List String
  | get key => ["GET", key]
  | set key value => ["SET", key, value]
  | pushBack key value => ["RPUSH", key, value]
  | popFront key => ["LPOP", key]
  | popFrontWithin key timeout => ["BLPOP", key, timeout.toSeconds.jsonText]
  | length key => ["LLEN", key]
  | members key => ["LRANGE", key, "0", "-1"]

/-- What a server answers. -/
inductive Reply
  | done
  | nothing
  | text (s : String)
  | keyed (key s : String)
  | number (n : Nat)
  | texts (items : List String)
  /-- A list was asked for where a text is kept, or a text where a list is. -/
  | wrongKind
  deriving DecidableEq

/-- What is said about a key that holds something else than was asked for. -/
def wrongKindMessage : String :=
  "WRONGTYPE: Operation against a key holding the wrong kind of value"

end ListServer

/-- The texts and lists of a server, by their keys. -/
structure ListServer where
  entries : List (String × ListServer.Entry) := []

namespace ListServer

/-- A server without keys. -/
def empty : ListServer := {}

/-- What is kept under a key. -/
def find? (s : ListServer) (key : String) : Option Entry := Dictionary.find? key s.entries

/-- Keeps an entry under a key. -/
def keep (s : ListServer) (key : String) (e : Entry) : ListServer :=
  ⟨Dictionary.insert key e s.entries⟩

/-- Forgets a key. -/
def forget (s : ListServer) (key : String) : ListServer :=
  ⟨s.entries.filter fun e => e.1 != key⟩

/-- Keeps a list under a key; an empty list leaves no key. -/
def keepList (s : ListServer) (key : String) : List String → ListServer
  | [] => s.forget key
  | items => s.keep key (.list items)

/-- The list under a key; nothing if a text is kept there. -/
def list? (s : ListServer) (key : String) : Option (List String) :=
  match s.find? key with
  | none => some []
  | some (.list items) => some items
  | some (.text _) => none

/-- The first member of a list, answered by `answer`, and the server without it. -/
def takeFirst (s : ListServer) (key : String) (answer : String → Reply) : Reply × ListServer :=
  match s.list? key with
  | none => (.wrongKind, s)
  | some [] => (.nothing, s)
  | some (item :: rest) => (answer item, s.keepList key rest)

/-- **What each command does**, when nothing else happens while a member is waited for. -/
def run (command : Command) (s : ListServer) : Reply × ListServer :=
  match command with
  | .get key =>
    match s.find? key with
    | none => (.nothing, s)
    | some (.text value) => (.text value, s)
    | some (.list _) => (.wrongKind, s)
  | .set key value => (.done, s.keep key (.text value))
  | .pushBack key value =>
    match s.list? key with
    | none => (.wrongKind, s)
    | some items => (.number (items.length + 1), s.keepList key (items ++ [value]))
  | .popFront key => s.takeFirst key .text
  | .popFrontWithin key _ => s.takeFirst key (.keyed key)
  | .length key =>
    match s.list? key with
    | none => (.wrongKind, s)
    | some items => (.number items.length, s)
  | .members key =>
    match s.list? key with
    | none => (.wrongKind, s)
    | some items => (.texts items, s)

end ListServer

/-- Where a server may be found. -/
inductive Endpoint
  /-- Nothing listens there. -/
  | unreachable
  /-- A server listens there. -/
  | listening (server : ListServer)

end JobDispatch
