import JobDispatch.Broker.Remote
import Mathlib.Logic.Function.Basic

/-!
# Brokers that share a server

A broker on a server answers as one within a process would, and brokers with different namespaces do
not notice each other, though all their keys stand side by side on one server.  The key of each of the
three things that a broker keeps tells both the namespace and the thing: no ending of a key is the end
of another, so a namespace may be any text, one that looks like a key of another namespace included.

## Main definitions

* `RemoteBroker.KeyKind`, `RemoteBroker.key` — what a broker keeps, each under a key of its own.
* `RemoteBroker.Mirrors` — the keys of a broker hold what a broker within a process holds.
* `BrokerUse` — one complete use of one of several brokers.
* `transcript` — what is answered to one use after another.

## Main results

* `ListServer.find?_run_of_ne` — a command touches one key.
* `RemoteBroker.key_inj` — a key tells its namespace and what is kept under it.
* `RemoteBroker.Mirrors.perform` — **an operation on a server is answered as within a process.**
* `RemoteBroker.transcript_eq_local` — **brokers that share a server answer as independent ones.**
-/

namespace JobDispatch

/-! ### Keys of a server -/

namespace ListServer

variable {s : ListServer} {name other : String}

theorem find?_keep_self (s : ListServer) (name : String) (e : Entry) :
    (s.keep name e).find? name = some e := Dictionary.find?_insert_self ..

theorem find?_keep_of_ne (h : other ≠ name) (e : Entry) :
    (s.keep name e).find? other = s.find? other := Dictionary.find?_insert_of_ne h ..

/-- What is kept once a key is forgotten: nothing under it, and all else as it was. -/
theorem find?_forget (s : ListServer) (name other : String) :
    (s.forget name).find? other = if other = name then none else s.find? other := by
  obtain ⟨entries⟩ := s
  simp only [find?, forget]
  induction entries with
  | nil => simp
  | cons e entries ih =>
    obtain ⟨k, v⟩ := e
    by_cases hk : k = name
    · subst hk
      rw [List.filter_cons_of_neg (by simp), ih]
      by_cases ho : other = k
      · simp [ho]
      · have hne : k ≠ other := fun h => ho h.symm
        simp [ho, Dictionary.find?, hne]
    · rw [List.filter_cons_of_pos (by simpa using hk)]
      simp only [Dictionary.find?]
      by_cases ho : k = other
      · subst ho
        simp [hk]
      · simp [ho, ih]

/-- What is kept under the key of a list; an empty list leaves no key. -/
def entry? : List String → Option Entry
  | [] => none
  | items => some (.list items)

theorem find?_keepList_self (s : ListServer) (name : String) (items : List String) :
    (s.keepList name items).find? name = entry? items := by
  cases items with
  | nil => rw [keepList, find?_forget, if_pos rfl, entry?]
  | cons item rest => exact find?_keep_self ..

theorem find?_keepList_of_ne (h : other ≠ name) (items : List String) :
    (s.keepList name items).find? other = s.find? other := by
  cases items with
  | nil => rw [keepList, find?_forget, if_neg h]
  | cons item rest => exact find?_keep_of_ne h _

theorem list?_of_find? {items : List String} (h : s.find? name = entry? items) :
    s.list? name = some items := by
  rw [list?, h]
  cases items <;> rfl

/-- The key that a command is about. -/
def Command.subject : Command → String
  | get key => key
  | set key _ => key
  | pushBack key _ => key
  | popFront key => key
  | popFrontWithin key _ => key
  | length key => key
  | members key => key

theorem find?_takeFirst_of_ne (h : other ≠ name) (answer : String → Reply) :
    (s.takeFirst name answer).2.find? other = s.find? other := by
  rw [takeFirst]
  split
  · rfl
  · rfl
  · exact find?_keepList_of_ne h _

/-- **A command touches one key.** -/
theorem find?_run_of_ne {c : Command} (h : other ≠ c.subject) :
    (s.run c).2.find? other = s.find? other := by
  cases c with
  | get key =>
    simp only [run]
    split <;> rfl
  | set key value => exact find?_keep_of_ne h _
  | pushBack key value =>
    simp only [run]
    split
    · rfl
    · exact find?_keepList_of_ne h _
  | popFront key => exact find?_takeFirst_of_ne h _
  | popFrontWithin key timeout => exact find?_takeFirst_of_ne h _
  | length key =>
    simp only [run]
    split <;> rfl
  | members key =>
    simp only [run]
    split <;> rfl

end ListServer

namespace RemoteBroker

/-! ### The keys of a broker -/

/-- What a broker keeps under a key. -/
inductive KeyKind
  | ready
  | policy
  | deadLetter
  deriving DecidableEq

/-- What the key ends with. -/
def KeyKind.ending : KeyKind → String
  | ready => ":ready"
  | policy => ":policy"
  | deadLetter => ":dead_letter"

/-- The key under which a broker keeps something. -/
def key (b : RemoteBroker) (k : KeyKind) : String := b.keyspace ++ k.ending

/-- **A key tells its namespace and what is kept under it.** -/
theorem key_inj {b c : RemoteBroker} {k l : KeyKind} (h : b.key k = c.key l) : b = c ∧ k = l := by
  obtain ⟨m⟩ := b
  obtain ⟨n⟩ := c
  -- read from its end, a key tells the kind before the namespace begins
  have hrev := congrArg (fun t : String => t.toList.reverse) h
  simp only [key, String.toList_append, List.reverse_append] at hrev
  cases k <;> cases l <;> simp [KeyKind.ending] at hrev <;> simp [String.toList_inj.mp hrev]

theorem key_ne_of_ne (b : RemoteBroker) {k l : KeyKind} (h : k ≠ l) : b.key k ≠ b.key l :=
  fun hkey => h (key_inj hkey).2

/-- What an operation is about. -/
def subjectOf {α : Type} : BrokerCall α → KeyKind
  | .desiredPolicy => .policy
  | .setDesiredPolicy _ => .policy
  | .pushReady _ => .ready
  | .popReady _ => .ready
  | .readyLength => .ready
  | .pushDeadLetter _ => .deadLetter
  | .deadLetters => .deadLetter
  | .deadLetterCount => .deadLetter

theorem subject_request (b : RemoteBroker) {α : Type} (call : BrokerCall α) :
    (b.request call).subject = b.key (subjectOf call) := by
  cases call with
  | popReady timeout =>
    simp only [request]
    split <;> rfl
  | _ => rfl

/-- An operation touches one key of the broker. -/
theorem find?_perform_of_ne {b : RemoteBroker} {α : Type} {call : BrokerCall α} {s : ListServer}
    {name : String} (h : name ≠ b.key (subjectOf call)) :
    (b.perform call s).2.find? name = s.find? name :=
  ListServer.find?_run_of_ne (by rwa [subject_request])

/-- What the reply means to somebody who adds to a list. -/
def added : ListServer.Reply → Except BrokerError Unit
  | .number _ => .ok ()
  | _ => unexpected

/-- Somebody else puts a text on the ready queue as if it were a message. -/
def inject (b : RemoteBroker) (message : String) (s : ListServer) :
    Except BrokerError Unit × ListServer :=
  let (reply, s) := s.run (.pushBack b.readyKey message)
  (added reply, s)

theorem find?_inject_of_ne {b : RemoteBroker} {message : String} {s : ListServer} {name : String}
    (h : name ≠ b.key .ready) : (b.inject message s).2.find? name = s.find? name := by
  have hname : name ≠ (ListServer.Command.pushBack b.readyKey message).subject := h
  exact ListServer.find?_run_of_ne hname

/-! ### One broker -/

/-- **The keys of a broker hold what a broker within a process holds.** -/
structure Mirrors (b : RemoteBroker) (s : ListServer) (l : Broker) : Prop where
  policy : s.find? (b.key .policy) = l.policy.map .text
  ready : s.find? (b.key .ready) = ListServer.entry? l.ready
  deadLetters : s.find? (b.key .deadLetter) = ListServer.entry? l.deadLetters

namespace Mirrors

variable {b : RemoteBroker} {s s' : ListServer} {l : Broker}

/-- Where the keys of a broker are as they were, so is the broker. -/
theorem of_kept (h : b.Mirrors s l) (hs : ∀ k, s'.find? (b.key k) = s.find? (b.key k)) :
    b.Mirrors s' l where
  policy := (hs .policy).trans h.policy
  ready := (hs .ready).trans h.ready
  deadLetters := (hs .deadLetter).trans h.deadLetters

/-- Another list of messages is kept. -/
theorem keepReady (h : b.Mirrors s l) (messages : List String) :
    b.Mirrors (s.keepList (b.key .ready) messages) { l with ready := messages } where
  policy := by
    rw [ListServer.find?_keepList_of_ne (b.key_ne_of_ne (by decide))]
    exact h.policy
  ready := ListServer.find?_keepList_self ..
  deadLetters := by
    rw [ListServer.find?_keepList_of_ne (b.key_ne_of_ne (by decide))]
    exact h.deadLetters

/-- Another list of dead letters is kept. -/
theorem keepDeadLetters (h : b.Mirrors s l) (entries : List String) :
    b.Mirrors (s.keepList (b.key .deadLetter) entries) { l with deadLetters := entries } where
  policy := by
    rw [ListServer.find?_keepList_of_ne (b.key_ne_of_ne (by decide))]
    exact h.policy
  ready := by
    rw [ListServer.find?_keepList_of_ne (b.key_ne_of_ne (by decide))]
    exact h.ready
  deadLetters := ListServer.find?_keepList_self ..

/-- Another policy is wanted. -/
theorem keepPolicy (h : b.Mirrors s l) (name : String) :
    b.Mirrors (s.keep (b.key .policy) (.text name)) { l with policy := some name } where
  policy := ListServer.find?_keep_self ..
  ready := by
    rw [ListServer.find?_keep_of_ne (b.key_ne_of_ne (by decide))]
    exact h.ready
  deadLetters := by
    rw [ListServer.find?_keep_of_ne (b.key_ne_of_ne (by decide))]
    exact h.deadLetters

theorem list?_ready (h : b.Mirrors s l) : s.list? b.readyKey = some l.ready :=
  ListServer.list?_of_find? h.ready

theorem list?_deadLetters (h : b.Mirrors s l) : s.list? b.deadLetterKey = some l.deadLetters :=
  ListServer.list?_of_find? h.deadLetters

/-- A message is put behind all others. -/
theorem run_pushBack_ready (h : b.Mirrors s l) (message : String) :
    s.run (.pushBack b.readyKey message)
      = (.number (l.ready.length + 1), s.keepList (b.key .ready) (l.ready ++ [message])) := by
  simp only [ListServer.run, h.list?_ready]
  rfl

theorem run_pushBack_deadLetters (h : b.Mirrors s l) (entry : String) :
    s.run (.pushBack b.deadLetterKey entry)
      = (.number (l.deadLetters.length + 1),
          s.keepList (b.key .deadLetter) (l.deadLetters ++ [entry])) := by
  simp only [ListServer.run, h.list?_deadLetters]
  rfl

/-- A text is put on the ready queue on the server as within a process. -/
theorem inject (h : b.Mirrors s l) (message : String) :
    (b.inject message s).1 = .ok () ∧ b.Mirrors (b.inject message s).2 (l.pushRaw message) := by
  simp only [RemoteBroker.inject, h.run_pushBack_ready]
  exact ⟨rfl, h.keepReady _⟩

/-- A message is taken on the server as within a process, whether or not it is waited for. -/
theorem takeFirst (h : b.Mirrors s l) (timeout : Span) {answer : String → ListServer.Reply}
    (ha : ∀ m, RemoteBroker.answer (.popReady timeout) (answer m) = (Ticket.ofMessage m).map some) :
    RemoteBroker.answer (.popReady timeout) (s.takeFirst b.readyKey answer).1 = l.popReady.1 ∧
      b.Mirrors (s.takeFirst b.readyKey answer).2 l.popReady.2 := by
  rw [ListServer.takeFirst, h.list?_ready]
  cases hr : l.ready with
  | nil =>
    rw [Broker.popReady_nil hr]
    exact ⟨rfl, h⟩
  | cons m rest =>
    rw [Broker.popReady_cons hr]
    exact ⟨ha m, h.keepReady rest⟩

/-- **An operation on a server is answered as within a process**, and leaves there what it would leave
here. -/
theorem perform (h : b.Mirrors s l) {α : Type} (call : BrokerCall α) :
    (b.perform call s).1 = (l.perform call).1 ∧
      b.Mirrors (b.perform call s).2 (l.perform call).2 := by
  cases call with
  | desiredPolicy =>
    have hpolicy : s.find? b.policyKey = l.policy.map .text := h.policy
    simp only [RemoteBroker.perform, request, ListServer.run, Broker.perform]
    cases hl : l.policy <;> simp only [hpolicy, hl, Option.map_none, Option.map_some] <;>
      exact ⟨rfl, h⟩
  | setDesiredPolicy name => exact ⟨rfl, h.keepPolicy name⟩
  | pushReady ticket =>
    simp only [RemoteBroker.perform, request, h.run_pushBack_ready]
    exact ⟨rfl, h.keepReady _⟩
  | popReady timeout =>
    -- a wait of no time asks for what is there; both commands take the first message
    simp only [RemoteBroker.perform, request, Broker.perform_popReady]
    split
    · exact h.takeFirst timeout fun m => rfl
    · exact h.takeFirst timeout fun m => rfl
  | readyLength =>
    simp only [RemoteBroker.perform, request, ListServer.run, h.list?_ready]
    exact ⟨rfl, h⟩
  | pushDeadLetter letter =>
    simp only [RemoteBroker.perform, request, h.run_pushBack_deadLetters]
    exact ⟨rfl, h.keepDeadLetters _⟩
  | deadLetters =>
    simp only [RemoteBroker.perform, request, ListServer.run, h.list?_deadLetters]
    exact ⟨rfl, h⟩
  | deadLetterCount =>
    simp only [RemoteBroker.perform, request, ListServer.run, h.list?_deadLetters]
    exact ⟨rfl, h⟩

end Mirrors

end RemoteBroker

/-! ### Several brokers -/

/-- One complete use of one of several brokers. -/
inductive BrokerUse (ι : Type) : Type 1
  /-- A broker performs an operation, which begins at a given time. -/
  | perform (i : ι) (now : Span) {α : Type} (call : BrokerCall α)
  /-- Somebody else puts a text on the ready queue of a broker as if it were a message. -/
  | inject (i : ι) (message : String)

/-- The broker that is used. -/
def BrokerUse.broker {ι : Type} : BrokerUse ι → ι
  | perform i _ _ => i
  | inject i _ => i

/-- Whether the end of a use can be told. -/
def BrokerUse.hasEnd {ι : Type} : BrokerUse ι → Bool
  | perform _ now call => call.hasEnd now
  | inject _ _ => true

/-- An answer of any kind. -/
abbrev BrokerAnswer : Type 1 := (α : Type) × Except BrokerError α

/-- What is answered to one use after another, and the state after them. -/
def transcript {ι σ : Type} {A : Type 1} (use : BrokerUse ι → σ → A × σ) :
    List (BrokerUse ι) → σ → List A × σ
  | [], s => ([], s)
  | u :: us, s =>
    let (a, s) := use u s
    let (as, s) := transcript use us s
    (a :: as, s)

variable {ι : Type}

/-- A use of one of several independent brokers, and the answer if there is one. -/
def Broker.use [DecidableEq ι] (u : BrokerUse ι) (ls : ι → Broker) : Option BrokerAnswer × (ι → Broker) :=
  match u with
  | .perform i now call =>
    match (ls i).attempt? now call with
    | some (answer, l) => (some ⟨_, answer⟩, Function.update ls i l)
    | none => (none, ls)
  | .inject i message => (some ⟨Unit, .ok ()⟩, Function.update ls i ((ls i).pushRaw message))

section Use

variable [DecidableEq ι]

theorem Broker.use_perform {i : ι} {now : Span} {α : Type} {call : BrokerCall α} (h : call.hasEnd now = true)
    (ls : ι → Broker) : Broker.use (.perform i now call) ls
      = (some ⟨α, ((ls i).perform call).1⟩, Function.update ls i ((ls i).perform call).2) := by
  rw [Broker.use, Broker.attempt?, if_pos h]

/-- Who would wait too long gets no answer, and the brokers stay as they are. -/
theorem Broker.use_of_hasEnd_eq_false {u : BrokerUse ι} (h : u.hasEnd = false) (ls : ι → Broker) :
    Broker.use u ls = (none, ls) := by
  cases u with
  | perform i now call =>
    have hcall : call.hasEnd now = false := h
    rw [Broker.use, Broker.attempt?, hcall, if_neg Bool.false_ne_true]
  | inject i message => cases h

/-- **A use is answered if and only if its end can be told.** -/
theorem Broker.isSome_use (u : BrokerUse ι) (ls : ι → Broker) : (Broker.use u ls).1.isSome = u.hasEnd := by
  cases h : u.hasEnd with
  | false => rw [Broker.use_of_hasEnd_eq_false h, Option.isSome_none]
  | true =>
    cases u with
    | perform i now call => rw [Broker.use_perform h, Option.isSome_some]
    | inject i message => rfl

/-- Those of several uses are answered whose end can be told. -/
theorem Broker.isSome_transcript (us : List (BrokerUse ι)) (ls : ι → Broker) :
    (transcript Broker.use us ls).1.map Option.isSome = us.map BrokerUse.hasEnd := by
  induction us generalizing ls with
  | nil => rfl
  | cons u us ih =>
    have hrest := ih (Broker.use u ls).2
    simp only [transcript, List.map_cons, Broker.isSome_use, hrest]

end Use

namespace RemoteBroker

/-- A use of one of several brokers on one server.  The server itself sees to it that a wait ends. -/
def use (brokers : ι → RemoteBroker) (u : BrokerUse ι) (s : ListServer) : BrokerAnswer × ListServer :=
  match u with
  | .perform i _ call => (⟨_, ((brokers i).perform call s).1⟩, ((brokers i).perform call s).2)
  | .inject i message => (⟨Unit, ((brokers i).inject message s).1⟩, ((brokers i).inject message s).2)

variable {brokers : ι → RemoteBroker} {s s' : ListServer} {ls : ι → Broker}

/-- A use of a broker touches its keys only. -/
theorem find?_use_of_ne {u : BrokerUse ι} {name : String}
    (h : ∀ k, name ≠ (brokers u.broker).key k) : (use brokers u s).2.find? name = s.find? name := by
  cases u with
  | perform i now call => exact find?_perform_of_ne (h _)
  | inject i message => exact find?_inject_of_ne (h _)

/-- No use touches a key that belongs to none of the brokers. -/
theorem find?_transcript_of_ne {name : String} (h : ∀ i k, name ≠ (brokers i).key k)
    (us : List (BrokerUse ι)) : (transcript (use brokers) us s).2.find? name = s.find? name := by
  induction us generalizing s with
  | nil => rfl
  | cons u us ih => exact ih.trans (find?_use_of_ne (h u.broker))

variable [DecidableEq ι]

/-- The other brokers do not notice what one of them does. -/
theorem mirrors_update (hb : Function.Injective fun i => (brokers i).keyspace)
    (h : ∀ i, (brokers i).Mirrors s (ls i)) {i : ι} {l : Broker} (hi : (brokers i).Mirrors s' l)
    (hs : ∀ name, (∀ k, name ≠ (brokers i).key k) → s'.find? name = s.find? name) (j : ι) :
    (brokers j).Mirrors s' (Function.update ls i l j) := by
  by_cases hj : j = i
  · subst hj
    rwa [Function.update_self]
  · rw [Function.update_of_ne hj]
    refine (h j).of_kept fun k => hs _ fun k' hkey => hj (hb ?_)
    exact congrArg keyspace (key_inj hkey).1

/-- **A use of brokers on one server is answered as one of independent brokers**, if its end can be
told. -/
theorem use_eq_local (hb : Function.Injective fun i => (brokers i).keyspace)
    (h : ∀ i, (brokers i).Mirrors s (ls i)) {u : BrokerUse ι} (hu : u.hasEnd = true) :
    (Broker.use u ls).1 = some (use brokers u s).1 ∧
      ∀ i, (brokers i).Mirrors (use brokers u s).2 ((Broker.use u ls).2 i) := by
  have hkept : ∀ name, (∀ k, name ≠ (brokers u.broker).key k) →
      (use brokers u s).2.find? name = s.find? name := fun _ => find?_use_of_ne
  cases u with
  | perform i now call =>
    obtain ⟨hanswer, hi⟩ := (h i).perform call
    rw [Broker.use_perform hu]
    refine ⟨?_, mirrors_update hb h hi hkept⟩
    simp only [use, hanswer]
  | inject i message =>
    obtain ⟨hanswer, hi⟩ := (h i).inject message
    refine ⟨?_, mirrors_update hb h hi hkept⟩
    simp only [use, Broker.use, hanswer]

/-- The first uses are answered alike, as long as the end of each can be told. -/
theorem take_transcript_of_mirrors (hb : Function.Injective fun i => (brokers i).keyspace)
    (h : ∀ i, (brokers i).Mirrors s (ls i)) (us : List (BrokerUse ι)) {n : Nat}
    (hn : ∀ u ∈ us.take n, u.hasEnd = true) :
    (transcript Broker.use us ls).1.take n = ((transcript (use brokers) us s).1.take n).map some := by
  -- what is kept changes with every use, so it must stay general
  induction us generalizing s ls n with
  | nil => simp [transcript]
  | cons u us ih =>
    cases n with
    | zero => rfl
    | succ n =>
      rw [List.take_succ_cons] at hn
      obtain ⟨hanswer, hafter⟩ := use_eq_local hb h (hn u List.mem_cons_self)
      have hrest := ih hafter fun u' hu' => hn u' (List.mem_cons_of_mem u hu')
      simp only [transcript, List.take_succ_cons, List.map_cons, hanswer, hrest]

/-- The keys of a broker that are not there hold what a broker without messages holds. -/
theorem mirrors_empty {b : RemoteBroker} (h : ∀ k, s.find? (b.key k) = none) :
    b.Mirrors s .empty where
  policy := h .policy
  ready := h .ready
  deadLetters := h .deadLetter

/-- Two brokers, the namespace of one of which looks like a key of the other. -/
def neighbours (second : Bool) : RemoteBroker := ⟨if second then "a:ready" else "a"⟩

/-- Each of the neighbours gets a text that is no message, one waits for more, and a policy is wanted of
one of them.  In the end somebody would wait for ever. -/
def crossedOnce : List (BrokerUse Bool) :=
  let now := Span.seconds 1
  [.inject false "none", .inject true "nothing", .perform true now .readyLength,
    .perform false now (.popReady Span.zero), .perform false now (.popReady (Span.seconds 1)),
    .perform true now (.setDesiredPolicy "sjf"), .perform false now .desiredPolicy,
    .perform true now .desiredPolicy, .perform true now (.popReady (Span.seconds 1)),
    .perform true now (.popReady Span.longest)]

end RemoteBroker

end JobDispatch
