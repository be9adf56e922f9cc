import Mathlib.Data.List.Induction
import JobDispatch.Proofs.Engine.Following
import JobDispatch.Proofs.Scheduler.Wishes

/-!
# Which policy runs

The active policy is the last wanted one that had a factory, and the default policy as long as there was
none.  A factory is called for the default policy when the engine is made, and then once for each change
of the active name and at no other time: a name that is wanted again changes nothing, even if another
name has the same factory, and a name without a factory is remembered until a known one is wanted.

The factories may be any, and they may keep in mind whatever they like, a record of their calls for
instance.  Which of them have been called is therefore said by what they have in mind: it is what calls
in this order leave behind, whatever the factories are.

## Main definitions

* `Registration` — a way to tell a registry what a name stands for.
* `PolicyRegistry.calledAll` — a registry some factories of which have been called.
* `Occasion` — the services and their state when a tick begins.
* `Engine.after` — an engine after some ticks, with anything in between.
* `Engine.HasCalled` — an engine has called some factories and runs what the last of them has made.

## Main results

* `PolicyRegistry.find?_ofRegistrations` — the last registration of a name counts.
* `Engine.active_after` — **the active policy is the last known one that was wanted.**
* `Engine.HasCalled.after` — **one factory is called for each change of the active name.**
* `Engine.follows_control_key` — **the active policy follows what is wanted, and nothing else.**
-/

namespace JobDispatch

/-! ### Registrations -/

/-- A way to tell a registry what a name stands for. -/
inductive Registration (φ : Type)
  | register (name : String) (factory : φ)
  | timeQuantum (quantum : Span)

variable {φ π μ : Type} [PolicyFactory φ π μ]

namespace Registration

/-- The name that is given a meaning. -/
def name : Registration φ → String
  | register name _ => name
  | timeQuantum quantum => (PolicyKind.roundRobin quantum).name

/-- The factory that is put under the name. -/
def factory : Registration φ → φ
  | register _ factory => factory
  | timeQuantum quantum => PolicyFactory.ofKind (.roundRobin quantum)

/-- Tells a registry. -/
def applyTo (r : PolicyRegistry φ μ) : Registration φ → PolicyRegistry φ μ
  | register name factory => r.register name factory
  | timeQuantum quantum => r.withTimeQuantum quantum

theorem applyTo_eq (r : PolicyRegistry φ μ) (g : Registration φ) :
    applyTo r g = r.register g.name g.factory := by
  cases g <;> rfl

end Registration

namespace PolicyRegistry

/-- The registry that has been told some things, one after another. -/
def ofRegistrations (memory : μ) (gs : List (Registration φ)) : PolicyRegistry φ μ :=
  gs.foldl Registration.applyTo ⟨[], memory⟩

/-- **The last registration of a name counts.** -/
theorem find?_ofRegistrations (memory : μ) (gs : List (Registration φ)) (name : String) :
    (ofRegistrations memory gs).find? name
      = (gs.reverse.find? fun g => g.name == name).map Registration.factory := by
  induction gs using List.reverseRecOn with
  | nil => rfl
  | append_singleton gs g ih =>
    rw [ofRegistrations, List.foldl_append, List.foldl_cons, List.foldl_nil, ← ofRegistrations,
      Registration.applyTo_eq, List.reverse_append, List.reverse_singleton, List.singleton_append,
      List.find?_cons]
    by_cases hname : g.name = name
    · subst hname
      rw [find?_register_self, beq_self_eq_true]
      rfl
    · rw [find?_register_of_ne _ (Ne.symm hname), ih, beq_false_of_ne hname]

example : ofRegistrations () (PolicyKind.builtin.map fun k => .register k.name k) = builtin := rfl

/-- The registry after the factories of some names have been called, one after another. -/
def calledAll (r : PolicyRegistry φ μ) (names : List String) : PolicyRegistry φ μ := names.foldl called r

theorem calledAll_append (r : PolicyRegistry φ μ) (names names' : List String) :
    r.calledAll (names ++ names') = (r.calledAll names).calledAll names' := List.foldl_append

/-- Calls leave the factories. -/
@[simp] theorem factories_calledAll (r : PolicyRegistry φ μ) (names : List String) :
    (r.calledAll names).factories = r.factories := by
  induction names generalizing r with
  | nil => rfl
  | cons name names ih => exact (ih _).trans (factories_called r name)

end PolicyRegistry

/-! ### One tick after another -/

/-- The services and their state when a tick begins. -/
structure Occasion (σ : Type) where
  services : Services σ
  state : σ

variable [SchedulingPolicy π] {σ : Type}

/-- The name that is wanted on an occasion, if it can be read. -/
def Occasion.wanted (o : Occasion σ) : Option String := o.services.wanted o.state

namespace Engine

variable {e : Engine φ π μ} {name : String}

/-- A tick on an occasion. -/
def tickOn (e : Engine φ π μ) (o : Occasion σ) : Except EngineError TickReport × Engine φ π μ × σ :=
  e.tick o.services o.state

/-- **An engine after some ticks.**  Between two ticks anything may happen to what is shared. -/
def after (e : Engine φ π μ) (os : List (Occasion σ)) : Engine φ π μ :=
  os.foldl (fun e o => (e.tickOn o).2.1) e

/-- The active names after each of some ticks. -/
def actives (e : Engine φ π μ) : List (Occasion σ) → List String
  | [] => []
  | o :: os => (e.tickOn o).2.1.active :: (e.tickOn o).2.1.actives os

/-- Those of some names that differ from the one before. -/
def changes : String → List String → List String
  | _, [] => []
  | a, b :: names => (if b = a then [] else [b]) ++ changes b names

/-- A wish is adopted if it has a factory. -/
theorem active_follow (e : Engine φ π μ) (desired : Option String) :
    (e.follow desired).1.active = (desired.filter e.registry.contains).getD e.active := by
  cases desired with
  | none => rfl
  | some name =>
    rw [Option.filter_some]
    by_cases hname : name = e.active
    · subst hname
      rw [follow_active]
      split <;> rfl
    · cases h : e.registry.find? name with
      | none =>
        rw [follow_of_find?_eq_none hname h, PolicyRegistry.contains_eq_false_iff.mpr h]
        rfl
      | some f =>
        rw [follow_of_find? hname h, PolicyRegistry.contains_iff.mpr ⟨f, h⟩]
        rfl

/-- What a tick changes besides the tickets is what is wanted. -/
theorem tickOn_continues (e : Engine φ π μ) (o : Occasion σ) :
    (e.tickOn o).2.1.Continues (e.follow o.wanted).1 := tick_continues o.services e o.state

/-- A tick that reads a name goes on with the engine that has followed it. -/
theorem tickOn_of_wanted {o : Occasion σ} (h : o.wanted = some name) (e : Engine φ π μ) : e.tickOn o
    = (e.follow (some name)).1.finish o.services .ingesting (o.services.afterReading e o.state) :=
  tick_of_wanted h e

theorem active_tickOn (e : Engine φ π μ) (o : Occasion σ) :
    (e.tickOn o).2.1.active = (o.wanted.filter e.registry.contains).getD e.active :=
  (e.tickOn_continues o).active.trans (active_follow e _)

/-! ### The factories that are called -/

/-- **An engine has called the factories of some names**, one after another, and no others, and what the
last of them has made is what it runs. -/
structure HasCalled (r : PolicyRegistry φ μ) (names : List String) (e : Engine φ π μ) : Prop where
  registry : e.registry = r.calledAll names
  running : ∃ earlier f, names = earlier ++ [e.active] ∧ r.find? e.active = some f ∧
    SchedulingPolicy.Descends (PolicyFactory.call f (r.calledAll earlier).memory).1 e.policy

namespace HasCalled

variable {r : PolicyRegistry φ μ} {names : List String}

/-- The calls have left the factories. -/
theorem find?_registry (h : HasCalled r names e) (name : String) :
    e.registry.find? name = r.find? name := by
  rw [PolicyRegistry.find?, h.registry, PolicyRegistry.factories_calledAll, PolicyRegistry.find?]

theorem contains_registry (h : HasCalled r names e) : e.registry.contains = r.contains := by
  funext name
  rw [PolicyRegistry.contains, h.find?_registry, PolicyRegistry.contains]

/-- Reading what is wanted calls the factory of the new name if the active name changes. -/
theorem follow (h : HasCalled r names e) (desired : Option String) :
    HasCalled r (names ++ changes e.active [(e.follow desired).1.active]) (e.follow desired).1 := by
  -- only the memory of a wish changes
  have hsame : ∀ rejected, HasCalled r (names ++ changes e.active [e.active])
      { e with rejected := rejected } := fun rejected => by
    rw [changes, changes, if_pos rfl, List.append_nil, List.append_nil]
    exact ⟨h.registry, h.running⟩
  cases desired with
  | none => exact hsame e.rejected
  | some name =>
    by_cases hname : name = e.active
    · subst hname
      rw [follow_active]
      exact hsame none
    · cases hf : e.registry.find? name with
      | none =>
        rw [follow_of_find?_eq_none hname hf]
        exact hsame (some name)
      | some f =>
        rw [follow_of_find? hname hf, changes, changes, if_neg hname, List.append_nil]
        refine ⟨?_, names, f, rfl, h.find?_registry name ▸ hf, ?_⟩
        · rw [PolicyRegistry.calledAll_append, ← h.registry]
          rfl
        · rw [← h.registry]
          exact .enqueueAll .refl _

/-- **A tick calls the factory of the new name if the active name changes**, and no other. -/
theorem tickOn (h : HasCalled r names e) (o : Occasion σ) :
    HasCalled r (names ++ changes e.active [(e.tickOn o).2.1.active]) (e.tickOn o).2.1 := by
  obtain ⟨hregistry, earlier, f, hnames, hf, hpolicy⟩ := h.follow o.wanted
  have hrest := e.tickOn_continues o
  rw [← hrest.active] at hregistry hnames hf
  exact ⟨hrest.registry.trans hregistry, earlier, f, hnames, hf, hpolicy.trans hrest.policy⟩

/-- **One factory is called for each change of the active name.** -/
theorem after (h : HasCalled r names e) (os : List (Occasion σ)) :
    HasCalled r (names ++ changes e.active (e.actives os)) (e.after os) := by
  induction os generalizing e names with
  | nil =>
    rw [actives, changes, List.append_nil]
    exact h
  | cons o os ih =>
    have hrest := ih (h.tickOn o)
    rwa [changes, changes, List.append_nil, List.append_assoc] at hrest

end HasCalled

/-- A built-in policy that runs is of the kind that its name stands for. -/
theorem HasCalled.find?_active {r : PolicyRegistry} {names : List String} {e : Engine}
    (h : HasCalled r names e) : r.find? e.active = some e.policy.kind := by
  obtain ⟨earlier, kind, -, hkind, hpolicy⟩ := h.running
  rw [hkind, Policy.kind_of_descends hpolicy]
  exact congrArg some (Policy.kind_ofKind kind).symm

/-- **The active policy is the last known one that was wanted**, or the first one if there was none. -/
theorem active_after {r : PolicyRegistry φ μ} {names : List String} (h : HasCalled r names e)
    (os : List (Occasion σ)) : (e.after os).active
      = ((os.filterMap Occasion.wanted).filter r.contains).getLast?.getD e.active := by
  induction os generalizing e names with
  | nil => rfl
  | cons o os ih =>
    have hfirst := active_tickOn e o
    have hrest := ih (h.tickOn o)
    rw [h.contains_registry] at hfirst
    rw [Engine.after, List.foldl_cons, ← Engine.after, hrest, hfirst, List.filterMap_cons]
    cases hw : o.wanted with
    | none => rfl
    | some name =>
      cases hknown : r.contains name with
      | false => simp only [Option.filter_some, hknown, Option.getD_none, Bool.false_eq_true, if_false,
          List.filter_cons]
      | true => simp only [Option.filter_some, hknown, Option.getD_some, if_true, List.filter_cons,
          List.getLast?_cons]

/-! ### What is wanted and what runs -/

/-- **What a tick makes of the name that it reads.** -/
structure Heeds (e : Engine φ π μ) (o : Occasion σ) : Prop where
  /-- A name that has a factory is active afterwards, and none is remembered. -/
  known : ∀ name, o.wanted = some name → e.registry.contains name = true →
    (e.tickOn o).2.1.active = name ∧ (e.tickOn o).2.1.rejected = none
  /-- The factory of a new name is called, and what it makes takes over all tickets. -/
  adopted : ∀ name f, o.wanted = some name → name ≠ e.active → e.registry.find? name = some f →
    e.tickOn o = { e with
        registry := e.registry.called name
        policy := (SchedulingPolicy.drainInto e.policy (PolicyFactory.call f e.registry.memory).1).target
        active := name
        rejected := none }.finish o.services .ingesting (o.services.afterReading e o.state)
  /-- The active name leaves the policy with all that it holds. -/
  again : o.wanted = some e.active → e.tickOn o
    = { e with rejected := none }.finish o.services .ingesting (o.services.afterReading e o.state)
  /-- A name that stands for nothing leaves the policy with all that it holds, and is remembered. -/
  unknown : ∀ name, o.wanted = some name → e.registry.contains name = false →
    e.tickOn o = { e with rejected := some name }.finish o.services .ingesting
        (o.services.afterReading e o.state) ∧
      (e.tickOn o).2.1.active = e.active ∧ (e.tickOn o).2.1.rejected = some name
  /-- Without a wish everything stays. -/
  unset : o.wanted = none → (e.tickOn o).2.1.Continues e

/-- An engine whose active name is known heeds every wish. -/
theorem heeds_of_contains (he : e.registry.contains e.active = true) (o : Occasion σ) : e.Heeds o where
  known name hw hknown := by
    have hrest := e.tickOn_continues o
    rw [hw] at hrest
    constructor
    · rw [active_tickOn, hw, Option.filter_some, if_pos hknown]
      rfl
    · rw [hrest.rejected]
      by_cases hname : name = e.active
      · subst hname
        rw [follow_active]
      · obtain ⟨f, hf⟩ := PolicyRegistry.contains_iff.mp hknown
        rw [follow_of_find? hname hf]
  adopted name f hw hname hf := by rw [tickOn_of_wanted hw, follow_of_find? hname hf]
  again hw := by rw [tickOn_of_wanted hw, follow_active]
  unknown name hw hunknown := by
    have hnone := PolicyRegistry.contains_eq_false_iff.mp hunknown
    -- the active name has a factory
    have hname : name ≠ e.active := by
      rintro rfl
      cases he.symm.trans hunknown
    have hrest := e.tickOn_continues o
    rw [hw, follow_of_find?_eq_none hname hnone] at hrest
    refine ⟨?_, hrest.active, hrest.rejected⟩
    rw [tickOn_of_wanted hw, follow_of_find?_eq_none hname hnone]
  unset hw := by
    have hrest := e.tickOn_continues o
    rwa [hw] at hrest

/-- A registered default is active in a new engine, which has called its factory. -/
theorem create_of_contains {r : PolicyRegistry φ μ} {config : EngineConfig}
    (h : r.contains config.defaultPolicy = true) :
    ∃ e : Engine φ π μ, Engine.create r config = .ok e ∧ e.active = config.defaultPolicy ∧
      HasCalled r [config.defaultPolicy] e := by
  obtain ⟨f, hf⟩ := PolicyRegistry.contains_iff.mp h
  refine ⟨⟨r.called config.defaultPolicy, config, (PolicyFactory.call f r.memory).1, config.defaultPolicy,
    none⟩, ?_, rfl, rfl, [], f, rfl, hf, .refl⟩
  rw [Engine.create, PolicyRegistry.create_of_find? hf]

/-- A wish that is granted is adopted by the next tick that reaches the broker, unless another follows
it. -/
theorem active_of_setPolicy {c : Control φ μ} (hc : c.registry.contains = e.registry.contains)
    {m m' : Moment} {sh : Shared} {s : Scheduler} {es : List Event}
    (hset : c.setPolicy m.services name sh = (.ok (), s.shared))
    (hes : ∀ ev ∈ es, ∀ other, ev.move ≠ .wish other) (hm : m'.brokerOutage = none) :
    (e.tick m'.services (s.run es).shared).2.1.active = name := by
  obtain ⟨hknown, hkey⟩ := Control.of_setPolicy_ok hset
  have hread : m'.services.wanted (s.run es).shared = some name := by
    rw [Services.wanted, Moment.services_broker hm]
    exact (Scheduler.policy_run hes s).trans hkey
  have hactive := active_tickOn e ⟨m'.services, (s.run es).shared⟩
  rw [Occasion.wanted, hread, Option.filter_some, if_pos (hc ▸ hknown)] at hactive
  exact hactive

/-- **The active policy follows what is wanted, and nothing else.**  Any factories of any policies may be
registered, any names may be wanted, known and unknown, and anything may happen between two ticks.  The
factories that have been called are that of the default policy and one for each change of the active
name. -/
theorem follows_control_key {gs : List (Registration φ)} {config : EngineConfig} {memory : μ}
    (h : (PolicyRegistry.ofRegistrations memory gs).contains config.defaultPolicy = true) :
    (∀ name, (PolicyRegistry.ofRegistrations memory gs).find? name
      = (gs.reverse.find? fun g => g.name == name).map Registration.factory) ∧
    ∃ e₀ : Engine φ π μ, Engine.create (.ofRegistrations memory gs) config = .ok e₀ ∧
      ∀ os : List (Occasion σ),
        (e₀.after os).active
          = ((os.filterMap Occasion.wanted).filter
              (PolicyRegistry.ofRegistrations memory gs).contains).getLast?.getD config.defaultPolicy ∧
        HasCalled (.ofRegistrations memory gs)
          (config.defaultPolicy :: changes config.defaultPolicy (e₀.actives os)) (e₀.after os) ∧
        (∀ o : Occasion σ, (e₀.after os).Heeds o) ∧
        ∀ (c : Control φ μ) (m : Moment) (sh : Shared) (name : String) (s : Scheduler) (es : List Event)
            (m' : Moment), c.registry.factories = (PolicyRegistry.ofRegistrations memory gs).factories →
          c.setPolicy m.services name sh = (.ok (), s.shared) →
          (∀ ev ∈ es, ∀ other, ev.move ≠ .wish other) → m'.brokerOutage = none →
            ((e₀.after os).tick m'.services (s.run es).shared).2.1.active = name := by
  obtain ⟨e₀, hcreate, hactive, hcalled⟩ := create_of_contains h
  refine ⟨PolicyRegistry.find?_ofRegistrations memory gs, e₀, hcreate, fun os => ?_⟩
  have hafter := hcalled.after os
  rw [hactive] at hafter
  refine ⟨hactive ▸ active_after hcalled os, hafter, fun o => heeds_of_contains ?_ o, ?_⟩
  · obtain ⟨-, f, -, hf, -⟩ := hafter.running
    exact PolicyRegistry.contains_iff.mpr ⟨f, (hafter.find?_registry _).trans hf⟩
  · intro c m sh name s es m' hc hset hes hm
    refine active_of_setPolicy ?_ hset hes hm
    rw [hafter.contains_registry]
    funext other
    rw [PolicyRegistry.contains, PolicyRegistry.find?, hc, PolicyRegistry.contains, PolicyRegistry.find?]

end Engine

/-! ### A registry with a policy of its own -/

/-- The built-in policies and a stack, which gives the newest ticket first. -/
inductive WithStack
  | builtin (policy : Policy)
  | stack (tickets : List Ticket)

namespace WithStack

def dequeue? : WithStack → Option (Ticket × WithStack)
  | builtin p => p.dequeue?.map fun (t, q) => (t, builtin q)
  | stack [] => none
  | stack (t :: ts) => some (t, stack ts)

def size : WithStack → Nat
  | builtin p => p.size
  | stack ts => ts.length

theorem size_lt_of_dequeue? {p q : WithStack} {t : Ticket} (h : p.dequeue? = some (t, q)) :
    q.size < p.size := by
  cases p with
  | builtin p =>
    obtain ⟨⟨t', p'⟩, hd, heq⟩ := Option.map_eq_some_iff.mp h
    cases heq
    rw [size, size, Policy.size_of_dequeue? hd]
    exact Nat.lt_succ_self _
  | stack ts =>
    cases ts with
    | nil => cases h
    | cons t' ts =>
      cases h
      exact Nat.lt_succ_self _

instance : SchedulingPolicy WithStack where
  name | builtin p => p.name | stack _ => "lifo"
  enqueue | builtin p, t => builtin (p.enqueue t) | stack ts, t => stack (t :: ts)
  dequeue? := dequeue?
  peek? p := p.dequeue?.map Prod.fst
  size := size
  peek?_eq _ := rfl
  size_lt_of_dequeue? := size_lt_of_dequeue?

end WithStack

/-- A factory of policies of a built-in kind, or of stacks, that notes each of its calls. -/
structure NotingFactory where
  label : String
  kind? : Option PolicyKind

instance : PolicyFactory NotingFactory WithStack (List String) where
  ofKind k := ⟨k.name, some k⟩
  call f notes := (f.kind?.elim (.stack []) fun k => .builtin (.ofKind k), notes ++ [f.label])

namespace Engine

/-- A name of which the later meaning counts, and round robin with a quantum of two seconds. -/
def twoPolicies : List (Registration NotingFactory) :=
  [.register "newest" ⟨"first come", some .fcfs⟩, .timeQuantum (Span.seconds 2),
    .register "newest" ⟨"stack", none⟩]

/-- A tick at which a name is wanted. -/
def asking (name : String) : Occasion Shared :=
  ⟨(answering 1).services, { broker := { policy := some name } }⟩

/-- A known name is adopted and its factory is called once, though the name is wanted twice; an unknown
one after it is remembered and does no harm. -/
theorem heeded_of_twoPolicies :
    (PolicyRegistry.ofRegistrations ([] : List String) twoPolicies).contains "newest" = true ∧
    ∃ e₀ : Engine NotingFactory WithStack (List String),
      Engine.create (.ofRegistrations [] twoPolicies) { defaultPolicy := "newest" } = .ok e₀ ∧
      (e₀.after [asking "round_robin", asking "round_robin"]).active = "round_robin" ∧
      (e₀.after [asking "round_robin", asking "round_robin"]).registry.memory = ["stack", "round_robin"] ∧
      ((e₀.after [asking "round_robin", asking "round_robin"]).tickOn (asking "lottery")).2.1.active
        = "round_robin" ∧
      ((e₀.after [asking "round_robin", asking "round_robin"]).tickOn (asking "lottery")).2.1.rejected
        = some "lottery" := by
  have hdefault : (PolicyRegistry.ofRegistrations ([] : List String) twoPolicies).contains "newest"
      = true := by
    decide +kernel
  obtain ⟨-, e₀, hcreate, hall⟩ :=
    @follows_control_key NotingFactory WithStack (List String) _ _ Shared twoPolicies
      { defaultPolicy := "newest" } [] hdefault
  obtain ⟨honce, -⟩ := hall [asking "round_robin"]
  obtain ⟨htwice, hcalled, hheeds, -⟩ := hall [asking "round_robin", asking "round_robin"]
  have hfirst : (e₀.after [asking "round_robin"]).active = "round_robin" := by
    rw [honce]
    decide +kernel
  have hadopted : (e₀.after [asking "round_robin", asking "round_robin"]).active = "round_robin" := by
    rw [htwice]
    decide +kernel
  have hactives : e₀.actives [asking "round_robin", asking "round_robin"] = ["round_robin", "round_robin"] :=
    congrArg₂ (fun a b => [a, b]) hfirst hadopted
  have hunknown : (e₀.after [asking "round_robin", asking "round_robin"]).registry.contains "lottery"
      = false := by
    rw [hcalled.contains_registry]
    decide +kernel
  obtain ⟨-, hsame, hrejected⟩ := (hheeds (asking "lottery")).unknown "lottery" rfl hunknown
  refine ⟨hdefault, e₀, hcreate, hadopted, ?_, hsame.trans hadopted, hrejected⟩
  rw [hcalled.registry, hactives]
  decide +kernel

end Engine

end JobDispatch
