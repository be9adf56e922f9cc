import JobDispatch.Policy.Basic
import JobDispatch.Text.Dictionary
import JobDispatch.Text.Quoted

/-!
# Policies by name

A registry has a factory of policies under each of its names.  This is how the active policy is switched
while jobs are queued.  Any policies will do.  The factories may keep something in mind from one call to
the next, each for itself or all of them together; the built-in ones keep nothing, so that a registry of
them needs only the kind under each name.

## Main definitions

* `PolicyFactory` — the types of factories, with the policies that they make.
* `PolicyRegistry` — factories under names, in the order of the names.
* `PolicyRegistry.create` — a policy from the factory of a name.
* `InvalidPolicy` — a name that has no factory, and the names that were possible.

## Main results

* `PolicyRegistry.create_of_find?` — a name that has a factory gets what the factory makes.
* `PolicyRegistry.create_builtin` — the built-in factories are the same after every call.
-/

namespace JobDispatch

/-- A name that stands for no policy, and the names that do. -/
structure InvalidPolicy where
  name : String
  valid : List String
  deriving DecidableEq

/-- What is said about a name that stands for no policy. -/
def InvalidPolicy.message (e : InvalidPolicy) : String :=
  "Invalid policy '" ++ e.name ++ "', must be one of: " ++ String.intercalate ", " e.valid

/-- **The types of factories**, with the type of the policies that they make and the type of what they
keep in mind. -/
class PolicyFactory (φ : Type) (π μ : outParam Type) where
  /-- The factory of the policies of a built-in kind. -/
  ofKind : PolicyKind → φ
  /-- What a call of a factory makes, and what is in mind after it. -/
  call : φ → μ → π × μ

/-- A kind makes an empty policy of its own at every call. -/
instance : PolicyFactory PolicyKind Policy Unit where
  ofKind k := k
  call k _ := (.ofKind k, ())

/-- Factories of type `φ` by their names, in the order of the names; the built-in ones unless others are
named. -/
structure PolicyRegistry (φ : Type := PolicyKind) (μ : Type := Unit) where
  factories : List (String × φ)
  /-- What the factories keep in mind. -/
  memory : μ

namespace PolicyRegistry

variable {φ π μ : Type}

/-- A registry without names. -/
def empty [Inhabited μ] : PolicyRegistry φ μ := ⟨[], default⟩

/-- Puts a factory under a name; an earlier one is forgotten. -/
def register (r : PolicyRegistry φ μ) (name : String) (factory : φ) : PolicyRegistry φ μ :=
  { r with factories := Dictionary.insert name factory r.factories }

/-- The factory under a name. -/
def find? (r : PolicyRegistry φ μ) (name : String) : Option φ := Dictionary.find? name r.factories

/-- Whether there is a factory under a name. -/
def contains (r : PolicyRegistry φ μ) (name : String) : Bool := (r.find? name).isSome

/-- The names, in order. -/
def names (r : PolicyRegistry φ μ) : List String := Dictionary.names r.factories

/-- The complaint about a name. -/
def invalid (r : PolicyRegistry φ μ) (name : String) : InvalidPolicy := ⟨name, r.names⟩

/-- Checks that there is a factory under a name. -/
def validate (r : PolicyRegistry φ μ) (name : String) : Except InvalidPolicy Unit :=
  if r.contains name then .ok () else .error (r.invalid name)

/-- How a registry is shown: by its names. -/
def shown (r : PolicyRegistry φ μ) : String := Text.quoteList r.names

section Factories

variable [PolicyFactory φ π μ]

/-- A registry that knows the built-in kinds by their own names. -/
def builtin [Inhabited μ] : PolicyRegistry φ μ :=
  PolicyKind.builtin.foldl (fun r k => r.register k.name (PolicyFactory.ofKind k)) empty

/-- Lets `round_robin` stand for round-robin policies with the given time quantum. -/
def withTimeQuantum (r : PolicyRegistry φ μ) (quantum : Span) : PolicyRegistry φ μ :=
  r.register (PolicyKind.roundRobin quantum).name (PolicyFactory.ofKind (.roundRobin quantum))

/-- **A policy from the factory under a name**, and the registry after the call. -/
def create (r : PolicyRegistry φ μ) (name : String) : Except InvalidPolicy (π × PolicyRegistry φ μ) :=
  match r.find? name with
  | some f =>
    let (fresh, memory) := PolicyFactory.call f r.memory
    .ok (fresh, { r with memory := memory })
  | none => .error (r.invalid name)

/-- The registry after the factory under a name, if there is one, has been called. -/
def called (r : PolicyRegistry φ μ) (name : String) : PolicyRegistry φ μ :=
  match r.find? name with
  | some f => { r with memory := (PolicyFactory.call f r.memory).2 }
  | none => r

/-- **A name that has a factory gets what the factory makes.** -/
theorem create_of_find? {r : PolicyRegistry φ μ} {name : String} {f : φ} (h : r.find? name = some f) :
    r.create name = .ok ((PolicyFactory.call f r.memory).1, r.called name) := by
  rw [create, called, h]

theorem create_of_find?_eq_none {r : PolicyRegistry φ μ} {name : String} (h : r.find? name = none) :
    r.create name = .error (r.invalid name) := by
  rw [create, h]

/-- A call leaves the factories. -/
@[simp] theorem factories_called (r : PolicyRegistry φ μ) (name : String) :
    (r.called name).factories = r.factories := by
  rw [called]
  split <;> rfl

end Factories

theorem find?_register_self (r : PolicyRegistry φ μ) (name : String) (f : φ) :
    (r.register name f).find? name = some f := Dictionary.find?_insert_self ..

theorem find?_register_of_ne (r : PolicyRegistry φ μ) {name other : String} (h : other ≠ name)
    (f : φ) : (r.register name f).find? other = r.find? other :=
  Dictionary.find?_insert_of_ne h ..

theorem contains_iff {r : PolicyRegistry φ μ} {name : String} :
    r.contains name = true ↔ ∃ f, r.find? name = some f := Option.isSome_iff_exists

theorem contains_eq_false_iff {r : PolicyRegistry φ μ} {name : String} :
    r.contains name = false ↔ r.find? name = none := by
  rw [contains, ← Bool.not_eq_true, Option.not_isSome_iff_eq_none]

/-- **A policy from a built-in factory** is an empty one of its kind, and the registry stays. -/
theorem create_builtin {r : PolicyRegistry} {name : String} {k : PolicyKind} (h : r.find? name = some k) :
    r.create name = .ok (.ofKind k, r) := by
  rw [create, h]
  rfl

end PolicyRegistry

end JobDispatch
