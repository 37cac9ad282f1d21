/-
# Subscriptions to the destruction of units

The destroy subscriptions of the specification (section 3), as `register_destroy_function` and
`unregister_destroy_function` keep them and `destroy` notifies them (section 4.1).

Systems that keep data for units are told when a unit is destroyed.  A subscriber has one
subscription, and subscriptions are told in order.  Removing a subscription moves the last one into
its place; all others keep their order.
-/
import UnitBake.Entity.Id

namespace UnitBake

/-- A subscriber and how many times it has been told. -/
structure Subscription where
  subscriber : UInt64
  told : Nat
deriving DecidableEq, Repr

/-- A subscriber being told of a unit; `count` is the number of times it has now been told. -/
structure Notice where
  subscriber : UInt64
  id : EntityId
  count : Nat
deriving DecidableEq, Repr

/-- Tells a subscriber of a unit. -/
def Subscription.tell (x : Subscription) (id : EntityId) : Notice × Subscription :=
  (⟨x.subscriber, id, x.told + 1⟩, { x with told := x.told + 1 })

/-- The subscriptions in the order in which they are told. -/
structure Subscriptions where
  list : List Subscription
deriving DecidableEq, Repr

/-- How a subscriber may break the contract. -/
inductive SubscriptionError where
  | registeredTwice (subscriber : UInt64)
  | unknown (subscriber : UInt64)
deriving DecidableEq, Repr

/-- A subscriber as it is shown to a developer. -/
def subscriberText (s : UInt64) : String := "SubscriberId(" ++ toString s.toNat ++ ")"

/-- The text of the error. -/
def SubscriptionError.message : SubscriptionError → String
  | .registeredTwice s => "subscriber " ++ subscriberText s ++ " registered twice"
  | .unknown s => "unknown destroy function for subscriber " ++ subscriberText s

namespace Subscriptions

/-- No subscriptions. -/
def empty : Subscriptions := ⟨[]⟩

/-- The subscribers in order. -/
def subscribers (s : Subscriptions) : List UInt64 := s.list.map (·.subscriber)

/-- Whether a subscriber has a subscription. -/
def contains (s : Subscriptions) (subscriber : UInt64) : Bool :=
  s.list.any (·.subscriber == subscriber)

/-- How many subscriptions there are. -/
def size (s : Subscriptions) : Nat := s.list.length

/-- Whether there is no subscription. -/
def isEmpty (s : Subscriptions) : Bool := s.list.isEmpty

/-- Adds a subscription at the end. -/
def register (s : Subscriptions) (subscriber : UInt64) :
    Except SubscriptionError Subscriptions :=
  if s.contains subscriber then .error (.registeredTwice subscriber)
  else .ok ⟨s.list ++ [⟨subscriber, 0⟩]⟩

/-- Removes the element at a place of a list; the last one moves into its place. -/
def removeAt {α : Type} (place : Nat) (xs : List α) : List α :=
  match xs.getLast? with
  | none => []
  | some last => (xs.set place last).dropLast

/-- Removes the subscription of a subscriber. -/
def unregister (s : Subscriptions) (subscriber : UInt64) :
    Except SubscriptionError Subscriptions :=
  match s.list.findIdx? (·.subscriber == subscriber) with
  | none => .error (.unknown subscriber)
  | some place => .ok ⟨removeAt place s.list⟩

/-- Tells all subscribers of a unit. -/
def tell (s : Subscriptions) (id : EntityId) : List Notice × Subscriptions :=
  let told := s.list.map fun x => x.tell id
  (told.map (·.1), ⟨told.map (·.2)⟩)

/-- The subscribers as they are shown to a developer. -/
def debug (s : Subscriptions) : String :=
  "[" ++ String.intercalate ", " (s.subscribers.map subscriberText) ++ "]"

end Subscriptions

end UnitBake
