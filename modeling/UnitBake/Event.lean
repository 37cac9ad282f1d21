/-
# Events

The log of the specification (section 8).

What is worth telling about a run besides its result.  Operations return the events they give rise
to, in order, beside their results, also when the result is a failure.
-/
import UnitBake.Entity.Id
import UnitBake.Guid

namespace UnitBake

/-- Something that happened during an operation. -/
inductive Event where
  | unitDestroyed (id : EntityId) (free : Nat)
  | overrideUnmatched (unit : String) (id : Guid)
  | encoderReplaced (component : String)
  | unitCompiled (unit : String) (index : UInt32)
  | sectionWritten (component : String) (instances bytes : Nat)
deriving DecidableEq, Repr

/-- The event as a line: its level, what happened, and the particulars. -/
def Event.line : Event → String
  | .unitDestroyed id free =>
    "TRACE unit destroyed id=" ++ id.display ++ " free=" ++ toString free
  | .overrideUnmatched unit id =>
    "TRACE override matches no prefab component unit=" ++ unit ++ " id=" ++ id.text
  | .encoderReplaced component => "DEBUG replacing component encoder component=" ++ component
  | .unitCompiled unit index =>
    "DEBUG compiled unit unit=" ++ unit ++ " unit_index=" ++ toString index.toNat
  | .sectionWritten component instances bytes =>
    "DEBUG writing component section component=" ++ component ++ " instances=" ++
      toString instances ++ " bytes=" ++ toString bytes

/-- A result together with the events on the way to it. -/
structure Traced (α : Type) where
  result : α
  events : List Event

end UnitBake
