/-
# Allocation of unit ids

The `EntityIdentityAllocator` of the specification (section 4.1): `create`, `create_in`, `alive`,
`destroy`, `register_destroy_function`, `unregister_destroy_function`, `len` and `free_len`, over
the generation table and the free-index queue of section 3.

The allocator keeps the generation of every slot that was ever handed out.  Destroying a unit raises
the generation of its slot, so that the ids of the slot's earlier units are dead, and queues the slot.
A queued slot is handed out again, oldest first, only while more than `quarantine` are queued: with
eight bits a generation comes round after 256 units in one slot, and the quarantine puts a distance
between them.

Every operation returns its result and the allocator after it; one that is refused leaves the
allocator as it was.
-/
import UnitBake.Entity.Queue
import UnitBake.Entity.Subscription
import UnitBake.Event

namespace UnitBake

/-- Slots wait in the queue until more than this many do. -/
def quarantine : Nat := 1024

/-- The state of an allocator. -/
structure Allocator where
  /-- The generation of each slot. -/
  generations : Array UInt8
  /-- The slots that wait to be used again, oldest first. -/
  free : Queue UInt32
  subscriptions : Subscriptions

/-- Why the allocator refuses an operation: every index is in use, an id is dead, or a subscriber
breaks the contract. -/
inductive AllocatorError where
  | exhausted
  | dead (id : EntityId)
  | subscription (error : SubscriptionError)
deriving DecidableEq, Repr

/-- The text of the error. -/
def AllocatorError.message : AllocatorError → String
  | .exhausted =>
    "entity index space exhausted (" ++ toString EntityId.indexCount ++ " indices)"
  | .dead id => "destroying dead unit " ++ id.display
  | .subscription e => e.message

/-- A call of a subscriber: what it is told, and the allocator at that moment. -/
structure Call where
  notice : Notice
  allocator : Allocator

/-- What destroying a unit led to. -/
structure Destruction where
  notices : List Notice
  event : Event
deriving DecidableEq, Repr

namespace Allocator

/-- No slots and no subscribers. -/
def empty : Allocator := ⟨#[], .empty, .empty⟩

/-- How many slots were ever handed out. -/
def size (a : Allocator) : Nat := a.generations.size

/-- How many slots wait to be used again. -/
def freeCount (a : Allocator) : Nat := a.free.size

/-- The generation of a slot. -/
def generationOf (a : Allocator) (index : UInt32) : UInt8 := a.generations.getD index.toNat 0

/-- Hands out a new slot. -/
def createNew (a : Allocator) : Except AllocatorError EntityId × Allocator :=
  let index := a.generations.size
  if index < EntityId.indexCount then
    (.ok (.pack (UInt32.ofNat index) 0), { a with generations := a.generations.push 0 })
  else (.error .exhausted, a)

/-- The table has the generation of every slot. -/
theorem getElem?_of_lt_size {a : Allocator} {slot : UInt32} (h : slot.toNat < a.size) :
    a.generations[slot.toNat]? = some (a.generationOf slot) := by
  rw [generationOf, Array.getD_eq_getD_getElem?, Array.getElem?_eq_getElem h]
  rfl

theorem size_push (a : Allocator) (generation : UInt8) :
    size { a with generations := a.generations.push generation } = a.size + 1 :=
  Array.size_push generation

/-- The number of a slot that may be added is its index. -/
theorem toNat_ofNat_size {a : Allocator} (hroom : a.size < EntityId.indexCount) :
    (UInt32.ofNat a.size).toNat = a.size :=
  UInt32.toNat_ofNat_of_lt' (Nat.lt_trans hroom (by decide))

/-- A slot that is added has the generation zero, as every slot that there is not counts as having. -/
theorem generationOf_ofNat_size {a : Allocator} (hroom : a.size < EntityId.indexCount) :
    a.generationOf (UInt32.ofNat a.size) = 0 := by
  rw [generationOf, toNat_ofNat_size hroom]
  simp [size]

/-- Hands out an id: of the oldest queued slot if enough are queued, else of a new slot. -/
def create (a : Allocator) : Except AllocatorError EntityId × Allocator :=
  if quarantine < a.free.size then
    match a.free.pop? with
    | some (index, free) => (.ok (.pack index (a.generationOf index)), { a with free := free })
    | none => a.createNew
  else a.createNew

/-- Whether an id belongs to the unit that its slot was last handed out for. -/
def alive (a : Allocator) (id : EntityId) : Bool :=
  a.generations[id.index.toNat]? == some id.generation

/-- An id is alive if its slot was handed out and has its generation. -/
theorem alive_iff (a : Allocator) (id : EntityId) :
    a.alive id = true ↔ id.index.toNat < a.size ∧ a.generationOf id.index = id.generation := by
  rw [alive, generationOf, size, Array.getD]
  by_cases h : id.index.toNat < a.generations.size
  · simp [h]
  · simp [h]

/-- A slot has one id that is alive. -/
theorem eq_of_alive {a : Allocator} {id id' : EntityId} (h : a.alive id = true)
    (h' : a.alive id' = true) (hindex : id.index = id'.index) : id = id' := by
  have hgeneration : id.generation = id'.generation := by
    rw [← ((a.alive_iff id).mp h).2, ← ((a.alive_iff id').mp h').2, hindex]
  rw [← id.pack_index_generation, ← id'.pack_index_generation, hindex, hgeneration]

/-- It is the one that is packed from the slot and its generation. -/
theorem alive_pack {a : Allocator} {index : UInt32} (hroom : index.toNat < EntityId.indexCount)
    (h : index.toNat < a.size) : a.alive (.pack index (a.generationOf index)) = true := by
  rw [alive_iff, EntityId.index_pack hroom, EntityId.generation_pack hroom]
  exact ⟨h, rfl⟩

/-- Raises the generation of the slot of an id, so that the id is dead, and queues the slot. -/
def retire (a : Allocator) (id : EntityId) : Allocator :=
  { a with
    generations := a.generations.setIfInBounds id.index.toNat (id.generation + 1)
    free := a.free.push id.index }

/-- Calls subscribers for a unit, one after the other.  Those in `told` were called before, those in
the other list are still to be called. -/
def callFrom (a : Allocator) (id : EntityId) (told : List Subscription) :
    List Subscription → List Call × Allocator
  | [] => ([], { a with subscriptions := ⟨told⟩ })
  | x :: rest =>
    let (notice, x') := x.tell id
    let call : Call := ⟨notice, { a with subscriptions := ⟨told ++ x :: rest⟩ }⟩
    let further := a.callFrom id (told ++ [x']) rest
    (call :: further.1, further.2)

/-- Destroys a unit: its id is dead and its slot queued before the subscribers are called.  The calls
are returned, each with the allocator at its moment. -/
def destroyCalling (a : Allocator) (id : EntityId) :
    Except AllocatorError (List Call × Event) × Allocator :=
  if a.alive id then
    let retired := a.retire id
    let event := Event.unitDestroyed id retired.free.size
    let (calls, told) := retired.callFrom id [] retired.subscriptions.list
    (.ok (calls, event), told)
  else (.error (.dead id), a)

/-- Destroys a unit and returns what the subscribers were told. -/
def destroy (a : Allocator) (id : EntityId) : Except AllocatorError Destruction × Allocator :=
  match a.destroyCalling id with
  | (.ok (calls, event), a) => (.ok ⟨calls.map (·.notice), event⟩, a)
  | (.error e, a) => (.error e, a)

/-- Calling changes nothing but the subscriptions, and those as telling them does. -/
theorem callFrom_snd (a : Allocator) (id : EntityId) : ∀ told rest : List Subscription,
    (a.callFrom id told rest).2 =
      { a with subscriptions := ⟨told ++ rest.map fun x => (x.tell id).2⟩ }
  | told, [] => by rw [callFrom, List.map_nil, List.append_nil]
  | told, x :: rest => by
    simp only [callFrom, callFrom_snd a id (told ++ [(x.tell id).2]) rest, List.map_cons,
      List.append_assoc, List.singleton_append]

/-- The subscribers are told what telling them says. -/
theorem map_notice_callFrom (a : Allocator) (id : EntityId) : ∀ told rest : List Subscription,
    (a.callFrom id told rest).1.map (·.notice) = rest.map fun x => (x.tell id).1
  | _, [] => rfl
  | told, x :: rest => by
    simp only [callFrom, List.map_cons, map_notice_callFrom a id (told ++ [(x.tell id).2]) rest]

/-- What destroying a unit comes to if its id is alive. -/
theorem destroy_of_alive {a : Allocator} {id : EntityId} (h : a.alive id = true) :
    a.destroy id =
      (.ok ⟨(a.subscriptions.tell id).1, .unitDestroyed id (a.free.size + 1)⟩,
        { a.retire id with subscriptions := (a.subscriptions.tell id).2 }) := by
  simp only [destroy, destroyCalling, if_pos h, map_notice_callFrom, callFrom_snd, retire,
    Queue.push, Subscriptions.tell, List.map_map, List.nil_append]
  rfl

/-- Destroying a unit whose id is dead is refused. -/
theorem destroy_of_dead {a : Allocator} {id : EntityId} (h : a.alive id = false) :
    a.destroy id = (.error (.dead id), a) := by
  rw [destroy, destroyCalling, if_neg (by simp [h])]

/-- Adds a subscriber. -/
def register (a : Allocator) (subscriber : UInt64) : Except AllocatorError Unit × Allocator :=
  match a.subscriptions.register subscriber with
  | .ok s => (.ok (), { a with subscriptions := s })
  | .error e => (.error (.subscription e), a)

/-- Removes a subscriber. -/
def unregister (a : Allocator) (subscriber : UInt64) : Except AllocatorError Unit × Allocator :=
  match a.subscriptions.unregister subscriber with
  | .ok s => (.ok (), { a with subscriptions := s })
  | .error e => (.error (.subscription e), a)

/-- A list of numbers as it is shown to a developer. -/
def debugNumbers (ns : List Nat) : String :=
  "[" ++ String.intercalate ", " (ns.map toString) ++ "]"

/-- The allocator as it is shown to a developer. -/
def debug (a : Allocator) : String :=
  "EntityAllocator \x7b generations: " ++ debugNumbers (a.generations.toList.map (·.toNat)) ++
    ", free_indices: " ++ debugNumbers (a.free.toList.map (·.toNat)) ++
    ", destroy_callbacks: " ++ a.subscriptions.debug ++ " \x7d"

end Allocator

/-- A world that spawns empty units and decides their ids itself, usually through an allocator that
it owns. -/
class UnitSpawner (ω : Type) where
  /-- Spawns an empty unit. -/
  spawn : ω → Except AllocatorError EntityId × ω

/-- Spawns a unit in a world, which picks the id. -/
def createIn {ω : Type} [UnitSpawner ω] (world : ω) : Except AllocatorError EntityId × ω :=
  UnitSpawner.spawn world

instance : UnitSpawner Allocator := ⟨Allocator.create⟩

end UnitBake
