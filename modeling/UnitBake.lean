import UnitBake.Main
import UnitBake.Blob.Reader
import UnitBake.Shape.Id
import UnitBake.Proofs.Baking.Alignment
import UnitBake.Proofs.Baking.Atomicity
import UnitBake.Proofs.Baking.Attribution
import UnitBake.Proofs.Baking.BuiltinRecords
import UnitBake.Proofs.Baking.Consistency
import UnitBake.Proofs.Baking.Growth
import UnitBake.Proofs.Baking.RegistrationOrder
import UnitBake.Proofs.Baking.Truncation
import UnitBake.Proofs.Baking.UnknownTypes
import UnitBake.Proofs.Blob.Rewriting
import UnitBake.Proofs.Blob.Safety
import UnitBake.Proofs.Bytes.Mistyping
import UnitBake.Proofs.Command.AllOrNothing
import UnitBake.Proofs.Document.Respelling
import UnitBake.Proofs.Entity.Capacity
import UnitBake.Proofs.Entity.Liveness
import UnitBake.Proofs.Entity.Notification
import UnitBake.Proofs.Entity.Quarantine
import UnitBake.Proofs.Entity.Reuse
import UnitBake.Proofs.Prefab.Accounting
import UnitBake.Proofs.Prefab.Limit
import UnitBake.Proofs.Prefab.Resolution
import UnitBake.Proofs.Source.Mirror
