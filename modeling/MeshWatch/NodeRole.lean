import MeshWatch.Json.Record
import MeshWatch.Text.Numeral

/-!
# Roles of nodes

A node tells which part it plays in the mesh, by number or by name. An unknown
number or name counts as a plain client, except that a stored record must name its
role exactly.

- `ofNumber_client`: numbers beyond the known ones are clients.
-/

namespace MeshWatch

/-- The part a node plays. -/
inductive NodeRole where
  | client
  | clientMute
  | router
  | routerClient
  | repeater
  | tracker
  | sensor
  | tak
  | clientHidden
  | lostAndFound
  | takTracker
  | routerLate
deriving DecidableEq, Repr, Inhabited

namespace NodeRole

def all : List NodeRole :=
  [client, clientMute, router, routerClient, repeater, tracker, sensor, tak, clientHidden,
   lostAndFound, takTracker, routerLate]

/-- The written name of a role. -/
def name : NodeRole → String
  | client => "CLIENT"
  | clientMute => "CLIENT_MUTE"
  | router => "ROUTER"
  | routerClient => "ROUTER_CLIENT"
  | repeater => "REPEATER"
  | tracker => "TRACKER"
  | sensor => "SENSOR"
  | tak => "TAK"
  | clientHidden => "CLIENT_HIDDEN"
  | lostAndFound => "LOST_AND_FOUND"
  | takTracker => "TAK_TRACKER"
  | routerLate => "ROUTER_LATE"

/-- The role of a number. -/
def ofNumber (n : UInt32) : NodeRole := all.getD n.toNat client

theorem ofNumber_client {n : UInt32} (h : 12 ≤ n.toNat) : ofNumber n = client := by
  have : all[n.toNat]? = none := List.getElem?_eq_none (by simpa [all] using h)
  simp [ofNumber, List.getD_eq_getElem?_getD, this]

/-- The role of an exact name. -/
def ofExactName? (s : String) : Option NodeRole := all.find? fun r => r.name == s

/-- The role that a name in any case, or a number in decimal, stands for. -/
def ofName (s : String) : NodeRole :=
  let upper := String.ofList (s.toList.map Char.toUpper)
  match ofExactName? upper with
  | some r => r
  | none => ((Text.decimalWord? upper).map ofNumber).getD client

/-- Roles that forward traffic for others. -/
def isInfrastructure : NodeRole → Bool
  | router => true
  | routerClient => true
  | repeater => true
  | routerLate => true
  | _ => false

def toJson (r : NodeRole) : Json := .string r.name

def ofJson? (j : Json) : Option NodeRole := (j.label?).bind ofExactName?

end NodeRole

end MeshWatch
