import MeshWatch.Payload.Basic

/-!
# Positions of nodes

Where a node was last known to be. Only a report with valid coordinates becomes a
position.

- `ofReport?_isSome`: a report makes a position exactly when it has coordinates.
-/

namespace MeshWatch

/-- A place, and when it was reported. -/
structure Position where
  latitude : Float
  longitude : Float
  altitude : Option Int32
  precisionBits : Option UInt32
  /-- When the node determined the place, by its own clock. -/
  time : Option Moment
  updated : Moment
deriving DecidableEq, Inhabited

namespace Position

/-- The position that a report gives. -/
def ofReport? (r : PositionReport) (now : Moment) : Option Position :=
  r.coordinates.map fun (latitude, longitude) =>
    { latitude := latitude
      longitude := longitude
      altitude := r.altitude
      precisionBits := r.precisionBits
      time := r.time.map fun t => Moment.ofSecs t.toNat
      updated := now }

theorem ofReport?_isSome (r : PositionReport) (now : Moment) :
    (ofReport? r now).isSome = r.coordinates.isSome := by simp [ofReport?]

def toJson (p : Position) : Json :=
  .object
    [("latitude", Json.ofDouble p.latitude),
     ("longitude", Json.ofDouble p.longitude),
     ("altitude", Json.option Json.ofInt32 p.altitude),
     ("precision_bits", Json.option Json.ofUInt32 p.precisionBits),
     ("time", Json.option Json.ofMoment p.time),
     ("updated", Json.ofMoment p.updated)]

/-- The fields in order. -/
def fieldNames : List String :=
  ["latitude", "longitude", "altitude", "precision_bits", "time", "updated"]

def ofJson? (j : Json) : Option Position := do
  let ms ← j.recordMembers? fieldNames 6
  return {
    latitude := ← Json.required ms "latitude" Json.readDouble
    longitude := ← Json.required ms "longitude" Json.readDouble
    altitude := ← Json.optional ms "altitude" Json.readInt32
    precisionBits := ← Json.optional ms "precision_bits" Json.readUInt32
    time := ← Json.optional ms "time" Json.readMoment
    updated := ← Json.required ms "updated" Json.readMoment }

end Position

end MeshWatch
