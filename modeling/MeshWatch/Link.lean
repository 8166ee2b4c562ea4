import MeshWatch.Ieee.Order
import MeshWatch.Json.Record

/-!
# Link quality

How well a node is heard, as a moving average of the signal-to-noise ratio of its
packets. The first sample is the average; each further one counts for three
tenths.

- `update_of_not_finite`: a sample that is no number changes nothing.
- `percent_of_no_samples`: a link that was never measured has no quality.
-/

namespace MeshWatch

/-- What is known of the link to a node. -/
structure LinkQuality where
  snr : Float32 := 0
  snrAvg : Float32 := 0
  rssi : Option Int32 := none
  hopCount : Option UInt8 := none
  /-- How many samples the average holds. -/
  packetCount : UInt32 := 0
  packetLoss : Float32 := 0
  lastUpdated : Option Moment := none
deriving DecidableEq, Inhabited

namespace LinkQuality

/-- Decibels beyond which a sample is cut off. -/
def snrLow : Float32 := -50.0
def snrHigh : Float32 := 50.0

/-- The weight of a new sample. -/
def weight : Float32 := 0.3

/-- The ratio below which packets cannot be demodulated. -/
def demodulationFloor : Float32 := -17.5

/-- A plausible signal strength in dBm. -/
def isPlausibleRssi (r : Int32) : Bool := -200 ≤ r && r ≤ 0

/-- The fraction of packets lost at an average ratio: none from five decibels above
the floor on, all from five below it. -/
def estimatedLoss (snrAvg : Float32) : Float32 :=
  Ieee.clamp 0 1 (0.5 - (snrAvg - demodulationFloor) / 10)

/-- Takes the link metrics of one packet. -/
def update (q : LinkQuality) (snr : Float32) (rssi : Option Int32) (hopCount : Option UInt8)
    (now : Moment) : LinkQuality :=
  if snr.isFinite then
    let snr := Ieee.clamp snrLow snrHigh snr
    let avg := if q.packetCount = 0 then snr else weight * snr + (1 - weight) * q.snrAvg
    { snr := snr
      snrAvg := avg
      rssi := rssi.filter isPlausibleRssi <|> q.rssi
      hopCount := hopCount <|> q.hopCount
      packetCount := if q.packetCount = 0xFFFFFFFF then q.packetCount else q.packetCount + 1
      packetLoss := estimatedLoss avg
      lastUpdated := some now }
  else q

theorem update_of_not_finite (q : LinkQuality) {snr : Float32} (h : snr.isFinite = false)
    (rssi : Option Int32) (hopCount : Option UInt8) (now : Moment) :
    q.update snr rssi hopCount now = q := by simp [update, h]

def hasSamples (q : LinkQuality) : Bool := 0 < q.packetCount

/-- A score in percent: none from fifteen decibels below zero, all from ten above. -/
def percent (q : LinkQuality) : Float32 :=
  if q.packetCount = 0 then 0
  else if 10 ≤ q.snrAvg then 100
  else if q.snrAvg ≤ -15 then 0
  else (q.snrAvg + 15) / 25 * 100

theorem percent_of_no_samples (q : LinkQuality) (h : q.packetCount = 0) : q.percent = 0 := by
  simp [percent, h]

def toJson (q : LinkQuality) : Json :=
  .object
    [("snr", Json.ofSingle q.snr),
     ("snr_avg", Json.ofSingle q.snrAvg),
     ("rssi", Json.option Json.ofInt32 q.rssi),
     ("hop_count", Json.option Json.ofUInt8 q.hopCount),
     ("packet_count", Json.ofUInt32 q.packetCount),
     ("packet_loss", Json.ofSingle q.packetLoss),
     ("last_updated", Json.option Json.ofMoment q.lastUpdated)]

/-- The fields in order. -/
def fieldNames : List String :=
  ["snr", "snr_avg", "rssi", "hop_count", "packet_count", "packet_loss", "last_updated"]

def ofJson? (j : Json) : Option LinkQuality := do
  let ms ← j.recordMembers? fieldNames 7
  return {
    snr := ← Json.required ms "snr" Json.readSingle
    snrAvg := ← Json.required ms "snr_avg" Json.readSingle
    rssi := ← Json.optional ms "rssi" Json.readInt32
    hopCount := ← Json.optional ms "hop_count" Json.readUInt8
    packetCount := ← Json.required ms "packet_count" Json.readUInt32
    packetLoss := ← Json.required ms "packet_loss" Json.readSingle
    lastUpdated := ← Json.optional ms "last_updated" Json.readMoment }

end LinkQuality

end MeshWatch
