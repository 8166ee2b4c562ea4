import MeshWatch.Ieee.Order
import MeshWatch.Json.Record

/-!
# Telemetry

Metrics that nodes report about their power supply, radio and sensors, and the
record kept of each node: the last value of every metric. A report leaves metrics
that it omits as they were. Percentages run from 0 to 100.

- `isEmpty_iff`: metrics are empty exactly when no metric is present.
- `merge_lastUpdated`: a merge is remembered by its time.
- `merge_link`: merging a report leaves the link fields alone.
-/

namespace MeshWatch

/-! ## Thresholds -/

namespace Threshold

/-- Channel utilisation from which a channel is busy. -/
def channelWarning : Float32 := 25.0
/-- Channel utilisation from which a channel is congested. -/
def channelCritical : Float32 := 40.0
/-- Transmit airtime from which a node sends much. -/
def airtimeWarning : Float32 := 7.0
/-- Transmit airtime from which a node sends too much. -/
def airtimeCritical : Float32 := 10.0
/-- The battery level of a device on external power. -/
def externalPower : UInt32 := 101

end Threshold

/-! ## Metrics -/

/-- Power supply and radio of a device. -/
structure DeviceMetrics where
  batteryLevel : Option UInt32 := none
  voltage : Option Float32 := none
  channelUtilization : Option Float32 := none
  airUtilTx : Option Float32 := none
  uptimeSeconds : Option UInt32 := none
deriving DecidableEq, Inhabited

/-- Sensor readings. -/
structure EnvironmentMetrics where
  temperature : Option Float32 := none
  relativeHumidity : Option Float32 := none
  barometricPressure : Option Float32 := none
  gasResistance : Option Float32 := none
deriving DecidableEq, Inhabited

/-- A percentage that a device can have measured. -/
def isPercentage (x : Float32) : Bool := x.isFinite && Ieee.inRange 0 100 x

namespace DeviceMetrics

/-- Without the values that no working device reports. -/
def sanitized (m : DeviceMetrics) : DeviceMetrics :=
  { m with
    batteryLevel := m.batteryLevel.filter fun l => l ≤ Threshold.externalPower
    voltage := m.voltage.filter fun v => v.isFinite && 0 ≤ v
    channelUtilization := m.channelUtilization.filter isPercentage
    airUtilTx := m.airUtilTx.filter isPercentage }

def isExternallyPowered (m : DeviceMetrics) : Bool :=
  m.batteryLevel == some Threshold.externalPower

/-- Strictly between empty, which is also what a missing battery reports, and the
threshold. -/
def isBatteryLow (m : DeviceMetrics) (threshold : UInt32) : Bool :=
  match m.batteryLevel with
  | some l => 0 < l && l < threshold
  | none => false

def isCongested (m : DeviceMetrics) : Bool :=
  match m.channelUtilization with
  | some u => Threshold.channelCritical ≤ u
  | none => false

/-- No metric at all. -/
def isEmpty (m : DeviceMetrics) : Bool := m == {}

theorem isEmpty_iff (m : DeviceMetrics) : m.isEmpty = true ↔ m = {} := by simp [isEmpty]

/-- The later of two values of each metric. -/
def merge (m new : DeviceMetrics) : DeviceMetrics :=
  { batteryLevel := new.batteryLevel <|> m.batteryLevel
    voltage := new.voltage <|> m.voltage
    channelUtilization := new.channelUtilization <|> m.channelUtilization
    airUtilTx := new.airUtilTx <|> m.airUtilTx
    uptimeSeconds := new.uptimeSeconds <|> m.uptimeSeconds }

def toJson (m : DeviceMetrics) : Json :=
  .object
    [("battery_level", Json.option Json.ofUInt32 m.batteryLevel),
     ("voltage", Json.option Json.ofSingle m.voltage),
     ("channel_utilization", Json.option Json.ofSingle m.channelUtilization),
     ("air_util_tx", Json.option Json.ofSingle m.airUtilTx),
     ("uptime_seconds", Json.option Json.ofUInt32 m.uptimeSeconds)]

/-- The fields in order. -/
def fieldNames : List String :=
  ["battery_level", "voltage", "channel_utilization", "air_util_tx", "uptime_seconds"]

def ofJson? (j : Json) : Option DeviceMetrics := do
  let ms ← j.recordMembers? fieldNames 5
  return {
    batteryLevel := ← Json.optional ms "battery_level" Json.readUInt32
    voltage := ← Json.optional ms "voltage" Json.readSingle
    channelUtilization := ← Json.optional ms "channel_utilization" Json.readSingle
    airUtilTx := ← Json.optional ms "air_util_tx" Json.readSingle
    uptimeSeconds := ← Json.optional ms "uptime_seconds" Json.readUInt32 }

end DeviceMetrics

namespace EnvironmentMetrics

/-- Without the values that no working sensor reports. -/
def sanitized (m : EnvironmentMetrics) : EnvironmentMetrics :=
  { temperature := m.temperature.filter Float32.isFinite
    relativeHumidity := m.relativeHumidity.filter isPercentage
    barometricPressure := m.barometricPressure.filter fun p => p.isFinite && 0 < p
    gasResistance := m.gasResistance.filter Float32.isFinite }

/-- No reading at all. -/
def isEmpty (m : EnvironmentMetrics) : Bool := m == {}

theorem isEmpty_iff (m : EnvironmentMetrics) : m.isEmpty = true ↔ m = {} := by simp [isEmpty]

/-- The later of two values of each reading. -/
def merge (m new : EnvironmentMetrics) : EnvironmentMetrics :=
  { temperature := new.temperature <|> m.temperature
    relativeHumidity := new.relativeHumidity <|> m.relativeHumidity
    barometricPressure := new.barometricPressure <|> m.barometricPressure
    gasResistance := new.gasResistance <|> m.gasResistance }

def toJson (m : EnvironmentMetrics) : Json :=
  .object
    [("temperature", Json.option Json.ofSingle m.temperature),
     ("relative_humidity", Json.option Json.ofSingle m.relativeHumidity),
     ("barometric_pressure", Json.option Json.ofSingle m.barometricPressure),
     ("gas_resistance", Json.option Json.ofSingle m.gasResistance)]

/-- The fields in order. -/
def fieldNames : List String :=
  ["temperature", "relative_humidity", "barometric_pressure", "gas_resistance"]

def ofJson? (j : Json) : Option EnvironmentMetrics := do
  let ms ← j.recordMembers? fieldNames 4
  return {
    temperature := ← Json.optional ms "temperature" Json.readSingle
    relativeHumidity := ← Json.optional ms "relative_humidity" Json.readSingle
    barometricPressure := ← Json.optional ms "barometric_pressure" Json.readSingle
    gasResistance := ← Json.optional ms "gas_resistance" Json.readSingle }

end EnvironmentMetrics

/-! ## Reports -/

/-- One telemetry packet. -/
structure TelemetryReport where
  /-- When the sender measured, in seconds since the epoch. -/
  time : Option UInt32 := none
  device : Option DeviceMetrics := none
  environment : Option EnvironmentMetrics := none
deriving DecidableEq, Inhabited

namespace TelemetryReport

/-- Both groups without the values that nothing reports. -/
def sanitized (r : TelemetryReport) : TelemetryReport :=
  { r with
    device := r.device.map DeviceMetrics.sanitized
    environment := r.environment.map EnvironmentMetrics.sanitized }

/-- The members of the record. -/
def members (r : TelemetryReport) : Json.Members :=
  [("time", Json.option Json.ofUInt32 r.time),
   ("device", Json.option DeviceMetrics.toJson r.device),
   ("environment", Json.option EnvironmentMetrics.toJson r.environment)]

def ofJson? (j : Json) : Option TelemetryReport := do
  let ms ← j.recordMembers? ["time", "device", "environment"] 3
  return {
    time := ← Json.optional ms "time" Json.readUInt32
    device := ← Json.optional ms "device" DeviceMetrics.ofJson?
    environment := ← Json.optional ms "environment" EnvironmentMetrics.ofJson? }

end TelemetryReport

/-! ## Congestion -/

/-- How busy a channel or a transmitter is. -/
inductive UtilizationStatus where
  | normal
  | warning
  | critical
deriving DecidableEq, Repr

namespace UtilizationStatus

def name : UtilizationStatus → String
  | normal => "normal"
  | warning => "warning"
  | critical => "critical"

/-- By two thresholds; NaN reaches neither. -/
def classify (warn crit x : Float32) : UtilizationStatus :=
  if crit ≤ x then critical else if warn ≤ x then warning else normal

/-- Of a channel. -/
def ofChannel : Float32 → UtilizationStatus :=
  classify Threshold.channelWarning Threshold.channelCritical

/-- Of a transmitter. -/
def ofAirtime : Float32 → UtilizationStatus :=
  classify Threshold.airtimeWarning Threshold.airtimeCritical

end UtilizationStatus

/-! ## What is kept of a node -/

/-- The last known value of every metric, and the link to the node's last packet. -/
structure NodeTelemetry where
  device : DeviceMetrics := {}
  environment : EnvironmentMetrics := {}
  snr : Option Float32 := none
  rssi : Option Int32 := none
  lastUpdated : Option Moment := none
deriving DecidableEq, Inhabited

namespace NodeTelemetry

/-- Takes the metrics that a report has. -/
def merge (t : NodeTelemetry) (r : TelemetryReport) (now : Moment) : NodeTelemetry :=
  { t with
    device := match r.device with
      | some d => t.device.merge d
      | none => t.device
    environment := match r.environment with
      | some e => t.environment.merge e
      | none => t.environment
    lastUpdated := some now }

@[simp] theorem merge_lastUpdated (t : NodeTelemetry) (r : TelemetryReport) (now : Moment) :
    (t.merge r now).lastUpdated = some now := rfl

theorem merge_link (t : NodeTelemetry) (r : TelemetryReport) (now : Moment) :
    (t.merge r now).snr = t.snr ∧ (t.merge r now).rssi = t.rssi := ⟨rfl, rfl⟩

def channelStatus (t : NodeTelemetry) : Option UtilizationStatus :=
  t.device.channelUtilization.map UtilizationStatus.ofChannel

def airtimeStatus (t : NodeTelemetry) : Option UtilizationStatus :=
  t.device.airUtilTx.map UtilizationStatus.ofAirtime

def toJson (t : NodeTelemetry) : Json :=
  .object
    [("device", t.device.toJson),
     ("environment", t.environment.toJson),
     ("snr", Json.option Json.ofSingle t.snr),
     ("rssi", Json.option Json.ofInt32 t.rssi),
     ("last_updated", Json.option Json.ofMoment t.lastUpdated)]

def ofJson? (j : Json) : Option NodeTelemetry := do
  let ms ← j.recordMembers? ["device", "environment", "snr", "rssi", "last_updated"] 5
  return {
    device := ← Json.required ms "device" DeviceMetrics.ofJson?
    environment := ← Json.required ms "environment" EnvironmentMetrics.ofJson?
    snr := ← Json.optional ms "snr" Json.readSingle
    rssi := ← Json.optional ms "rssi" Json.readInt32
    lastUpdated := ← Json.optional ms "last_updated" Json.readMoment }

end NodeTelemetry

end MeshWatch
