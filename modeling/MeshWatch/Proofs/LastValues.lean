import Mathlib.Data.List.Induction
import MeshWatch.Telemetry

/-!
# The last value of every metric

A report says something about a few metrics, and nothing about the others. What is kept of a
node after any reports is a record that was never written as a whole: each metric has its own
last report. So the record is compared with one that is looked up in the reports themselves,
metric by metric, without merging anything.

- `lastPresent`: the last value that is there among many that may be missing.
- `DeviceMetrics.lastOf`, `EnvironmentMetrics.lastOf`: the metrics looked up in their groups, and
  `lastOf_concat`: one group more is merged.
- `DeviceMetrics.merge_comm`, `EnvironmentMetrics.merge_comm`: groups without a metric in common.
- `metrics_keep_last_values`: any reports, in any order of their times.
-/

namespace MeshWatch

/-! ## Values that may be missing -/

section LastPresent

variable {α β : Type} (value : α → Option β)

/-- The last value that is present. -/
def lastPresent (xs : List α) : Option β := (xs.filterMap value).getLast?

theorem lastPresent_nil : lastPresent value [] = none := rfl

theorem lastPresent_concat (xs : List α) (x : α) :
    lastPresent value (xs ++ [x]) = (value x <|> lastPresent value xs) := by
  unfold lastPresent
  rw [List.filterMap_append]
  cases h : value x with
  | none => simp [h]
  | some b => simp [h]

end LastPresent

/-- Of two values at most one is present. -/
def Exclusive {α : Type} (a b : Option α) : Prop := a = none ∨ b = none

/-- Which of two values is taken first makes no difference if one of them is missing. -/
theorem Exclusive.orElse_comm {α : Type} {a b : Option α} (h : Exclusive a b) (c : Option α) :
    (b <|> (a <|> c)) = (a <|> (b <|> c)) := by
  rcases h with rfl | rfl
  · rfl
  · rfl

/-! ## Groups of metrics -/

namespace DeviceMetrics

/-- The last value of every metric. -/
def lastOf (ms : List DeviceMetrics) : DeviceMetrics where
  batteryLevel := lastPresent batteryLevel ms
  voltage := lastPresent voltage ms
  channelUtilization := lastPresent channelUtilization ms
  airUtilTx := lastPresent airUtilTx ms
  uptimeSeconds := lastPresent uptimeSeconds ms

theorem lastOf_nil : lastOf [] = {} := rfl

theorem lastOf_concat (ms : List DeviceMetrics) (m : DeviceMetrics) :
    lastOf (ms ++ [m]) = (lastOf ms).merge m := by
  simp only [lastOf, merge, lastPresent_concat]

/-- No metric has a value in both groups. -/
structure Disjoint (a b : DeviceMetrics) : Prop where
  batteryLevel : Exclusive a.batteryLevel b.batteryLevel
  voltage : Exclusive a.voltage b.voltage
  channelUtilization : Exclusive a.channelUtilization b.channelUtilization
  airUtilTx : Exclusive a.airUtilTx b.airUtilTx
  uptimeSeconds : Exclusive a.uptimeSeconds b.uptimeSeconds

theorem merge_comm {a b : DeviceMetrics} (h : Disjoint a b) (m : DeviceMetrics) :
    (m.merge a).merge b = (m.merge b).merge a := by
  simp only [merge, h.batteryLevel.orElse_comm, h.voltage.orElse_comm,
    h.channelUtilization.orElse_comm, h.airUtilTx.orElse_comm, h.uptimeSeconds.orElse_comm]

end DeviceMetrics

namespace EnvironmentMetrics

/-- The last value of every reading. -/
def lastOf (ms : List EnvironmentMetrics) : EnvironmentMetrics where
  temperature := lastPresent temperature ms
  relativeHumidity := lastPresent relativeHumidity ms
  barometricPressure := lastPresent barometricPressure ms
  gasResistance := lastPresent gasResistance ms

theorem lastOf_nil : lastOf [] = {} := rfl

theorem lastOf_concat (ms : List EnvironmentMetrics) (m : EnvironmentMetrics) :
    lastOf (ms ++ [m]) = (lastOf ms).merge m := by
  simp only [lastOf, merge, lastPresent_concat]

/-- No reading has a value in both groups. -/
structure Disjoint (a b : EnvironmentMetrics) : Prop where
  temperature : Exclusive a.temperature b.temperature
  relativeHumidity : Exclusive a.relativeHumidity b.relativeHumidity
  barometricPressure : Exclusive a.barometricPressure b.barometricPressure
  gasResistance : Exclusive a.gasResistance b.gasResistance

theorem merge_comm {a b : EnvironmentMetrics} (h : Disjoint a b) (m : EnvironmentMetrics) :
    (m.merge a).merge b = (m.merge b).merge a := by
  simp only [merge, h.temperature.orElse_comm, h.relativeHumidity.orElse_comm,
    h.barometricPressure.orElse_comm, h.gasResistance.orElse_comm]

end EnvironmentMetrics

/-! ## Reports -/

/-- No metric has a value in both reports. -/
structure TelemetryReport.Disjoint (a b : TelemetryReport) : Prop where
  device : ∀ d ∈ a.device, ∀ e ∈ b.device, d.Disjoint e
  environment : ∀ d ∈ a.environment, ∀ e ∈ b.environment, d.Disjoint e

namespace NodeTelemetry

/-- Takes several reports, each at its own time. -/
def mergeAll (t : NodeTelemetry) (rs : List (TelemetryReport × Moment)) : NodeTelemetry :=
  rs.foldl (fun t r => t.merge r.1 r.2) t

theorem mergeAll_concat (t : NodeTelemetry) (rs : List (TelemetryReport × Moment))
    (r : TelemetryReport × Moment) :
    t.mergeAll (rs ++ [r]) = (t.mergeAll rs).merge r.1 r.2 := List.foldl_append

/-- What is kept of a device is merged with the group of a report, if it has one. -/
theorem device_merge_of_lastOf {t : NodeTelemetry} {ms : List DeviceMetrics}
    (h : t.device = .lastOf ms) (r : TelemetryReport) (now : Moment) :
    (t.merge r now).device = .lastOf (ms ++ r.device.toList) := by
  unfold merge
  cases r.device with
  | none => simpa using h
  | some d =>
    rw [Option.toList_some, DeviceMetrics.lastOf_concat, ← h]

theorem environment_merge_of_lastOf {t : NodeTelemetry} {ms : List EnvironmentMetrics}
    (h : t.environment = .lastOf ms) (r : TelemetryReport) (now : Moment) :
    (t.merge r now).environment = .lastOf (ms ++ r.environment.toList) := by
  unfold merge
  cases r.environment with
  | none => simpa using h
  | some e =>
    rw [Option.toList_some, EnvironmentMetrics.lastOf_concat, ← h]

/-- **A run.** Every metric is the last one of its group, and the last time is kept. -/
theorem mergeAll_empty (rs : List (TelemetryReport × Moment)) :
    (mergeAll {} rs).device = .lastOf (rs.filterMap fun r => r.1.device) ∧
    (mergeAll {} rs).environment = .lastOf (rs.filterMap fun r => r.1.environment) ∧
    (mergeAll {} rs).lastUpdated = (rs.map Prod.snd).getLast? := by
  induction rs using List.reverseRecOn with
  | nil => exact ⟨rfl, rfl, rfl⟩
  | append_singleton rs r ih =>
    obtain ⟨hdevice, henvironment, -⟩ := ih
    rw [mergeAll_concat, List.filterMap_append, List.filterMap_append, List.map_append]
    refine ⟨?_, ?_, ?_⟩
    · rw [device_merge_of_lastOf hdevice]
      cases h : r.1.device <;> simp [h]
    · rw [environment_merge_of_lastOf henvironment]
      cases h : r.1.environment <;> simp [h]
    · rw [merge_lastUpdated, List.map_singleton, List.getLast?_concat]

/-- All that is kept but the time. -/
def untimed (t : NodeTelemetry) : NodeTelemetry := { t with lastUpdated := none }

/-- Reports without a metric in common may come in either order, but for their times. -/
theorem merge_comm {a b : TelemetryReport} (h : a.Disjoint b) (t : NodeTelemetry)
    (ta tb ta' tb' : Moment) :
    ((t.merge a ta).merge b tb).untimed = ((t.merge b tb').merge a ta').untimed := by
  have hdevice : ((t.merge a ta).merge b tb).device = ((t.merge b tb').merge a ta').device := by
    unfold merge
    cases ha : a.device with
    | none => cases b.device <;> rfl
    | some d =>
      cases hb : b.device with
      | none => rfl
      | some e => exact DeviceMetrics.merge_comm (h.device d ha e hb) t.device
  have henvironment : ((t.merge a ta).merge b tb).environment
      = ((t.merge b tb').merge a ta').environment := by
    unfold merge
    cases ha : a.environment with
    | none => cases b.environment <;> rfl
    | some d =>
      cases hb : b.environment with
      | none => rfl
      | some e => exact EnvironmentMetrics.merge_comm (h.environment d ha e hb) t.environment
  unfold untimed
  rw [hdevice, henvironment]
  rfl

end NodeTelemetry

/-- **The last value of every metric.** After any reports on a node of which nothing was known,
each metric has the last value that a report gave it, or none if there was none, and the time is
that of the last report. A report leaves the link alone, and what becomes of one group has nothing
to do with the other: a group that is missing stays as it was. So two reports that have no metric
in common may come in either order, but for the time that is kept. -/
theorem metrics_keep_last_values :
    (∀ rs : List (TelemetryReport × Moment),
      let t := NodeTelemetry.mergeAll {} rs
      t.device = .lastOf (rs.filterMap fun r => r.1.device) ∧
      t.environment = .lastOf (rs.filterMap fun r => r.1.environment) ∧
      t.lastUpdated = (rs.map Prod.snd).getLast?) ∧
    (∀ (t : NodeTelemetry) (r : TelemetryReport) (now : Moment),
      (t.merge r now).snr = t.snr ∧ (t.merge r now).rssi = t.rssi ∧
      (∀ d, (t.merge { r with device := d } now).environment = (t.merge r now).environment) ∧
      (∀ e, (t.merge { r with environment := e } now).device = (t.merge r now).device) ∧
      (t.merge { r with device := none } now).device = t.device ∧
      (t.merge { r with environment := none } now).environment = t.environment) ∧
    ∀ (a b : TelemetryReport), a.Disjoint b → ∀ (t : NodeTelemetry) (ta tb ta' tb' : Moment),
      ((t.merge a ta).merge b tb).untimed = ((t.merge b tb').merge a ta').untimed := by
  refine ⟨NodeTelemetry.mergeAll_empty, fun t r now => ?_, fun a b h => ?_⟩
  · obtain ⟨hsnr, hrssi⟩ := t.merge_link r now
    exact ⟨hsnr, hrssi, fun _ => rfl, fun _ => rfl, rfl, rfl⟩
  · exact NodeTelemetry.merge_comm h

/-- The power supply in one report, the channel and the weather in another. -/
theorem reports_of_power_and_weather :
    let power : TelemetryReport :=
      { device := some { batteryLevel := some 80, voltage := some 4 } }
    let weather : TelemetryReport :=
      { device := some { channelUtilization := some 12.5 }
        environment := some { temperature := some 21 } }
    power.Disjoint weather ∧
    ((NodeTelemetry.merge {} power (.ofSecs 10)).merge weather (.ofSecs 20)).untimed
      = ((NodeTelemetry.merge {} weather (.ofSecs 10)).merge power (.ofSecs 20)).untimed ∧
    NodeTelemetry.mergeAll {} [(power, .ofSecs 10), (weather, .ofSecs 20)]
      = { device :=
            { batteryLevel := some 80, voltage := some 4, channelUtilization := some 12.5 }
          environment := { temperature := some 21 }
          lastUpdated := some (.ofSecs 20) } := by
  intro power weather
  have hdisjoint : power.Disjoint weather := by
    refine ⟨?_, nofun⟩
    rintro _ ⟨⟩ _ ⟨⟩
    exact ⟨.inr rfl, .inr rfl, .inl rfl, .inl rfl, .inl rfl⟩
  exact ⟨hdisjoint, metrics_keep_last_values.2.2 power weather hdisjoint {} .., rfl⟩

end MeshWatch
