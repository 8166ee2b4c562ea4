import MeshWatch.Proofs.WireRoundTrip

/-!
# Bodies are read back

The messages of the application ports are read back from what they are written as, like
the messages that carry them. Fields with presence come back as they were, with the sign
of a zero; numbers that are packed come back one by one.

- `wordsIn?_write`, `varintsIn?_write`: numbers packed together.
- `merge_uint32?` and the like: fields with presence.
- `Position.decode_encode`, `User.decode_encode`, `Telemetry.decode_encode`,
  `Routing.decode_encode`, `RouteDiscovery.decode_encode`, `NeighborInfo.decode_encode`: the
  bodies.
-/

namespace MeshWatch.Wire

/-! ## Numbers packed together -/

theorem wordsIn?_write (ws : List UInt32) :
    FieldValue.wordsIn? (ws.flatMap Bytes.ofWord32) = some ws := by
  induction ws with
  | nil => rfl
  | cons w ws ih =>
    show (FieldValue.wordsIn? (ws.flatMap Bytes.ofWord32)).map _ = _
    rw [ih, Option.map_some, Bytes.word32_ofWord32]

theorem varintsIn?_write (ns : List UInt64) : ∀ {fuel : Nat},
    (ns.flatMap Varint.write).length ≤ fuel →
      FieldValue.varintsIn? fuel (ns.flatMap Varint.write) = some ns := by
  induction ns with
  | nil => intro fuel _; cases fuel <;> rfl
  | cons n ns ih =>
    intro fuel hfuel
    have hpos := List.length_pos_iff.2 (Varint.write_ne_nil n)
    rw [List.flatMap_cons, List.length_append] at hfuel
    rw [List.flatMap_cons]
    cases fuel with
    | zero => omega
    | succ fuel =>
      have hrest : (ns.flatMap Varint.write).length ≤ fuel := by omega
      cases hbytes : Varint.write n ++ ns.flatMap Varint.write with
      | nil => simp [Varint.write_ne_nil] at hbytes
      | cons b bs =>
        simp only [FieldValue.varintsIn?]
        rw [← hbytes, Varint.read?_write]
        dsimp only
        rw [ih hrest]
        rfl

theorem int32s?_write (ns : List Int32) :
    FieldValue.int32s? (.bytes (ns.flatMap fun n => Varint.write (ofInt32 n))) = some ns := by
  have hwords : (ns.flatMap fun n => Varint.write (ofInt32 n))
      = (ns.map ofInt32).flatMap Varint.write := by rw [List.flatMap_map]
  rw [FieldValue.int32s?, hwords, varintsIn?_write _ (Nat.le_refl _)]
  simp [Function.comp_def, toInt32_ofInt32]

/-! ## Fields with presence -/

namespace Field

theorem uint32?_eq (k : Nat) (v : Option UInt32) :
    uint32? k v = (v.map fun n => ⟨k, .varint n.toUInt64⟩).toList := by cases v <;> rfl

theorem int32?_eq (k : Nat) (v : Option Int32) :
    int32? k v = (v.map fun n => ⟨k, .varint (ofInt32 n)⟩).toList := by cases v <;> rfl

theorem sfixed?_eq (k : Nat) (v : Option Int32) :
    sfixed? k v = (v.map fun n => ⟨k, .fixed32 n.toUInt32⟩).toList := by cases v <;> rfl

theorem single?_eq (k : Nat) (v : Option Single) :
    single? k v = (v.map fun x => ⟨k, .fixed32 x.bits⟩).toList := by cases v <;> rfl

end Field

namespace Message

variable {α β : Type} [Message α] [Message β] {room k : Nat} {m : α}

/-- A field that is there when its value is. -/
theorem merge_option {γ : Type} (s : α → Option γ → α) (f : γ → Field)
    (hput : ∀ m x, put room m (f x) = some (s m (some x))) (h0 : s m none = m) (v : Option γ) :
    mergeFields room m (v.map f).toList = some (s m v) := by
  cases v with
  | none => exact congrArg some h0.symm
  | some x =>
    show (put room m (f x)).bind _ = _
    rw [hput]
    rfl

theorem merge_uint32? (s : α → Option UInt32 → α)
    (hput : ∀ m n, put room m ⟨k, .varint n⟩ = some (s m (some n.toUInt32))) (h0 : s m none = m)
    (v : Option UInt32) : mergeFields room m (Field.uint32? k v) = some (s m v) := by
  rw [Field.uint32?_eq]
  refine merge_option s _ (fun m n => ?_) h0 v
  rw [hput, UInt32.toUInt32_toUInt64]

theorem merge_int32? (s : α → Option Int32 → α)
    (hput : ∀ m n, put room m ⟨k, .varint n⟩ = some (s m (some (toInt32 n)))) (h0 : s m none = m)
    (v : Option Int32) : mergeFields room m (Field.int32? k v) = some (s m v) := by
  rw [Field.int32?_eq]
  refine merge_option s _ (fun m n => ?_) h0 v
  rw [hput, toInt32_ofInt32]

theorem merge_sfixed? (s : α → Option Int32 → α)
    (hput : ∀ m w, put room m ⟨k, .fixed32 w⟩ = some (s m (some w.toInt32))) (h0 : s m none = m)
    (v : Option Int32) : mergeFields room m (Field.sfixed? k v) = some (s m v) := by
  rw [Field.sfixed?_eq]
  refine merge_option s _ (fun m n => ?_) h0 v
  rw [hput, Int32.toInt32_toUInt32]

theorem merge_single? (s : α → Option Single → α)
    (hput : ∀ m w, put room m ⟨k, .fixed32 w⟩ = some (s m (some ⟨w⟩))) (h0 : s m none = m)
    (v : Option Single) : mergeFields room m (Field.single? k v) = some (s m v) := by
  rw [Field.single?_eq]
  exact merge_option s _ (fun m x => hput m x.bits) h0 v

/-- Numbers packed together are left out when there are none. -/
theorem merge_packed {γ : Type} (s : α → List γ → α) (read : Bytes → Option (List γ))
    (hput : ∀ m bs, put room m ⟨k, .bytes bs⟩ = (read bs).map (s m)) (hnil : read [] = some [])
    (h0 : s m [] = m) {bs : Bytes} {vs : List γ} (hread : read bs = some vs) :
    mergeFields room m (Field.bytes k bs) = some (s m vs) := by
  refine merge_unless ?_ fun h => ?_
  · rw [hput, hread]
    rfl
  · rw [List.isEmpty_iff.1 h, hnil] at hread
    cases hread
    exact h0.symm

theorem merge_fixeds (s : α → List UInt32 → α)
    (hput : ∀ m bs, put room m ⟨k, .bytes bs⟩ = (FieldValue.fixeds? (.bytes bs)).map (s m))
    (h0 : s m [] = m) (ws : List UInt32) :
    mergeFields room m (Field.fixeds k ws) = some (s m ws) :=
  merge_packed s (fun bs => FieldValue.fixeds? (.bytes bs)) hput rfl h0 (wordsIn?_write ws)

theorem merge_int32s (s : α → List Int32 → α)
    (hput : ∀ m bs, put room m ⟨k, .bytes bs⟩ = (FieldValue.int32s? (.bytes bs)).map (s m))
    (h0 : s m [] = m) (ns : List Int32) :
    mergeFields room m (Field.int32s k ns) = some (s m ns) :=
  merge_packed s (fun bs => FieldValue.int32s? (.bytes bs)) hput rfl h0 (int32s?_write ns)

end Message

open MeshWatch.Wire.Message

/-! ## Bodies -/

theorem Position.wellFormed (p : Position) : ∀ f ∈ fields p, f.WellFormed := by
  intro f hf
  simp only [fields, Field.sfixed?_eq, Field.int32?_eq, Field.uint32?_eq, Field.fixed,
    Field.uint32, List.mem_append, List.mem_ite_nil_left, List.mem_singleton, Option.mem_toList,
    Option.map_eq_some_iff, or_assoc] at hf
  rcases hf with ⟨_, -, rfl⟩ | ⟨_, -, rfl⟩ | ⟨_, -, rfl⟩ | ⟨-, rfl⟩ | ⟨_, -, rfl⟩ | ⟨_, -, rfl⟩
    | ⟨-, rfl⟩ | ⟨-, rfl⟩
  all_goals exact Field.wellFormed_of (by decide) trivial

theorem Position.decode_encode (p : Position) (hlen : (encode p).length < UInt64.size) :
    (decode? (encode p) : Option Position) = some p := by
  refine Message.merge_encode p.wellFormed hlen ?_
  simp only [fields, List.append_assoc]
  refine merge_append (merge_sfixed? (fun m v => { m with latitudeI := v }) (fun _ _ => rfl) rfl _) ?_
  refine merge_append (merge_sfixed? (fun m v => { m with longitudeI := v }) (fun _ _ => rfl) rfl _) ?_
  refine merge_append (merge_int32? (fun m v => { m with altitude := v }) (fun _ _ => rfl) rfl _) ?_
  refine merge_append (merge_fixed (fun m v => { m with time := v }) (fun _ _ => rfl) rfl _) ?_
  refine merge_append (merge_uint32? (fun m v => { m with groundSpeed := v }) (fun _ _ => rfl) rfl _) ?_
  refine merge_append (merge_uint32? (fun m v => { m with groundTrack := v }) (fun _ _ => rfl) rfl _) ?_
  refine merge_append (merge_uint32 (fun m v => { m with satsInView := v }) (fun _ _ => rfl) rfl _) ?_
  exact merge_uint32 (fun (m : Position) v => { m with precisionBits := v }) (fun _ _ => rfl) rfl _

theorem User.wellFormed (u : User) : ∀ f ∈ fields u, f.WellFormed := by
  intro f hf
  simp only [fields, Field.text, Field.bytes, Field.int32, Field.bool, List.mem_append,
    List.mem_ite_nil_left, List.mem_ite_nil_right, List.mem_singleton, or_assoc] at hf
  rcases hf with ⟨-, rfl⟩ | ⟨-, rfl⟩ | ⟨-, rfl⟩ | ⟨-, rfl⟩ | ⟨-, rfl⟩ | ⟨-, rfl⟩ | ⟨-, rfl⟩
  all_goals exact Field.wellFormed_of (by decide) trivial

theorem User.decode_encode (u : User) (hlen : (encode u).length < UInt64.size) :
    (decode? (encode u) : Option User) = some u := by
  refine Message.merge_encode u.wellFormed hlen ?_
  simp only [fields, List.append_assoc]
  refine merge_append (merge_text (fun m v => { m with id := v }) (fun _ _ => rfl) rfl _) ?_
  refine merge_append (merge_text (fun m v => { m with longName := v }) (fun _ _ => rfl) rfl _) ?_
  refine merge_append (merge_text (fun m v => { m with shortName := v }) (fun _ _ => rfl) rfl _) ?_
  refine merge_append (merge_bytes (fun m v => { m with macaddr := v }) (fun _ _ => rfl) rfl _) ?_
  refine merge_append (merge_int32 (fun m v => { m with hwModel := v }) (fun _ _ => rfl) rfl _) ?_
  refine merge_append (merge_bool (fun m v => { m with isLicensed := v }) (fun _ _ => rfl) rfl _) ?_
  exact merge_int32 (fun (m : User) v => { m with role := v }) (fun _ _ => rfl) rfl _

theorem DeviceMetrics.wellFormed (d : DeviceMetrics) : ∀ f ∈ fields d, f.WellFormed := by
  intro f hf
  simp only [fields, Field.uint32?_eq, Field.single?_eq, List.mem_append, Option.mem_toList,
    Option.map_eq_some_iff, or_assoc] at hf
  rcases hf with ⟨_, -, rfl⟩ | ⟨_, -, rfl⟩ | ⟨_, -, rfl⟩ | ⟨_, -, rfl⟩ | ⟨_, -, rfl⟩
  all_goals exact Field.wellFormed_of (by decide) trivial

theorem DeviceMetrics.merge_encode (d : DeviceMetrics) (room : Nat)
    (hlen : (encode d).length < UInt64.size) :
    merge room ({} : DeviceMetrics) (encode d) = some d := by
  refine Message.merge_encode d.wellFormed hlen ?_
  simp only [fields, List.append_assoc]
  refine merge_append (merge_uint32? (fun m v => { m with batteryLevel := v }) (fun _ _ => rfl) rfl _) ?_
  refine merge_append (merge_single? (fun m v => { m with voltage := v }) (fun _ _ => rfl) rfl _) ?_
  refine merge_append
    (merge_single? (fun m v => { m with channelUtilization := v }) (fun _ _ => rfl) rfl _) ?_
  refine merge_append (merge_single? (fun m v => { m with airUtilTx := v }) (fun _ _ => rfl) rfl _) ?_
  exact merge_uint32? (fun (m : DeviceMetrics) v => { m with uptimeSeconds := v })
    (fun _ _ => rfl) rfl _

theorem EnvironmentMetrics.wellFormed (e : EnvironmentMetrics) : ∀ f ∈ fields e, f.WellFormed := by
  intro f hf
  simp only [fields, Field.single?_eq, List.mem_append, Option.mem_toList,
    Option.map_eq_some_iff, or_assoc] at hf
  rcases hf with ⟨_, -, rfl⟩ | ⟨_, -, rfl⟩ | ⟨_, -, rfl⟩ | ⟨_, -, rfl⟩
  all_goals exact Field.wellFormed_of (by decide) trivial

theorem EnvironmentMetrics.merge_encode (e : EnvironmentMetrics) (room : Nat)
    (hlen : (encode e).length < UInt64.size) :
    merge room ({} : EnvironmentMetrics) (encode e) = some e := by
  refine Message.merge_encode e.wellFormed hlen ?_
  simp only [fields, List.append_assoc]
  refine merge_append (merge_single? (fun m v => { m with temperature := v }) (fun _ _ => rfl) rfl _) ?_
  refine merge_append
    (merge_single? (fun m v => { m with relativeHumidity := v }) (fun _ _ => rfl) rfl _) ?_
  refine merge_append
    (merge_single? (fun m v => { m with barometricPressure := v }) (fun _ _ => rfl) rfl _) ?_
  exact merge_single? (fun (m : EnvironmentMetrics) v => { m with gasResistance := v })
    (fun _ _ => rfl) rfl _

theorem Telemetry.wellFormed (t : Telemetry) : ∀ f ∈ fields t, f.WellFormed := by
  intro f hf
  have hvariant : ∀ v : TelemetryVariant, v.field.WellFormed := by
    intro v
    cases v with
    | device => exact Field.wellFormed_of (by decide) trivial
    | environment => exact Field.wellFormed_of (by decide) trivial
  simp only [fields, Field.fixed, List.mem_append, List.mem_ite_nil_left, List.mem_singleton,
    Option.mem_toList, Option.map_eq_some_iff] at hf
  rcases hf with ⟨-, rfl⟩ | ⟨v, -, rfl⟩
  · exact Field.wellFormed_of (by decide) trivial
  · exact hvariant v

theorem Telemetry.decode_encode (t : Telemetry) (hlen : (encode t).length < UInt64.size) :
    (decode? (encode t) : Option Telemetry) = some t := by
  refine Message.merge_encode t.wellFormed hlen ?_
  refine merge_append (merge_fixed (fun m v => { m with time := v }) (fun _ _ => rfl) rfl _) ?_
  obtain ⟨time, variant⟩ := t
  cases variant with
  | none => rfl
  | some v =>
    have hmem : v.field ∈ fields (⟨time, some v⟩ : Telemetry) := by simp [fields]
    cases v with
    | device d =>
      have hpart := d.merge_encode (groupRoom - 1)
        (Nat.lt_of_le_of_lt (length_le_encode hmem) hlen)
      exact merge_message (fun (m : Telemetry) v => { m with variant := some (.device v) })
        (fun _ => rfl) hpart
    | environment e =>
      have hpart := e.merge_encode (groupRoom - 1)
        (Nat.lt_of_le_of_lt (length_le_encode hmem) hlen)
      exact merge_message (fun (m : Telemetry) v => { m with variant := some (.environment v) })
        (fun _ => rfl) hpart

theorem RouteDiscovery.wellFormed (r : RouteDiscovery) : ∀ f ∈ fields r, f.WellFormed := by
  intro f hf
  simp only [fields, Field.fixeds, Field.int32s, Field.bytes, List.mem_append,
    List.mem_ite_nil_left, List.mem_singleton, or_assoc] at hf
  rcases hf with ⟨-, rfl⟩ | ⟨-, rfl⟩ | ⟨-, rfl⟩ | ⟨-, rfl⟩
  all_goals exact Field.wellFormed_of (by decide) trivial

theorem RouteDiscovery.merge_encode (r : RouteDiscovery) (room : Nat)
    (hlen : (encode r).length < UInt64.size) :
    merge room ({} : RouteDiscovery) (encode r) = some r := by
  refine Message.merge_encode r.wellFormed hlen ?_
  simp only [fields, List.append_assoc]
  refine merge_append
    (merge_fixeds (fun m vs => { m with route := m.route ++ vs }) (fun _ _ => rfl) rfl _) ?_
  refine merge_append
    (merge_int32s (fun m vs => { m with snrTowards := m.snrTowards ++ vs }) (fun _ _ => rfl) rfl _) ?_
  refine merge_append
    (merge_fixeds (fun m vs => { m with routeBack := m.routeBack ++ vs }) (fun _ _ => rfl) rfl _) ?_
  exact merge_int32s (fun (m : RouteDiscovery) vs => { m with snrBack := m.snrBack ++ vs })
    (fun _ _ => rfl) rfl _

theorem RouteDiscovery.decode_encode (r : RouteDiscovery)
    (hlen : (encode r).length < UInt64.size) :
    (decode? (encode r) : Option RouteDiscovery) = some r :=
  r.merge_encode groupRoom hlen

theorem Routing.wellFormed (r : Routing) : ∀ f ∈ fields r, f.WellFormed := by
  intro f hf
  simp only [fields, Option.mem_toList, Option.map_eq_some_iff] at hf
  obtain ⟨v, -, rfl⟩ := hf
  cases v with
  | routeRequest | routeReply | errorReason => exact Field.wellFormed_of (by decide) trivial

theorem Routing.decode_encode (r : Routing) (hlen : (encode r).length < UInt64.size) :
    (decode? (encode r) : Option Routing) = some r := by
  refine Message.merge_encode r.wellFormed hlen ?_
  obtain ⟨v⟩ := r
  cases v with
  | none => rfl
  | some v =>
    have hmem : v.field ∈ fields (⟨some v⟩ : Routing) := by simp [fields]
    cases v with
    | errorReason code =>
      show (put groupRoom ({} : Routing) ⟨3, .varint (ofInt32 code)⟩).bind _ = _
      show some (⟨some (.errorReason (toInt32 (ofInt32 code)))⟩ : Routing) = _
      rw [toInt32_ofInt32]
    | routeRequest d =>
      have hpart := d.merge_encode (groupRoom - 1)
        (Nat.lt_of_le_of_lt (length_le_encode hmem) hlen)
      exact merge_message (fun (m : Routing) v => { m with variant := some (.routeRequest v) })
        (fun _ => rfl) hpart
    | routeReply d =>
      have hpart := d.merge_encode (groupRoom - 1)
        (Nat.lt_of_le_of_lt (length_le_encode hmem) hlen)
      exact merge_message (fun (m : Routing) v => { m with variant := some (.routeReply v) })
        (fun _ => rfl) hpart

/-- A neighbor as it comes over the wire. -/
def Neighbor.settled (n : Neighbor) : Neighbor := { n with snr := n.snr.settled }

theorem Neighbor.wellFormed (n : Neighbor) : ∀ f ∈ fields n, f.WellFormed := by
  intro f hf
  simp only [fields, Field.uint32, Field.single, Field.fixed, List.mem_append,
    List.mem_ite_nil_left, List.mem_singleton, or_assoc] at hf
  rcases hf with ⟨-, rfl⟩ | ⟨-, rfl⟩ | ⟨-, rfl⟩ | ⟨-, rfl⟩
  all_goals exact Field.wellFormed_of (by decide) trivial

theorem Neighbor.merge_encode (n : Neighbor) (room : Nat) (hlen : (encode n).length < UInt64.size) :
    merge room ({} : Neighbor) (encode n) = some n.settled := by
  refine Message.merge_encode n.wellFormed hlen ?_
  simp only [fields, List.append_assoc]
  refine merge_append (merge_uint32 (fun m v => { m with nodeId := v }) (fun _ _ => rfl) rfl _) ?_
  refine merge_append (merge_single (fun m v => { m with snr := v }) (fun _ _ => rfl) rfl _) ?_
  refine merge_append (merge_fixed (fun m v => { m with lastRxTime := v }) (fun _ _ => rfl) rfl _) ?_
  exact merge_uint32 (fun (m : Neighbor) v => { m with nodeBroadcastIntervalSecs := v })
    (fun _ _ => rfl) rfl _

/-- A neighbor report as it comes over the wire. -/
def NeighborInfo.settled (r : NeighborInfo) : NeighborInfo :=
  { r with neighbors := r.neighbors.map Neighbor.settled }

theorem NeighborInfo.wellFormed (r : NeighborInfo) : ∀ f ∈ fields r, f.WellFormed := by
  intro f hf
  simp only [fields, Field.uint32, List.mem_append, List.mem_ite_nil_left, List.mem_singleton,
    List.mem_map, or_assoc] at hf
  rcases hf with ⟨-, rfl⟩ | ⟨-, rfl⟩ | ⟨-, rfl⟩ | ⟨_, -, rfl⟩
  all_goals exact Field.wellFormed_of (by decide) trivial

/-- Repeated messages come back one by one, behind those that were there. -/
theorem NeighborInfo.merge_neighbors {ns : List Neighbor} (room : Nat)
    (hlen : ∀ n ∈ ns, (encode n).length < UInt64.size) : ∀ m : NeighborInfo,
    mergeFields room m (ns.map (Field.message 4))
      = some { m with neighbors := m.neighbors ++ ns.map Neighbor.settled } := by
  induction ns with
  | nil =>
    intro m
    rw [List.map_nil, List.map_nil, List.append_nil]
    rfl
  | cons n ns ih =>
    intro m
    have hone : mergeFields room m [Field.message 4 n]
        = some { m with neighbors := m.neighbors ++ [n.settled] } :=
      merge_message (fun (m : NeighborInfo) v => { m with neighbors := m.neighbors ++ [v] })
        (fun _ => rfl) (n.merge_encode (room - 1) (hlen n (List.mem_cons_self ..)))
    have hrest := ih (fun n' hn' => hlen n' (List.mem_cons_of_mem _ hn'))
      { m with neighbors := m.neighbors ++ [n.settled] }
    have hall := merge_append hone hrest
    rw [List.append_assoc] at hall
    exact hall

theorem NeighborInfo.decode_encode (r : NeighborInfo) (hlen : (encode r).length < UInt64.size) :
    (decode? (encode r) : Option NeighborInfo) = some r.settled := by
  have hparts : ∀ n ∈ r.neighbors, (encode n).length < UInt64.size := by
    intro n hn
    have hmem : Field.message 4 n ∈ fields r :=
      List.mem_append_right _ (List.mem_map_of_mem hn)
    exact Nat.lt_of_le_of_lt (length_le_encode hmem) hlen
  refine Message.merge_encode r.wellFormed hlen ?_
  simp only [fields, List.append_assoc]
  refine merge_append (merge_uint32 (fun m v => { m with nodeId := v }) (fun _ _ => rfl) rfl _) ?_
  refine merge_append (merge_uint32 (fun m v => { m with lastSentById := v }) (fun _ _ => rfl) rfl _) ?_
  refine merge_append (merge_uint32 (fun m v => { m with nodeBroadcastIntervalSecs := v })
    (fun _ _ => rfl) rfl _) ?_
  exact NeighborInfo.merge_neighbors groupRoom hparts _

end MeshWatch.Wire
