/-!
# Hardware models

Names of the device models that firmware numbers; a model without a name here is
named after its number.
-/

namespace MeshWatch.Hardware

/-- The models with a name. -/
def names : List (Nat × String) :=
  [(0, "UNSET"), (1, "TLORA_V2"), (2, "TLORA_V1"), (3, "TLORA_V2_1_1P6"), (4, "TBEAM"),
   (5, "HELTEC_V2_0"), (6, "TBEAM_V0P7"), (7, "T_ECHO"), (8, "TLORA_V1_1P3"), (9, "RAK4631"),
   (10, "HELTEC_V2_1"), (11, "HELTEC_V1"), (43, "HELTEC_V3"), (255, "PRIVATE_HW")]

/-- The name of a model. -/
def nameOf (model : UInt32) : String :=
  (names.lookup model.toNat).getD ("HW_" ++ toString model.toNat)

end MeshWatch.Hardware
