import RoadRules.Vehicle.Profile

set_option autoImplicit false

/-! # Choosing a vehicle

A question about travel names its vehicle in one of three ways: by a whole profile, by a class, or
by a name that has to be looked up. Only the last can fail. -/

namespace RoadRules

/-- How a vehicle is chosen. -/
inductive VehicleChoice (α : Type) where
  | profile (p : Profile α)
  | vehicleClass (c : VehicleClass)
  | named (identifier : Text)

def VehicleChoice.resolve {α : Type} [Quantity α] : VehicleChoice α → Except Fault (Profile α)
  | profile p => .ok p
  | vehicleClass c => .ok (.ofClass c)
  | named identifier => Profile.named identifier

end RoadRules
