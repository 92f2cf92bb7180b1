import RoadRules.Router

set_option autoImplicit false

/-! # Ways that a router knows

What a router answers about a way of its network, and about an identifier that no way of it has. The
restrictions on a way are read off its first edge, which a way of a network always has. -/

namespace RoadRules

open Calendar

variable {α : Type} [Quantity α]

/-- The speed limits of a list of restrictions that are in force at a time for a vehicle, or for any
vehicle if none is given. -/
def Restriction.limitsInForce (rs : List (Restriction α)) (time : LocalTime)
    (profile : Option (Profile α)) : List α :=
  (inForce rs time (profile.map Profile.weight) (profile.map Profile.height)).filterMap
    fun x => x.effect.limit?

namespace Router

variable {r : Router α} {way : Ident} {time : LocalTime}
  {choice : Option (VehicleChoice α)} {w : Way α}

theorem isOneway_of_unknown (h : r.network.way? way = none) : r.isOneway way time = false := by
  unfold isOneway
  split
  · rfl
  · rename_i hw
    rw [h] at hw
    cases hw

/-- Of a way that is known the rules on it are asked, and then its tag. -/
theorem isOneway_of_known (hw : r.network.way? way = some w) :
    r.isOneway way time =
      (((Restriction.inForce (r.network.restrictionsOn hw) time none none).findSome?
        fun x => x.effect.direction?).getD (TagMapper.direction w.scalarTags) != .both) := by
  unfold isOneway
  split
  · rename_i hnone
    rw [hw] at hnone
    cases hnone
  · rename_i w' hw'
    obtain rfl : w = w' := Option.some.inj (hw.symm.trans hw')
    rfl

theorem maxSpeed_of_unknown (h : r.network.way? way = none) :
    r.maxSpeed way time choice = .ok none := by
  unfold maxSpeed
  split
  · rfl
  · rename_i hw
    rw [h] at hw
    cases hw

/-- Of a way that is known the attributes and the limits in force are asked. -/
theorem maxSpeed_of_known (hw : r.network.way? way = some w) :
    r.maxSpeed way time choice = (do
      let profile ← choice.mapM VehicleChoice.resolve
      let attributes ← r.mapper.attributes w.scalarTags
      return some ((Restriction.limitsInForce (r.network.restrictionsOn hw) time profile).foldl
        Quantity.least attributes.maxSpeed)) := by
  unfold maxSpeed
  split
  · rename_i hnone
    rw [hw] at hnone
    cases hnone
  · rename_i w' hw'
    obtain rfl : w = w' := Option.some.inj (hw.symm.trans hw')
    rfl

end Router

end RoadRules
