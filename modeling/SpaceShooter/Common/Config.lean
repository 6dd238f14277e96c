/-
# World configuration

The default settings of the game world. The origin is the centre of its rectangle.
-/

import SpaceShooter.Common.Scalar

namespace SpaceShooter.World

/-- How many tick intervals the cadence may lag behind the clock. -/
def kMaxMissedTicks : ℤ := 1

/-- The largest number of leaderboard entries. -/
def kMaxLeaderboardSize : ℕ := 10

variable {K : Type} [Scalar K]

def kDefaultWidth : K := Scalar.lit 2000

def kDefaultHeight : K := Scalar.lit 2000

/-! ### Defaults of a player's ship -/

def kShipDefaultMass : K := Scalar.lit (7854 / 100)

def kShipDefaultRadius : K := Scalar.lit 5

def kShipDefaultThrustPower : K := Scalar.lit (15 / 2)

def kShipDefaultDrag : K := Scalar.lit (1 / 8)

def kShipDefaultHealth : UInt16 := 100

def kShipDefaultDamage : UInt16 := 10

/-! ### Defaults of a bullet -/

def kBulletSpeed : K := Scalar.lit 500

def kBulletRadius : K := Scalar.lit 2

def kBulletDamage : Int64 := 25

end SpaceShooter.World
