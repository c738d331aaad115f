import ClassSplice.Decimal

/-!
# Skill rolls

A skill is checked by a roll against a gaussian whose mean depends on how far the skill is from the
difficulty. The message about a roll goes to the player who made it, if that player is online.
-/

namespace ClassSplice

/-- The gaussian that a skill check rolls against. -/
structure RollStatistics where
  slide : Float
  w : Float
  mean : Float

def RollStatistics.of (skill difficulty : Float) : RollStatistics :=
  let cubes := skill * skill * skill - difficulty * difficulty * difficulty
  let slide := cubes / 50000.0 + (skill - difficulty)
  let w := 30.0 - (skill - difficulty).abs / 4.0
  { slide, w, mean := (w + slide.abs / 6.0) + slide }

/-- One roll of a skill. -/
structure Roll where
  bonus : Float
  skill : Float
  difficulty : Float
  power : Float

namespace Roll

def statistics (r : Roll) : RollStatistics := .of r.skill r.difficulty

/-- What the player is told. -/
def message (skillName : String) (r : Roll) : String :=
  skillName ++ ", bonus:" ++ Decimal.fixed 3 r.bonus ++ ", skill:" ++ Decimal.fixed 3 r.skill ++
    ", difficulty: " ++ Decimal.fixed 3 r.difficulty ++ "; gaussian mean: " ++
    Decimal.fixed 3 r.statistics.mean ++ "; roll: " ++ Decimal.fixed 3 r.power

/-- The message about a roll. There is none without a skill or while the performer is offline. -/
def delivery (online : List Int64) (skillName : Option String) (performer : Int64) (r : Roll) :
    Option String :=
  if online.contains performer then skillName.map r.message else none

end Roll

end ClassSplice
