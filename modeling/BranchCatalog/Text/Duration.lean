import BranchCatalog.Text.Basic

namespace BranchCatalog.Duration

/-- The units above the second with their lengths in seconds, longest first. -/
def longUnits : List (Nat × Text) :=
  [(31536000, "year".toList), (604800, "week".toList), (86400, "day".toList), (3600, "hour".toList),
    (60, "minute".toList)]

/-- The number of units in a duration, to the nearest whole one. -/
def rounded (milliseconds unit : Nat) : Nat :=
  (milliseconds + unit * 500) / (unit * 1000)

/-- A unit suits a duration that lasts one and a half of it, less half of the unit below. -/
def suits (milliseconds unit below : Nat) : Bool :=
  unit * 1500 ≤ milliseconds + below * 500

/-- The first unit that suits a duration, with the number of such units, which is at least two, and
otherwise the second. -/
def measured (milliseconds : Nat) : List (Nat × Text) → Nat × Text
  | [] => (rounded milliseconds 1, "second".toList)
  | (unit, name) :: units =>
    let below := (units.head?.map (·.1)).getD 1
    if suits milliseconds unit below then (max 2 (rounded milliseconds unit), name)
    else measured milliseconds units

def written (milliseconds : Nat) : Text :=
  let (count, name) := measured milliseconds longUnits
  Text.decimal count ++ ' ' :: name ++ (if count = 1 then [] else ['s'])

end BranchCatalog.Duration
