import CenterOfMass.Analysis.ResultSet
import CenterOfMass.Exchange.Parameters

namespace CenterOfMass

variable {R : Type} [Extended R]

/-- A table with its sides and its values row after row. -/
def Grid.toJson (g : Grid R) : Json R :=
  .object [("v", .natural 1), ("dim", .array [.natural g.rows, .natural g.cols]),
    ("data", .array (g.cells.toList.map .ofNumber))]

def RawData.toJson : RawData R → Json R
  | .single map => map.toJson
  | .pair x y => .array [x.toJson, y.toJson]

end CenterOfMass
