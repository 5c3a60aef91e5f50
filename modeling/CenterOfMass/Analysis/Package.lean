import CenterOfMass.Analysis.ResultSet
import CenterOfMass.Analysis.Settings
import CenterOfMass.Field.Basic
import CenterOfMass.Image.Render

namespace CenterOfMass

variable {R : Type} [Scalar R]

/-- A map under its name, drawn in the colormap of the settings. -/
def Entry.ofMap (settings : Settings R) (key title description : String) (map : Grid R) :
    Except Failure (Entry R) := do
  let image ← visualize settings.colormap settings.logarithmic map.cells map.cols map.rows
  return { raw := .single map, image, key, title, description }

/-- A vector field under its name, drawn in the colors of the wheel. Its components are to be found
in entries of their own. -/
def Entry.ofVectors (settings : Settings R) (key title description : String) (x y : Grid R) :
    Except Failure (Entry R) := do
  let image ← settings.wheel.render y.cells x.cells x.cols x.rows none
  return { raw := .pair x y, image, key, title, description, inDownload := false }

namespace ShiftField

/-- The results of a field in the order in which they are shown. -/
def entries (settings : Settings R) : ShiftField R → Except Failure (List (Entry R))
  | .real f => do
    let field ← Entry.ofVectors settings "field" "field" "cubehelix colorwheel visualization"
      f.x f.y
    let magnitude ← Entry.ofMap settings "magnitude" "magnitude" "magnitude of the vector field"
      f.magnitude
    let divergence ← Entry.ofMap settings "divergence" "divergence"
      "divergence of the vector field" f.divergence
    let curl ← Entry.ofMap settings "curl" "curl" "curl of the 2D vector field" f.curl
    let x ← Entry.ofMap settings "x" "x" "x component of the center" f.x
    let y ← Entry.ofMap settings "y" "y" "y component of the center" f.y
    return [field, magnitude, divergence, curl, x, y]
  | .complex f => do
    let xReal ← Entry.ofMap settings "x_real" "x [real]" "x component of the center" f.xReal
    let yReal ← Entry.ofMap settings "y_real" "y [real]" "y component of the center" f.yReal
    let xImag ← Entry.ofMap settings "x_imag" "x [imag]" "x component of the center" f.xImag
    let yImag ← Entry.ofMap settings "y_imag" "y [imag]" "y component of the center" f.yImag
    return [xReal, yReal, xImag, yImag]

def resultSet (field : ShiftField R) (settings : Settings R) : Except Failure (ResultSet R) := do
  ResultSet.ofEntries (← field.entries settings)

end ShiftField

end CenterOfMass
