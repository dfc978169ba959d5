import Verdict.Json.Basic

/-!
# Units of length and area

Units by their short names, each with its size in metres or square metres.
-/

namespace Verdict

inductive Dimension where
  | length
  | area
  deriving DecidableEq

structure MeasureUnit where
  dimension : Dimension
  size : Float

namespace MeasureUnit

private def ofLength (size : Float) : Option MeasureUnit := some ⟨.length, size⟩

private def ofArea (size : Float) : Option MeasureUnit := some ⟨.area, size⟩

def ofName? (name : String) : Option MeasureUnit :=
  match name with
  | "mm" => ofLength 0.001
  | "cm" => ofLength 0.01
  | "m" => ofLength 1
  | "km" => ofLength 1000
  | "in" => ofLength 0.0254
  | "ft" => ofLength 0.3048
  | "yd" => ofLength 0.9144
  | "mi" => ofLength 1609.344
  | "sqmm" => ofArea 1e-6
  | "sqcm" => ofArea 1e-4
  | "sqm" | "m2" => ofArea 1
  | "sqkm" => ofArea 1e6
  | "sqin" => ofArea 0.00064516
  | "sqft" => ofArea 0.09290304
  | "sqyd" => ofArea 0.83612736
  | "acre" => ofArea 4046.8564224
  | "ha" => ofArea 10000
  | "sqmi" => ofArea 2589988.110336
  | _ => none

/-- A magnitude in another unit. An area in a unit of length is given in squares of that unit; a
length has no area. -/
def convert? (x : Float) (a b : MeasureUnit) : Option Float :=
  if a.dimension = b.dimension then some (x * a.size / b.size)
  else if a.dimension = .area then some (x * a.size / (b.size * b.size))
  else none

end MeasureUnit

end Verdict
