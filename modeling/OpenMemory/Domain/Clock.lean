import OpenMemory.Domain.DateTime

/-!
# Instants and durations

Aware datetimes compare as instants. Adding a duration moves the wall clock and keeps the offset; it
overflows outside the years 1–9999.
-/

namespace OpenMemory

/-- Microseconds since `0001-01-01T00:00` in UTC; a naive value is taken as it stands. -/
def DateTime.instant (d : DateTime) : Int := d.wall - d.offset.getD 0

/-- `d + timedelta(microseconds=micros)`, `none` for `OverflowError`. -/
def DateTime.plus (d : DateTime) (micros : Int) : Option DateTime :=
  if h : 0 ≤ d.wall + micros ∧ d.wall + micros < maxWall then
    some { wall := d.wall + micros, offset := d.offset, wall_nonneg := h.1, wall_lt := h.2
           offset_lt := d.offset_lt }
  else none

end OpenMemory
