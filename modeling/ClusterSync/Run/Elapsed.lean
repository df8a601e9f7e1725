/-
# Times that something took

A time is told in the greatest unit that makes it at least one, with two places; half a
hundredth goes up.
-/

namespace ClusterSync
namespace Elapsed

/-- The unit for a time in nanoseconds, and how many nanoseconds it has. -/
def unit (nanos : Nat) : String × Nat :=
  if 1000000000 ≤ nanos then ("s", 1000000000)
  else if 1000000 ≤ nanos then ("ms", 1000000)
  else if 1000 ≤ nanos then ("µs", 1000)
  else ("ns", 1)

/-- The text of a time in nanoseconds. -/
def text (nanos : Nat) : String :=
  let (name, size) := unit nanos
  let hundredths := (100 * nanos + size / 2) / size
  let places := hundredths % 100
  s!"{hundredths / 100}." ++ (if places < 10 then "0" else "") ++ s!"{places}{name}"

end Elapsed
end ClusterSync
