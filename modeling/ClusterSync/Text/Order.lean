/-
# Texts in byte order

Byte order of texts is the order by code points, since UTF-8 keeps it.
-/

namespace ClusterSync
namespace Text

/-- The texts in byte order, repetitions kept. -/
def sort (xs : List String) : List String :=
  xs.mergeSort fun a b => decide (a ≤ b)

/-- A list without those members that equal the one before them. -/
def dropRepeats : List String → List String
  | [] => []
  | [x] => [x]
  | x :: y :: rest => if x = y then dropRepeats (y :: rest) else x :: dropRepeats (y :: rest)

/-- The texts in byte order, each once. -/
def sortUnique (xs : List String) : List String :=
  dropRepeats (sort xs)

end Text
end ClusterSync
