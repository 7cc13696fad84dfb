import DesignRecords.Text.Basic

namespace DesignRecords

/-- Puts `x` into an increasing list, unless an equal member is there. -/
def insertIncreasing [Ord α] (x : α) : List α → List α
  | [] => [x]
  | y :: ys =>
    match compare x y with
    | .lt => x :: y :: ys
    | .eq => y :: ys
    | .gt => y :: insertIncreasing x ys

/-- The members of a list in increasing order, each once. -/
def increasing [Ord α] (xs : List α) : List α := xs.foldr insertIncreasing []

end DesignRecords
