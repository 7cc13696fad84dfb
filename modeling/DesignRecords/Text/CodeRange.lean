namespace DesignRecords

/-- A set of code points as closed ranges, in increasing order. -/
abbrev CodeRanges := List (Nat × Nat)

/-- Whether a code point lies in one of the ranges; the search ends at the first range above it. -/
def CodeRanges.has (n : Nat) : CodeRanges → Bool
  | [] => false
  | (first, last) :: rest =>
    if n < first then false else if n ≤ last then true else CodeRanges.has n rest

end DesignRecords
