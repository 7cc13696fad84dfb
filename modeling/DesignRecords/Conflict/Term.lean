import DesignRecords.Path
import DesignRecords.Text.Alphanumeric
import DesignRecords.Text.Increasing
import DesignRecords.Text.Lowercase

namespace DesignRecords

namespace Text

/-- The longest pieces of a text that have only letters and digits, in order and in lower case. -/
def tokens (t : Text) : List Text :=
  ((t.splitOnP (!isAlphanumeric ·)).filter (· ≠ [])).map lowercase

/-- Words that say nothing of what a text is about. -/
def fillers : List Text :=
  (["about", "above", "after", "again", "also", "been", "before", "being", "below", "between",
    "both", "could", "does", "doing", "down", "each", "from", "further", "have", "having", "here",
    "into", "just", "more", "most", "must", "only", "other", "over", "same", "shall", "should",
    "some", "such", "than", "that", "their", "them", "then", "there", "these", "they", "this",
    "those", "through", "under", "until", "very", "were", "what", "when", "where", "which", "while",
    "will", "with", "would", "your"] : List String).map String.toList

end Text

/-- How much texts must have in common to be worth a look. -/
structure Thresholds where
  /-- The number of shared terms from which texts are taken to overlap. -/
  sharedTerms : Nat
  /-- The length from which a word is a term. -/
  termLength : Nat
deriving DecidableEq, Repr

namespace Thresholds

/-- The thresholds where nothing else is set. -/
def standard : Thresholds := ⟨2, 4⟩

/-- Whether a token says something of what a text is about. -/
def isTerm (th : Thresholds) (token : Text) : Bool :=
  max 1 th.termLength ≤ token.length && !Text.fillers.contains token

/-- The terms of a text in increasing order. -/
def terms (th : Thresholds) (t : Text) : List Text := increasing ((Text.tokens t).filter th.isTerm)

/-- The names of the directories in a path, and its file name without the extension. -/
def segments (p : Path) : List Text :=
  ((p.parent?.map Path.parts).getD []).map Path.Part.text ++ p.stem?.toList

/-- The terms of some paths in increasing order. -/
def pathTerms (th : Thresholds) (paths : List Path) : List Text :=
  increasing ((paths.flatMap segments).flatMap th.terms)

/-- The terms of a text that are among those of a proposal. -/
def shared (th : Thresholds) (proposal : List Text) (t : Text) : List Text :=
  (th.terms t).filter proposal.contains

/-- Whether a number of shared terms makes an overlap; without a shared term there is none. -/
def flagged (th : Thresholds) (count : Nat) : Bool := max 1 th.sharedTerms ≤ count

end Thresholds

end DesignRecords
