import Scriptlet.Text.Joining

/-!
# Cluster: characters that are seen as one

A cluster is a character with all that joins it: marks, the parts of a Hangul syllable, the two
halves of a flag, pictographs held together by joiners. Where a cluster ends depends on what it ends
with so far.
-/

namespace Scriptlet

/-- What a cluster ends with so far. -/
inductive ClusterEnd where
  | carriageReturn | control | leading
  | consonant
  /-- A vowel, or a syllable without a last consonant. -/
  | vowel
  /-- A last consonant, or a syllable with one. -/
  | finalConsonant
  /-- A pictograph, perhaps with marks. -/
  | pictographic
  /-- A pictograph and a joiner. -/
  | joinedPictographic
  /-- Half a flag. -/
  | halfFlag
  | other
deriving DecidableEq, Repr

namespace ClusterEnd

/-- What a cluster that starts with a character ends with. -/
def start : Joining → ClusterEnd
  | .carriageReturn => .carriageReturn
  | .lineFeed | .control => .control
  | .leading => .leading
  | .consonant => .consonant
  | .vowel | .openSyllable => .vowel
  | .finalConsonant | .closedSyllable => .finalConsonant
  | .pictographic => .pictographic
  | .regional => .halfFlag
  | .extending | .joiner | .spacing | .other => .other

/-- What the cluster ends with after one more character; none if the character starts the next. -/
def extend? : ClusterEnd → Joining → Option ClusterEnd
  | .carriageReturn, .lineFeed => some .control
  | .carriageReturn, _ | .control, _ => none
  | _, .carriageReturn | _, .lineFeed | _, .control => none
  | .leading, j => some (start j)
  | .pictographic, .extending => some .pictographic
  | .pictographic, .joiner => some .joinedPictographic
  | _, .extending | _, .joiner | _, .spacing => some .other
  | .joinedPictographic, .pictographic => some .pictographic
  | .halfFlag, .regional => some .other
  | .consonant, .consonant => some .consonant
  | .consonant, .vowel | .consonant, .openSyllable => some .vowel
  | .consonant, .closedSyllable => some .finalConsonant
  | .vowel, .vowel => some .vowel
  | .vowel, .finalConsonant => some .finalConsonant
  | .finalConsonant, .finalConsonant => some .finalConsonant
  | _, _ => none

/-- How many of the characters belong to a cluster that ends this way so far. -/
def reach : ClusterEnd → List Char → Nat
  | _, [] => 0
  | e, c :: rest =>
    match e.extend? (joining c) with
    | some e => 1 + reach e rest
    | none => 0

end ClusterEnd
end Scriptlet
