/-
# Protected files

Patterns say which files are never deleted: those in whose names one of them is found.
-/

import ClusterSync.Failure

namespace ClusterSync

/-- The patterns of protected files. -/
structure Protection where
  patterns : List Pattern := []

namespace Protection

/-- Reads the patterns; the first that cannot be read is the fault. -/
def ofTexts (texts : List String) : Except ConfigFault Protection := do
  return ⟨← texts.mapM Pattern.ofConfig⟩

/-- How many patterns there are. -/
def size (p : Protection) : Nat := p.patterns.length

/-- Is a file of this name never deleted? -/
def covers (p : Protection) (file : String) : Bool := p.patterns.any (·.isIn file)

end Protection
end ClusterSync
