/-!
# Defects of a JSON text

## Main definitions

* `Defect`: the two ways in which a text is no JSON
-/

namespace ParseReplay.Json

/-- The two ways in which a text is no JSON. -/
inductive Defect where
  /-- It holds something that the grammar does not allow. -/
  | malformed
  /-- It ends where more is required. -/
  | truncated
deriving DecidableEq

end ParseReplay.Json
