/-! # Version -/

namespace AffineSwarm

/-- The version of the swarm's frames, ledgers and settings. -/
def version : String := "0.1.0"

end AffineSwarm
