/-!
# Exit codes

A run ends clean, with failures or with an error, and the worst of what happened counts.
-/

namespace ColonGap

/-- How a run ends. -/
inductive Exit where
  | clean
  | failures
  | error
deriving DecidableEq, Repr

namespace Exit

/-- The exit code. -/
def code : Exit → Nat
  | clean => 0
  | failures => 1
  | error => 2

/-- The worse of two ends. -/
def worse (a b : Exit) : Exit :=
  if a.code ≤ b.code then b else a

end Exit

end ColonGap
