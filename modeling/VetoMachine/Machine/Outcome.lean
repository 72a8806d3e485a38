/-!
# Outcomes

What became of an attempted transition.
-/

namespace VetoMachine

/-- What a machine did with an action. -/
inductive Outcome where
  /-- It moved to `target` and published its change. -/
  | committed (source : Option String) (target : String)
  /-- A listener vetoed while the exit event of `source` was published. -/
  | vetoedOnExit (source target : String)
  /-- A listener vetoed while the enter event of `target` was published; the exit event had gone out. -/
  | vetoedOnEnter (source : Option String) (target : String)
  | ignored
deriving DecidableEq, Inhabited

namespace Outcome

def isCommitted : Outcome → Bool
  | .committed _ _ => true
  | _ => false

def isVetoed : Outcome → Bool
  | .vetoedOnExit _ _ | .vetoedOnEnter _ _ => true
  | _ => false

end Outcome

end VetoMachine
