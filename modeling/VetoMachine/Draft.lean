import VetoMachine.State

/-!
# Drafts

A draft is a state under construction: its events are set and its transitions added one at a time.  Of several
transitions for one action the first counts once the state is made (`Draft.state`).
-/

namespace VetoMachine

/-- A state under construction. -/
structure Draft where
  name : String
  entering : Option String
  exiting : Option String
  changed : Option String
  /-- The transitions in the order in which they were added. -/
  transitions : List (String × String)
deriving DecidableEq

namespace Draft

def new (name : String) : Draft := ⟨name, none, none, none, []⟩

def withEntering (d : Draft) (event : String) : Draft := { d with entering := some event }

def withExiting (d : Draft) (event : String) : Draft := { d with exiting := some event }

def withChanged (d : Draft) (event : String) : Draft := { d with changed := some event }

def withTransition (d : Draft) (action target : String) : Draft :=
  { d with transitions := d.transitions ++ [(action, target)] }

/-- The state that a draft makes. -/
def state (d : Draft) : State := State.defineAll ⟨d.name, d.entering, d.exiting, d.changed, ∅⟩ d.transitions

end Draft

end VetoMachine
