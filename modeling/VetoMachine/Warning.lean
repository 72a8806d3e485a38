import VetoMachine.Description.Violation

/-!
# Warnings

What a machine, a mailbox or a loader warns about.  A warning has a message and named details.
-/

namespace VetoMachine

/-- Something worth a warning. -/
inductive Warning where
  /-- A state was registered as initial while the machine has an initial state. -/
  | initialAlreadySet (state initial : String)
  /-- A machine with a current state was asked to start. -/
  | alreadyStarted (current requested : String)
  /-- A machine was asked to start at a state it does not have. -/
  | unregisteredStart (state : String)
  /-- An action is bound to a state that the machine does not have. -/
  | unregisteredTarget (state action target : String)
  /-- A machine was handed an action notification without a kind. -/
  | namelessAction
  /-- A mailbox received an action notification without a kind. -/
  | namelessActionDropped
  /-- A description was loaded although it is not sound. -/
  | unsound (violation : Violation)
  /-- A machine has no current state after a description was loaded into it. -/
  | notStarted (initial : String)
deriving DecidableEq

namespace Warning

def message : Warning → String
  | .initialAlreadySet _ _ => "initial state already set, ignoring initial flag"
  | .alreadyStarted _ _ => "machine already started"
  | .unregisteredStart _ => "cannot start at an unregistered state"
  | .unregisteredTarget _ _ _ => "transition target is not registered, ignoring action"
  | .namelessAction => "action notification without an action name"
  | .namelessActionDropped => "action notification without an action name, dropping"
  | .unsound _ => "loading description despite violation"
  | .notStarted _ => "machine has no current state after loading"

def details : Warning → List (String × String)
  | .initialAlreadySet state initial => [("state", state), ("initial", initial)]
  | .alreadyStarted current requested => [("current", current), ("requested", requested)]
  | .unregisteredStart state => [("state", state)]
  | .unregisteredTarget state action target => [("state", state), ("action", action), ("target", target)]
  | .namelessAction | .namelessActionDropped => []
  | .unsound violation => [("violation", violation.message)]
  | .notStarted initial => [("initial", initial)]

end Warning

end VetoMachine
