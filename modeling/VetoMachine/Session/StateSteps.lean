import VetoMachine.Session.Step

/-!
# Working on a single state

A list of steps that edit, read and compare one state.  A copy of the state can be kept and gone back to.
-/

namespace VetoMachine.Session

/-- A step on a state. -/
inductive StateStep where
  | edit (e : State.Edit)
  | target (action : String)
  | json
  | save
  /-- Goes back to the copy kept, if there is one. -/
  | restore
  | equalsSaved
  | equals (source : StateSource)
  | readsBack
  | unknown

/-- The answer to a step on a state. -/
inductive StateReply where
  | nothing
  | bool (b : Bool)
  | target (t : Option String)
  | json (j : Json)
  | edited (r : State.EditReply)
  | badState (fault : Json.Fault)
  | problem (p : Problem)

/-- A state and the copy kept of it. -/
structure StateDesk where
  state : State
  saved : Option State

namespace StateDesk

def step (d : StateDesk) : StateStep → StateReply × StateDesk
  | .edit e => let (r, state) := d.state.edit e; (.edited r, { d with state })
  | .target action => (.target (d.state.target? action), d)
  | .json => (.json d.state.toJson, d)
  | .save => (.nothing, { d with saved := some d.state })
  | .restore => (.nothing, { d with state := d.saved.getD d.state })
  | .equalsSaved => (.bool (d.saved = some d.state), d)
  | .equals source =>
    match source.state with
    | .ok other => (.bool (d.state = other), d)
    | .error fault => (.badState fault, d)
  | .readsBack => (.bool d.state.readsBack, d)
  | .unknown => (.problem .unknownStep, d)

/-- Carries out steps one after the other; every answer comes with the number of bound actions after the step. -/
def run : List StateStep → StateDesk → List (StateReply × Nat) × State
  | [], d => ([], d.state)
  | s :: rest, d =>
    let (reply, d) := d.step s
    let (replies, state) := run rest d
    ((reply, d.state.count) :: replies, state)

end StateDesk

end VetoMachine.Session
