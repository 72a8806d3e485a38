import VetoMachine.Session
import VetoMachine.Session.StateSteps
import VetoMachine.Proofs.ObjectMachine
import VetoMachine.Proofs.Registry
import VetoMachine.Proofs.Flags
import VetoMachine.Proofs.Journal
import VetoMachine.Proofs.Protocol
import VetoMachine.Proofs.Invariant
import VetoMachine.Proofs.Representation
import VetoMachine.Proofs.Delivery
import VetoMachine.Proofs.Account
import VetoMachine.Proofs.Seats
import VetoMachine.Proofs.Sessions
import VetoMachine.Proofs.Course
import VetoMachine.Proofs.VetoWindows
import VetoMachine.Proofs.Announcements
import VetoMachine.Proofs.StaleCancel
import VetoMachine.Proofs.Deeds
import VetoMachine.Proofs.Consistency
import VetoMachine.Proofs.Registrations
import VetoMachine.Proofs.Life
import VetoMachine.Proofs.Movement
import VetoMachine.Proofs.JsonOutlines
import VetoMachine.Proofs.StateText
import VetoMachine.Proofs.Attempts
import VetoMachine.Proofs.Replay
import VetoMachine.Proofs.Loaders
import VetoMachine.Proofs.SoundDescriptions
import VetoMachine.Proofs.Buses
import VetoMachine.Proofs.Nesting
import VetoMachine.Proofs.Snapshots
import VetoMachine.Proofs.Drains
import VetoMachine.Proofs.Connections
import VetoMachine.Proofs.Attendance
import VetoMachine.Proofs.Bystanders
import VetoMachine.Proofs.Routes
import VetoMachine.Proofs.Assemblies
import VetoMachine.Proofs.LoaderHistory
import VetoMachine.Proofs.DescriptionTexts
import VetoMachine.Proofs.RoundTrips
import VetoMachine.Proofs.InitialRole
import VetoMachine.Proofs.Violations
import VetoMachine.Proofs.Populating
import VetoMachine.Proofs.Errands
import VetoMachine.Proofs.Twins
import VetoMachine.Proofs.DefinitionOrder
import VetoMachine.Proofs.RecentLog
import VetoMachine.Proofs.SubscriptionTable
import VetoMachine.Proofs.DroppedMailboxes
import VetoMachine.Proofs.TransitionTable
