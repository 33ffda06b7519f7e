import BoardFlash.Cancel
import BoardFlash.Main
import BoardFlash.Proofs.BoardList
import BoardFlash.Proofs.Bridge.Completion
import BoardFlash.Proofs.Bridge.Intake
import BoardFlash.Proofs.Bridge.Interruption
import BoardFlash.Proofs.Bridge.Line
import BoardFlash.Proofs.Bridge.Recovery
import BoardFlash.Proofs.Campaign.Sequence
import BoardFlash.Proofs.Cancel.History
import BoardFlash.Proofs.Console.Delivery
import BoardFlash.Proofs.Pipeline.OneInFlight
import BoardFlash.Proofs.Port
import BoardFlash.Proofs.Router.Conservation
import BoardFlash.Proofs.Router.Rotation
import BoardFlash.Proofs.Router.Routing
import BoardFlash.Proofs.Session.Cancellation
import BoardFlash.Proofs.Session.Counters
import BoardFlash.Proofs.Session.Deadline
import BoardFlash.Proofs.Session.Leftovers
import BoardFlash.Proofs.Session.Reference
import BoardFlash.Proofs.Session.Robustness
import BoardFlash.Proofs.Session.StopAndWait
import BoardFlash.Proofs.Session.Termination
import BoardFlash.Proofs.Station.Interrupt
import BoardFlash.Proofs.Wire.Burst
import BoardFlash.Proofs.Wire.Parity
import BoardFlash.Proofs.Wire.Remainder
import BoardFlash.Queue
import BoardFlash.Simulation.Board
import BoardFlash.Simulation.Bus
import BoardFlash.Simulation.Link
import BoardFlash.Simulation.Traffic
import BoardFlash.Simulation.Typing
import BoardFlash.Summary
import BoardFlash.Wire.UpdateRequest
