import Workgraph.Graph.Survey
import Workgraph.Node.Standard
import Workgraph.Run.Config
import Workgraph.Workflow.Compile
import Workgraph.Proofs.Graph.Distinct
import Workgraph.Proofs.Graph.Endpoint
import Workgraph.Proofs.Workflow.Compiled
import Workgraph.Proofs.Workflow.Neighbours
import Workgraph.Proofs.Workflow.Reachability
import Workgraph.Proofs.Run.Move
import Workgraph.Proofs.Run.Ending
import Workgraph.Proofs.Run.Alike
import Workgraph.Proofs.Run.Recording
import Workgraph.Proofs.Run.Routing
import Workgraph.Proofs.Run.Conservation
import Workgraph.Proofs.Run.Step
import Workgraph.Proofs.Run.Writing
import Workgraph.Proofs.Run.Levels
import Workgraph.Proofs.Checkpoint.Fresh
import Workgraph.Proofs.Checkpoint.Saving
import Workgraph.Proofs.Run.Joins
import Workgraph.Proofs.State.Whole
import Workgraph.Proofs.Run.Travel
import Workgraph.Proofs.Run.Steady
import Workgraph.Proofs.Run.Thread
import Workgraph.Proofs.Run.Resumption
import Workgraph.Proofs.Conversation.Transcript
import Workgraph.Proofs.Node.Made
import Workgraph.Proofs.Node.Silent
import Workgraph.Proofs.Agent.Exchange
import Workgraph.Proofs.Run.States
import Workgraph.Proofs.Agent.History
import Workgraph.Proofs.Run.Lineage
import Workgraph.Proofs.Run.Failure
import Workgraph.Proofs.Run.Destinations
import Workgraph.Proofs.Run.Concurrency
import Workgraph.Proofs.Workflow.Channels
import Workgraph.Proofs.Run.Ownership
import Workgraph.Proofs.Checkpoint.Links
import Workgraph.Proofs.Checkpoint.Forks
import Workgraph.Proofs.Run.Interleaving
import Workgraph.Proofs.Agent.Permission
import Workgraph.Proofs.Run.Acceptance
import Workgraph.Proofs.Checkpoint.Keys
import Workgraph.Proofs.State.Commuting
import Workgraph.Proofs.Node.Functional
import Workgraph.Proofs.Graph.Reordering
import Workgraph.Proofs.Node.Reordering
import Workgraph.Proofs.Workflow.Reordering
import Workgraph.Proofs.Workflow.WellFormed
import Workgraph.Proofs.Workflow.Mirrored
import Workgraph.Proofs.Workflow.Functional
import Workgraph.Proofs.Run.Answers
import Workgraph.Proofs.Run.Reordering
import Workgraph.Proofs.Run.Transfers
import Workgraph.Proofs.Json.Values
import Workgraph.Proofs.Json.Numerals
import Workgraph.Proofs.Json.Strings
import Workgraph.Proofs.Json.Texts
import Workgraph.Proofs.Json.Decoding
import Workgraph.Proofs.Json.Records
import Workgraph.Proofs.Run.Versions
import Workgraph.Proofs.Checkpoint.Written
import Workgraph.Proofs.Checkpoint.Kept
import Workgraph.Proofs.Checkpoint.Agreement
import Workgraph.Proofs.Run.Stored
import Workgraph.Proofs.Run.Announced
import Workgraph.Proofs.Run.Stream
import Workgraph.Proofs.Run.Session
import Workgraph.Proofs.Run.Admission
import Workgraph.Proofs.Run.Seclusion
import Workgraph.Proofs.Run.Independence
import Workgraph.Proofs.Workflow.Holding
import Workgraph.Proofs.Graph.Written
import Workgraph.Proofs.Event.Delivery
import Workgraph.Proofs.Agent.Passing
import Workgraph.Proofs.Run.Budget
import Workgraph.Proofs.Run.Cancellation
import Workgraph.Proofs.Agent.Iterations
import Workgraph.Proofs.Node.Elements
import Workgraph.Proofs.State.Selectors
import Workgraph.Proofs.State.Fields
import Workgraph.Proofs.Workflow.Navigation
import Workgraph.Proofs.Node.Branches
import Workgraph.Proofs.Node.Errors
import Workgraph.Proofs.Node.ListQueries
import Workgraph.Proofs.Json.Equality
import Workgraph.Proofs.State.Writes
import Workgraph.Proofs.Agent.Attachments
import Workgraph.Proofs.Text.Templates
import Workgraph.Proofs.Graph.Violations
import Workgraph.Proofs.Node.FirstValues
import Workgraph.Proofs.Agent.Speech
