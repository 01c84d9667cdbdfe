import EventScript.Text.Alphabetic
import EventScript.Text.Blank
import EventScript.Text.CaseMapping
import EventScript.Text.Position
import EventScript.Text.Quoted
import EventScript.Decimal.Layout
import EventScript.Value.Arithmetic
import EventScript.Token.Scan
import EventScript.Globals.Place
import EventScript.Rehearsal.Session
import EventScript.Rehearsal.Tally
import EventScript.Trigger.Activation
import EventScript.Extension.Loading
import EventScript.Settings.Text
import EventScript.Proofs.Parse.Ending
import EventScript.Proofs.Parse.Progress
import EventScript.Proofs.Parse.Reading
import EventScript.Proofs.Script.Places
import EventScript.Proofs.Script.Steps
import EventScript.Proofs.Script.Written
import EventScript.Proofs.Parse.Expressions
import EventScript.Proofs.Parse.Statements
import EventScript.Proofs.Text.Runs
import EventScript.Proofs.Token.Spelling
import EventScript.Proofs.Token.Spacing
import EventScript.Proofs.Parse.RoundTrip
import EventScript.Proofs.Script.Nodes
import EventScript.Proofs.Script.Grammar
import EventScript.Proofs.Script.Located
import EventScript.Proofs.Script.Stretches
import EventScript.Proofs.Parse.Located
import EventScript.Proofs.Parse.Derivation
import EventScript.Proofs.Script.Ways
import EventScript.Proofs.Parse.Nesting
import EventScript.Proofs.Parse.Placeholders
import EventScript.Proofs.Token.Joining
import EventScript.Proofs.Parse.Lockstep
import EventScript.Proofs.Parse.Joining
import EventScript.Proofs.Run.Linked
import EventScript.Proofs.Run.Paired
import EventScript.Proofs.Run.Basic
import EventScript.Proofs.Run.Watched
import EventScript.Proofs.Run.Cut
import EventScript.Proofs.Script.Loops
import EventScript.Proofs.Run.Traced
import EventScript.Proofs.Run.Signals
import EventScript.Proofs.Run.Moments
import EventScript.Proofs.Run.Order
import EventScript.Proofs.Run.Passes
import EventScript.Proofs.Run.Counting
import EventScript.Proofs.Trigger.Queues
import EventScript.Proofs.Trigger.Basic
import EventScript.Proofs.Trigger.Alike
import EventScript.Proofs.Trigger.Calls
import EventScript.Proofs.Trigger.Inlining
import EventScript.Proofs.Trigger.Outlook
import EventScript.Proofs.Trigger.Gates
import EventScript.Proofs.Trigger.Alongside
import EventScript.Proofs.Trigger.Graceful
import EventScript.Proofs.Run.Regimes
import EventScript.Proofs.Trigger.Diary
import EventScript.Proofs.Trigger.Onward
import EventScript.Proofs.Trigger.Cancellation
import EventScript.Proofs.Trigger.Timesheets
import EventScript.Proofs.Trigger.Deadlines
import EventScript.Proofs.Trigger.Cooldowns
import EventScript.Proofs.Trigger.Tables
import EventScript.Proofs.Files.Entries
import EventScript.Proofs.Files.Paths
import EventScript.Proofs.Files.Changes
import EventScript.Proofs.Globals.Contents
import EventScript.Proofs.Globals.Reference
import EventScript.Proofs.Threads.Updates
import EventScript.Proofs.Threads.Basic
import EventScript.Proofs.Threads.Stations
import EventScript.Proofs.Threads.Duality
import EventScript.Proofs.Threads.Ledger
import EventScript.Proofs.Threads.Phases
import EventScript.Proofs.Threads.Variables
import EventScript.Proofs.Threads.Ticks
import EventScript.Proofs.Threads.Cooldowns
import EventScript.Proofs.Threads.Scripts
import EventScript.Proofs.Threads.Activations
import EventScript.Proofs.Threads.Operations
import EventScript.Proofs.Threads.Depth
import EventScript.Proofs.Threads.Crew
import EventScript.Proofs.Threads.Tallies
import EventScript.Proofs.Threads.Exchange
import EventScript.Proofs.Trigger.Termination
import EventScript.Proofs.Trigger.Mentions
import EventScript.Proofs.Globals.Closing
import EventScript.Proofs.Json.RoundTrip
import EventScript.Proofs.Globals.Rereading
import EventScript.Proofs.Globals.Nulls
import EventScript.Proofs.Globals.Sharing
import EventScript.Proofs.Files.Listings
import EventScript.Proofs.Trigger.Naming
import EventScript.Proofs.Trigger.Loading
import EventScript.Proofs.Files.Collecting
import EventScript.Proofs.Trigger.Directories
import EventScript.Proofs.Extension.Interrupted
import EventScript.Proofs.Value.Integers
import EventScript.Proofs.Decimal.Ordinal
import EventScript.Proofs.Value.Comparison
import EventScript.Proofs.Token.Lexemes
import EventScript.Proofs.Parse.Places
import EventScript.Proofs.Parse.Discipline
import EventScript.Proofs.Text.Search
import EventScript.Proofs.Text.Folding
import EventScript.Proofs.Text.Cases
import EventScript.Proofs.Registries
import EventScript.Proofs.Parse.Words
import EventScript.Proofs.Trigger.Spellings
