import ScriptHost.Main
import ScriptHost.Json.Reader
import ScriptHost.Proofs.Guard.Lockstep
import ScriptHost.Proofs.Computation
import ScriptHost.Proofs.Guard.Mentions
import ScriptHost.Proofs.Script.Readers
import ScriptHost.Proofs.Guard.Coverage
import ScriptHost.Proofs.Script.ExpressionSoundness
import ScriptHost.Proofs.Script.Soundness
import ScriptHost.Proofs.Supervision.Playing
import ScriptHost.Proofs.Script.Splitting
import ScriptHost.Proofs.Session.Edits
import ScriptHost.Proofs.Host.Within
import ScriptHost.Proofs.Host.Steps
import ScriptHost.Proofs.Host.Views
import ScriptHost.Proofs.Host.Alone
import ScriptHost.Proofs.Host.Fleet
import ScriptHost.Proofs.Host.Removals
import ScriptHost.Proofs.Host.Serializability
import ScriptHost.Proofs.Host.Serving
import ScriptHost.Proofs.Host.Units
import ScriptHost.Proofs.Host.Announcements
import ScriptHost.Proofs.Host.Changes
import ScriptHost.Proofs.Guard.Verdict
import ScriptHost.Proofs.Guard.Joining
import ScriptHost.Proofs.Guard.Spelling
import ScriptHost.Proofs.Guard.Places
import ScriptHost.Proofs.Guard.LetterCase
import ScriptHost.Proofs.Guard.Tightening
import ScriptHost.Proofs.Session.Idleness
import ScriptHost.Proofs.Session.Operations
import ScriptHost.Proofs.Session.Histories
import ScriptHost.Proofs.Session.Attachments
import ScriptHost.Proofs.Host.Tandem
import ScriptHost.Proofs.Host.Abreast
import ScriptHost.Proofs.Supervision.Agendas
import ScriptHost.Proofs.Host.Solitary
import ScriptHost.Proofs.Host.Leaving
import ScriptHost.Proofs.Host.Independence
import ScriptHost.Proofs.Supervision.Sampling
import ScriptHost.Proofs.Host.Endings
import ScriptHost.Proofs.Host.Approach
import ScriptHost.Proofs.Host.Beforehand
import ScriptHost.Proofs.Script.Printing
import ScriptHost.Proofs.Script.Written
import ScriptHost.Proofs.Script.Taking
import ScriptHost.Proofs.Script.Rereading
import ScriptHost.Proofs.Script.RoundTrip
import ScriptHost.Proofs.Host.Admission
import ScriptHost.Proofs.Host.Recording
import ScriptHost.Proofs.Host.Coherence
import ScriptHost.Proofs.Host.Foretelling
import ScriptHost.Proofs.Host.Curtailment
import ScriptHost.Proofs.Host.Naming
import ScriptHost.Proofs.Supervision.Queueing
import ScriptHost.Proofs.Package.Versions
import ScriptHost.Proofs.Package.Pinning
import ScriptHost.Proofs.Package.Answers
import ScriptHost.Proofs.Host.Entering
import ScriptHost.Proofs.Host.Reattaching
import ScriptHost.Proofs.Package.Libraries
import ScriptHost.Proofs.Script.Nesting
import ScriptHost.Proofs.Host.Progress
import ScriptHost.Proofs.Script.Segments
import ScriptHost.Proofs.Script.ExactEvaluation
import ScriptHost.Proofs.Script.Undefined
import ScriptHost.Proofs.Supervision.Capture
import ScriptHost.Proofs.Supervision.Lives
import ScriptHost.Proofs.Host.Launching
import ScriptHost.Proofs.Package.Specs
