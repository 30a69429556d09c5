import SemanticLayer.Main
import SemanticLayer.Schema.Json
import SemanticLayer.Proofs.Itinerary
import SemanticLayer.Proofs.Aliases
import SemanticLayer.Proofs.FairCopy
import SemanticLayer.Proofs.Readings
import SemanticLayer.Proofs.Nesting
import SemanticLayer.Proofs.Formation
import SemanticLayer.Proofs.JoinOrder
import SemanticLayer.Proofs.Ownership
import SemanticLayer.Proofs.Emission
import SemanticLayer.Proofs.Lookup
import SemanticLayer.Proofs.Ingestion
import SemanticLayer.Proofs.Outcomes
import SemanticLayer.Proofs.Compilation
import SemanticLayer.Proofs.Grouping
import SemanticLayer.Proofs.Links
import SemanticLayer.Proofs.Ambiguity
import SemanticLayer.Proofs.Bindings
import SemanticLayer.Proofs.Narrowing
import SemanticLayer.Proofs.Followed
import SemanticLayer.Proofs.Tags
import SemanticLayer.Proofs.Aggregation
import SemanticLayer.Proofs.Staging
import SemanticLayer.Proofs.Collisions
import SemanticLayer.Proofs.Replay
import SemanticLayer.Proofs.KeyConditions
import SemanticLayer.Proofs.Rendering
import SemanticLayer.Proofs.Relabelling
import SemanticLayer.Proofs.Reordering
import SemanticLayer.Proofs.Allocation
import SemanticLayer.Proofs.Interleaving
import SemanticLayer.Proofs.Registry
import SemanticLayer.Proofs.Operations
import SemanticLayer.Proofs.Termination
import SemanticLayer.Proofs.Walking
import SemanticLayer.Proofs.Scoping
import SemanticLayer.Proofs.Readability
import SemanticLayer.Proofs.Editing
import SemanticLayer.Proofs.Descriptors
import SemanticLayer.Proofs.Latching
import SemanticLayer.Proofs.FormulaTyping
import SemanticLayer.Proofs.Inlining
import SemanticLayer.Proofs.Exchange
import SemanticLayer.Proofs.Bracketing
import SemanticLayer.Proofs.Linking
import SemanticLayer.Proofs.Sharing
import SemanticLayer.Proofs.ForeignKeys
import SemanticLayer.Proofs.Listing
import SemanticLayer.Proofs.Expansion
