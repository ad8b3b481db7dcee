import Wiring.Literal
import Wiring.Builtin.Members
import Wiring.Hint.Basic
import Wiring.Hint.Equality
import Wiring.Hint.Formation
import Wiring.Hint.Substitution
import Wiring.Class.Member
import Wiring.Class.Basic
import Wiring.Class.Linearization
import Wiring.Hint.Written
import Wiring.Class.Subclass
import Wiring.Generic
import Wiring.Matching
import Wiring.Hint.Description
import Wiring.Request
import Wiring.Class.Application
import Wiring.Class.Definition
import Wiring.Candidate
import Wiring.Class.Declaration
import Wiring.Class.Constructors
import Wiring.Entries
import Wiring.Object.Attribute
import Wiring.Object.Instance
import Wiring.Registry.Basic
import Wiring.Registry.Resolution
import Wiring.Registry.Selection
import Wiring.Object.Access
import Wiring.Object.Creation
import Wiring.Call.Arguments
import Wiring.Call.Invocation
import Wiring.Container
import Wiring.Registration
import Wiring.Number.Binary
import Wiring.Number.Shortest
import Wiring.Number.Reading
import Wiring.Text.Compatible
import Wiring.Class.Layout
import Wiring.Class.Lookup
import Wiring.Class.Standard
import Wiring.Call.Conversion
import Wiring.Proofs.Outcome
import Wiring.Proofs.Entries
import Wiring.Proofs.Class.WellFormed
import Wiring.Proofs.Class.Points
import Wiring.Proofs.Hint.Agreement
import Wiring.Proofs.Registry.Resolution
import Wiring.Proofs.Registry.Separation
import Wiring.Proofs.Registry.Selection
import Wiring.Proofs.Run
import Wiring.Proofs.Object.Seat
import Wiring.Proofs.Object.Access
import Wiring.Proofs.Injection.Rollback
import Wiring.Proofs.Injection.Ambiguity
import Wiring.Proofs.Registry.Growth
import Wiring.Proofs.Object.Keeping
import Wiring.Proofs.Container
import Wiring.Proofs.Registry.History
import Wiring.Proofs.Operations
import Wiring.Proofs.Registry.Identity
import Wiring.Proofs.Registry.Collection
import Wiring.Proofs.Call.Binding
import Wiring.Proofs.Class.Construction
import Wiring.Proofs.Registry.Fallback
import Wiring.Proofs.Registry.Packaging
import Wiring.Proofs.Registry.Reordering
import Wiring.Proofs.Injection.Planning
import Wiring.Proofs.Creation.Caches
import Wiring.Proofs.Registry.Dependencies
import Wiring.Proofs.Injection.Gathering
import Wiring.Proofs.Creation.Records
import Wiring.Proofs.Registry.Returns
import Wiring.Proofs.Registry.Consistency
import Wiring.Proofs.Registry.Refusal
import Wiring.Proofs.Hint.Reflexivity
import Wiring.Proofs.Class.Ancestry
import Wiring.Proofs.Class.Chains
import Wiring.Proofs.Injection.Steps
import Wiring.Proofs.Injection.Explicit
import Wiring.Proofs.Creation.Errors
import Wiring.Proofs.Hint.Wrapping
import Wiring.Proofs.Hint.Invariance
import Wiring.Proofs.Hint.Interchange
import Wiring.Proofs.Class.Lineage
import Wiring.Proofs.Registry.Reception
import Wiring.Proofs.Injection.Handles
import Wiring.Proofs.Injection.Containers
import Wiring.Proofs.Class.Roots
import Wiring.Proofs.Registry.Steadiness
import Wiring.Proofs.Object.Carrying
import Wiring.Proofs.Injection.Fields
import Wiring.Proofs.Injection.Postcondition
import Wiring.Proofs.Registry.Relaxation
import Wiring.Proofs.Registry.Bounds
import Wiring.Proofs.Class.Initializers
import Wiring.Proofs.Class.Bodies
import Wiring.Proofs.Class.Suppression
