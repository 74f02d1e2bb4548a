import MethodFlow.AccessFlags
import MethodFlow.Analysis.Analyzer
import MethodFlow.Analysis.Event
import MethodFlow.Analysis.Flow
import MethodFlow.Analysis.Reach
import MethodFlow.Analysis.Solver
import MethodFlow.Analysis.StackMap
import MethodFlow.Analysis.State
import MethodFlow.Analysis.Subroutine
import MethodFlow.Code.Branch
import MethodFlow.Code.Builder
import MethodFlow.Code.Instruction
import MethodFlow.Code.Label
import MethodFlow.Code.Method
import MethodFlow.Code.Node
import MethodFlow.Code.Shown
import MethodFlow.CommandLine
import MethodFlow.Decimal.Binary
import MethodFlow.Decimal.Notation
import MethodFlow.Decimal.Reader
import MethodFlow.Decimal.Shortest
import MethodFlow.Descriptor.Basic
import MethodFlow.Descriptor.Reader
import MethodFlow.Domain.Basic
import MethodFlow.Domain.OperandCheck
import MethodFlow.Domain.Provenance
import MethodFlow.Domain.Typing
import MethodFlow.Domain.ValueKind
import MethodFlow.Domain.VerificationType
import MethodFlow.Fault
import MethodFlow.Frame.Basic
import MethodFlow.Frame.Execute
import MethodFlow.Hierarchy.ClassGraph
import MethodFlow.Hierarchy.Library
import MethodFlow.Hierarchy.TypeHierarchy
import MethodFlow.Listing.Fault
import MethodFlow.Listing.Instruction
import MethodFlow.Listing.Mnemonic
import MethodFlow.Listing.Operand
import MethodFlow.Listing.Reader
import MethodFlow.Main
import MethodFlow.Name
import MethodFlow.Proofs.Analysis.Addressing
import MethodFlow.Proofs.Analysis.Agreement
import MethodFlow.Proofs.Analysis.CallSites
import MethodFlow.Proofs.Analysis.Certification
import MethodFlow.Proofs.Analysis.Checking
import MethodFlow.Proofs.Analysis.Climbing
import MethodFlow.Proofs.Analysis.Closing
import MethodFlow.Proofs.Analysis.Completeness
import MethodFlow.Proofs.Analysis.DeadCode
import MethodFlow.Proofs.Analysis.Definitions
import MethodFlow.Proofs.Analysis.Enclosure
import MethodFlow.Proofs.Analysis.Evaluation
import MethodFlow.Proofs.Analysis.Extension
import MethodFlow.Proofs.Analysis.Falling
import MethodFlow.Proofs.Analysis.FixedPoint
import MethodFlow.Proofs.Analysis.Growth
import MethodFlow.Proofs.Analysis.Heights
import MethodFlow.Proofs.Analysis.Insertion
import MethodFlow.Proofs.Analysis.Limits
import MethodFlow.Proofs.Analysis.Lockstep
import MethodFlow.Proofs.Analysis.Marking
import MethodFlow.Proofs.Analysis.Measure
import MethodFlow.Proofs.Analysis.Merging
import MethodFlow.Proofs.Analysis.Mirroring
import MethodFlow.Proofs.Analysis.Origins
import MethodFlow.Proofs.Analysis.Peak
import MethodFlow.Proofs.Analysis.Preparation
import MethodFlow.Proofs.Analysis.Processing
import MethodFlow.Proofs.Analysis.Progress
import MethodFlow.Proofs.Analysis.Raising
import MethodFlow.Proofs.Analysis.Reachability
import MethodFlow.Proofs.Analysis.Recording
import MethodFlow.Proofs.Analysis.Records
import MethodFlow.Proofs.Analysis.Remerging
import MethodFlow.Proofs.Analysis.Returning
import MethodFlow.Proofs.Analysis.Running
import MethodFlow.Proofs.Analysis.Separation
import MethodFlow.Proofs.Analysis.Shaping
import MethodFlow.Proofs.Analysis.Stability
import MethodFlow.Proofs.Analysis.Stages
import MethodFlow.Proofs.Analysis.Steadiness
import MethodFlow.Proofs.Analysis.Stopping
import MethodFlow.Proofs.Analysis.Sufficiency
import MethodFlow.Proofs.Analysis.Termination
import MethodFlow.Proofs.Analysis.Usage
import MethodFlow.Proofs.Analysis.Values
import MethodFlow.Proofs.Analysis.Wholeness
import MethodFlow.Proofs.Code.Failing
import MethodFlow.Proofs.Code.Insertion
import MethodFlow.Proofs.Code.Labelling
import MethodFlow.Proofs.Code.Names
import MethodFlow.Proofs.Code.Resolution
import MethodFlow.Proofs.Code.Retargeting
import MethodFlow.Proofs.Code.Subroutines
import MethodFlow.Proofs.Decimal.Reading
import MethodFlow.Proofs.Decimal.Rounding
import MethodFlow.Proofs.Descriptor.Names
import MethodFlow.Proofs.Descriptor.RoundTrip
import MethodFlow.Proofs.Domain.Addressing
import MethodFlow.Proofs.Domain.Assignability
import MethodFlow.Proofs.Domain.Checking
import MethodFlow.Proofs.Domain.Effects
import MethodFlow.Proofs.Domain.Extension
import MethodFlow.Proofs.Domain.Failing
import MethodFlow.Proofs.Domain.Grading
import MethodFlow.Proofs.Domain.Height
import MethodFlow.Proofs.Domain.Joining
import MethodFlow.Proofs.Domain.Kinds
import MethodFlow.Proofs.Domain.Lowering
import MethodFlow.Proofs.Domain.Meeting
import MethodFlow.Proofs.Domain.Outlining
import MethodFlow.Proofs.Domain.Pairing
import MethodFlow.Proofs.Domain.ReferenceMerging
import MethodFlow.Proofs.Domain.Refinement
import MethodFlow.Proofs.Domain.Regrouping
import MethodFlow.Proofs.Domain.Subtyping
import MethodFlow.Proofs.Domain.Weakening
import MethodFlow.Proofs.Failing
import MethodFlow.Proofs.Frame.Absorption
import MethodFlow.Proofs.Frame.Arity
import MethodFlow.Proofs.Frame.Bounding
import MethodFlow.Proofs.Frame.Execution
import MethodFlow.Proofs.Frame.Fading
import MethodFlow.Proofs.Frame.Failing
import MethodFlow.Proofs.Frame.Locals
import MethodFlow.Proofs.Frame.Mirroring
import MethodFlow.Proofs.Frame.Operations
import MethodFlow.Proofs.Frame.Popping
import MethodFlow.Proofs.Frame.Shape
import MethodFlow.Proofs.Frame.Shuffles
import MethodFlow.Proofs.Frame.Simulation
import MethodFlow.Proofs.Frame.Slots
import MethodFlow.Proofs.Frame.Wholeness
import MethodFlow.Proofs.Frame.Widening
import MethodFlow.Proofs.Hierarchy.Ancestry
import MethodFlow.Proofs.Hierarchy.Extension
import MethodFlow.Proofs.Hierarchy.Search
import MethodFlow.Proofs.Hierarchy.WellFormed
import MethodFlow.Proofs.Listing.Bodies
import MethodFlow.Proofs.Listing.Comments
import MethodFlow.Proofs.Listing.Literals
import MethodFlow.Proofs.Listing.Mentions
import MethodFlow.Proofs.Listing.Names
import MethodFlow.Proofs.Listing.Numbers
import MethodFlow.Proofs.Listing.Operands
import MethodFlow.Proofs.Listing.References
import MethodFlow.Proofs.Listing.Refusing
import MethodFlow.Proofs.Listing.Sections
import MethodFlow.Proofs.Listing.Statements
import MethodFlow.Proofs.Listing.Steps
import MethodFlow.Proofs.Machine.Semantics
import MethodFlow.Proofs.Machine.Visiting
import MethodFlow.Proofs.Mirrors
import MethodFlow.Proofs.Placement
import MethodFlow.Proofs.StackMap.Decoding
import MethodFlow.Proofs.StackMap.Restoring
import MethodFlow.Proofs.Text.Commenting
import MethodFlow.Proofs.Text.Cutting
import MethodFlow.Proofs.Text.Joining
import MethodFlow.Proofs.Text.Numerals
import MethodFlow.Proofs.Text.Solidity
import MethodFlow.Proofs.Text.Wording
import MethodFlow.Report
import MethodFlow.Settings
import MethodFlow.SlotVec
import MethodFlow.Text.Blank
import MethodFlow.Text.Line
import MethodFlow.Text.Numeral
import MethodFlow.Text.Quoted
import MethodFlow.Text.Shown
import MethodFlow.Text.Unprinted
