import PatternMachine.Engine
import PatternMachine.Program.Builder
import PatternMachine.Proofs.Trail
import PatternMachine.Proofs.Expression.Correctness
import PatternMachine.Proofs.Budget
import PatternMachine.Proofs.UndoLog
import PatternMachine.Proofs.Safety
import PatternMachine.Proofs.Answers
import PatternMachine.Proofs.Reuse
import PatternMachine.Proofs.Longest
import PatternMachine.Proofs.Nesting.Structured
import PatternMachine.Proofs.Refusal
import PatternMachine.Proofs.Horizon.Run
import PatternMachine.Proofs.Labels
import PatternMachine.Proofs.Subcalls
import PatternMachine.Proofs.Laps
import PatternMachine.Proofs.Operands
import PatternMachine.Proofs.Counting.Runs
import PatternMachine.Proofs.Exploration.Exploring
import PatternMachine.Proofs.Returns
import PatternMachine.Proofs.Marks
import PatternMachine.Proofs.EmptyIterations
import PatternMachine.Proofs.Watched
import PatternMachine.Proofs.Halting
import PatternMachine.Proofs.CheckedLoops
import PatternMachine.Proofs.Beneath
import PatternMachine.Proofs.NegativeAssertions
import PatternMachine.Proofs.Commitment
import PatternMachine.Proofs.References
import PatternMachine.Proofs.Relocation.Plans
import PatternMachine.Proofs.Relocation.Runs
import PatternMachine.Proofs.Relocation.StarLoop
import PatternMachine.Proofs.Padding.Stacks
import PatternMachine.Proofs.Padding.Stores
import PatternMachine.Proofs.WellFormed
import PatternMachine.Proofs.Stepping
import PatternMachine.Proofs.Encoded
import PatternMachine.Proofs.Boundaries.Text
import PatternMachine.Proofs.Boundaries.Run
import PatternMachine.Proofs.Padding.Plans
import PatternMachine.Proofs.Padding.Runs
import PatternMachine.Proofs.Padding.ByteSearch
import PatternMachine.Proofs.Padding.Peeking
import PatternMachine.Proofs.Padding.Branches
import PatternMachine.Proofs.Retracing
import PatternMachine.Proofs.Folding
import PatternMachine.Proofs.Instances
import PatternMachine.Proofs.FoldedLiterals
import PatternMachine.Proofs.Classes
import PatternMachine.Proofs.Assertions
import PatternMachine.Proofs.FailedBuilds
import PatternMachine.Proofs.EmptyMatches
import PatternMachine.Proofs.Coherence
import PatternMachine.Proofs.GroupSpans
