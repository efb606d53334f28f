import TypedConfig.Command.Basic
import TypedConfig.Command.Invocation
import TypedConfig.Command.Report
import TypedConfig.Construct.Blueprint
import TypedConfig.Construct.Builtin.Collections
import TypedConfig.Construct.Builtin.Files
import TypedConfig.Construct.Builtin.Runnables
import TypedConfig.Construct.Builtin.System
import TypedConfig.Construct.Builtin.Texts
import TypedConfig.Construct.Engine
import TypedConfig.Construct.Error
import TypedConfig.Construct.Samples
import TypedConfig.Construct.Shortcuts
import TypedConfig.Construct.Standard
import TypedConfig.Construct.Validation
import TypedConfig.Decimal.Binary
import TypedConfig.Decimal.Notation
import TypedConfig.Decimal.Shortest
import TypedConfig.Entries
import TypedConfig.File.Path
import TypedConfig.File.Resources
import TypedConfig.File.Tree
import TypedConfig.Kind
import TypedConfig.Libraries.Basic
import TypedConfig.Libraries.Own
import TypedConfig.Load.Basic
import TypedConfig.Load.Error
import TypedConfig.Load.Evaluate
import TypedConfig.Machine
import TypedConfig.Main
import TypedConfig.Net.Address
import TypedConfig.Net.Host
import TypedConfig.Net.Percent
import TypedConfig.Net.Punycode
import TypedConfig.Net.Url
import TypedConfig.Pattern.Basic
import TypedConfig.Pattern.Classes
import TypedConfig.Pattern.Reader
import TypedConfig.Run.Error
import TypedConfig.Run.Launch
import TypedConfig.Run.Object
import TypedConfig.Run.Process
import TypedConfig.Run.Program
import TypedConfig.Run.Shell
import TypedConfig.Source.Position
import TypedConfig.Source.Span
import TypedConfig.Store.Basic
import TypedConfig.Store.Event
import TypedConfig.Store.Reading
import TypedConfig.Store.Views
import TypedConfig.Syntax.Parser
import TypedConfig.Syntax.Tree
import TypedConfig.Text.Blank
import TypedConfig.Text.Decoding
import TypedConfig.Text.Split
import TypedConfig.TimeZone
import TypedConfig.Token.Basic
import TypedConfig.Token.Lexer
import TypedConfig.Token.Number
import TypedConfig.Token.Quoted
import TypedConfig.Value.Basic
import TypedConfig.Value.Coercion
import TypedConfig.Value.Equality
import TypedConfig.Proofs.Simulation
import TypedConfig.Proofs.Position
import TypedConfig.Proofs.Relocation
import TypedConfig.Proofs.Scanning
import TypedConfig.Proofs.ParseJoined
import TypedConfig.Proofs.Grammar
import TypedConfig.Proofs.TokensRead
import TypedConfig.Proofs.RunRelocated
import TypedConfig.Proofs.LoadJoined
import TypedConfig.Proofs.Shallow
import TypedConfig.Proofs.Levels
import TypedConfig.Proofs.Inlining
import TypedConfig.Proofs.Walk
import TypedConfig.Proofs.Chain
import TypedConfig.Proofs.Building
import TypedConfig.Proofs.Homogeneous
import TypedConfig.Proofs.HomogeneousTypes
import TypedConfig.Proofs.StoreInvariants
import TypedConfig.Proofs.Constructions
import TypedConfig.Proofs.Untouched
import TypedConfig.Proofs.Flattening
import TypedConfig.Proofs.HomogeneousStores
import TypedConfig.Proofs.Places
import TypedConfig.Proofs.Failure
import TypedConfig.Proofs.Offending
import TypedConfig.Proofs.ValidStores
import TypedConfig.Proofs.Guards
import TypedConfig.Proofs.GuardedTypes
import TypedConfig.Proofs.Numerals
import TypedConfig.Proofs.Writing
import TypedConfig.Proofs.Requests
import TypedConfig.Proofs.Observation
import TypedConfig.Proofs.Calls
import TypedConfig.Proofs.Reports
import TypedConfig.Proofs.Scopes
import TypedConfig.Proofs.Coercions
import TypedConfig.Proofs.Reachable
import TypedConfig.Proofs.StoreViews
import TypedConfig.Proofs.SelfEntry
import TypedConfig.Proofs.TypeCalls
import TypedConfig.Proofs.Widening
import TypedConfig.Proofs.Words
import TypedConfig.Proofs.Escapes
import TypedConfig.Proofs.Coverage
import TypedConfig.Proofs.LineCounting
import TypedConfig.Proofs.TreeSpans
import TypedConfig.Proofs.Independence
import TypedConfig.Proofs.Definedness
import TypedConfig.Proofs.ObjectReads
import TypedConfig.Proofs.LockFaces
import TypedConfig.Proofs.Products
import TypedConfig.Proofs.SetOperations
import TypedConfig.Proofs.Splitting
import TypedConfig.Proofs.JoinedArrays
import TypedConfig.Proofs.ShortcutLines
import TypedConfig.Proofs.ParallelRuns
import TypedConfig.Proofs.ItemStores
import TypedConfig.Proofs.ValueEquality
