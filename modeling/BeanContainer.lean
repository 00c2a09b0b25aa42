import BeanContainer.Application
import BeanContainer.Bean
import BeanContainer.Binding
import BeanContainer.Binding.Schema
import BeanContainer.Binding.Target
import BeanContainer.Callable
import BeanContainer.Callable.Argument
import BeanContainer.CommandLine
import BeanContainer.Condition
import BeanContainer.Configuration
import BeanContainer.Configuration.Arguments
import BeanContainer.Configuration.Environment
import BeanContainer.Container
import BeanContainer.Container.Closing
import BeanContainer.Container.Context
import BeanContainer.Container.Injection
import BeanContainer.Container.Wiring
import BeanContainer.Document.Basic
import BeanContainer.Document.Reader
import BeanContainer.Duration
import BeanContainer.Entries
import BeanContainer.Fault
import BeanContainer.Injection.Point
import BeanContainer.Injection.Value
import BeanContainer.Key
import BeanContainer.Main
import BeanContainer.Number.Binary
import BeanContainer.Number.Decimal
import BeanContainer.Number.Elementary
import BeanContainer.Number.Reading
import BeanContainer.Predicate
import BeanContainer.Predicate.Evaluation
import BeanContainer.Predicate.Numeric
import BeanContainer.Predicate.Scalar
import BeanContainer.Predicate.Token
import BeanContainer.Predicate.Tree
import BeanContainer.Predicate.Value
import BeanContainer.Proofs.Condition
import BeanContainer.Proofs.Entries
import BeanContainer.Proofs.Registry.Lookup
import BeanContainer.Registry
import BeanContainer.Registry.Resolution
import BeanContainer.Selector
import BeanContainer.Store
import BeanContainer.Store.Expansion
import BeanContainer.Store.Node
import BeanContainer.Template
import BeanContainer.Text.Blank
import BeanContainer.Text.Case
import BeanContainer.Text.CaseTable
import BeanContainer.Text.Printable
import BeanContainer.Text.Quoted
import BeanContainer.Text.Ranges
import BeanContainer.Text.Shown
import BeanContainer.Proofs.Registry.Settling
import BeanContainer.Proofs.Registry.Resolution
import BeanContainer.Proofs.Container.Run
import BeanContainer.Proofs.Registry.Search
import BeanContainer.Proofs.Container.Demand
import BeanContainer.Proofs.Container.Supply
import BeanContainer.Proofs.Container.Fulfilment
import BeanContainer.Proofs.Container.Session
import BeanContainer.Proofs.Container.Making
import BeanContainer.Proofs.Container.Wiring
import BeanContainer.Proofs.Container.Refresh
import BeanContainer.Proofs.Container.Cycle
import BeanContainer.Proofs.Fault
import BeanContainer.Proofs.Key
import BeanContainer.Proofs.Store.Node
import BeanContainer.Proofs.Store.Entries
import BeanContainer.Proofs.Store.Expansion
import BeanContainer.Proofs.Store.Replay
import BeanContainer.Proofs.Document.Flattening
import BeanContainer.Proofs.Document.Parts
import BeanContainer.Proofs.Number.Reading
import BeanContainer.Proofs.Template
import BeanContainer.Proofs.Document.Binding
import BeanContainer.Proofs.Container.Ring
import BeanContainer.Proofs.Container.LateReference
import BeanContainer.Proofs.Text.Encoding
import BeanContainer.Proofs.Store.Listing
import BeanContainer.Proofs.Binding.Relative
import BeanContainer.Proofs.Container.Agreement
import BeanContainer.Proofs.Container.Watch
import BeanContainer.Proofs.Store.Shape
import BeanContainer.Proofs.Configuration
import BeanContainer.Proofs.Configuration.Environment
import BeanContainer.Proofs.Container.Twins
import BeanContainer.Proofs.Container.Reference
import BeanContainer.Proofs.Container.Shadow
import BeanContainer.Proofs.Container.Closing
import BeanContainer.Proofs.Container.Instances
import BeanContainer.Proofs.Application
import BeanContainer.Proofs.Container.Filling
import BeanContainer.Proofs.Container.Lookup
import BeanContainer.Proofs.Container.Collection
import BeanContainer.Proofs.Container.Halting
import BeanContainer.Proofs.Container.Decision
import BeanContainer.Proofs.Container.Path
import BeanContainer.Proofs.Registry.Selection
import BeanContainer.Proofs.Callable.Placement
import BeanContainer.Proofs.Binding.Expression
import BeanContainer.Proofs.Container.Invocation
import BeanContainer.Proofs.Binding.Scalar
import BeanContainer.Proofs.Binding.Optional
import BeanContainer.Proofs.Binding.Placeholder
import BeanContainer.Proofs.Text.Pieces
import BeanContainer.Proofs.Store.Subtree
import BeanContainer.Proofs.Binding.CommaList
import BeanContainer.Proofs.Store.Order
import BeanContainer.Proofs.Store.Children
import BeanContainer.Proofs.Condition.Algebra
import BeanContainer.Proofs.Registry.Waiting
import BeanContainer.Proofs.Binding.Validation
import BeanContainer.Proofs.Registry.Stability
import BeanContainer.Proofs.Selector
import BeanContainer.Proofs.Binding.Tag
import BeanContainer.Proofs.Binding.FieldKey
import BeanContainer.Proofs.Template.Scan
