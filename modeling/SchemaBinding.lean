import SchemaBinding.Binding.Lookup
import SchemaBinding.Report.Collector
import SchemaBinding.Schema.Format
import SchemaBinding.Proofs.Binding.Grouping
import SchemaBinding.Proofs.Binding.Pairing
import SchemaBinding.Proofs.Binding.Partition
import SchemaBinding.Proofs.Report.Order
import SchemaBinding.Proofs.Report.Walk
import SchemaBinding.Proofs.Report.Removal
import SchemaBinding.Proofs.Report.Options
import SchemaBinding.Proofs.Report.Outline
import SchemaBinding.Proofs.Source.Bytes
import SchemaBinding.Proofs.Source.Scan
import SchemaBinding.Proofs.Source.Boundaries
import SchemaBinding.Proofs.Source.ReadingOrder
import SchemaBinding.Proofs.Source.Movement
import SchemaBinding.Proofs.Tree.Layout
import SchemaBinding.Proofs.Tree.Construction
import SchemaBinding.Proofs.Binding.Places
import SchemaBinding.Proofs.Binding.Cursor
import SchemaBinding.Proofs.Binding.AttributeLookup
import SchemaBinding.Proofs.Binding.Descent
import SchemaBinding.Proofs.Json.Node
import SchemaBinding.Proofs.Json.Record
import SchemaBinding.Proofs.Schema.CanonicalText
import SchemaBinding.Proofs.Schema.Shape
import SchemaBinding.Proofs.Schema.RoundTrip
import SchemaBinding.Proofs.Tree.Braces
import SchemaBinding.Proofs.Binding.Occurrences
import SchemaBinding.Proofs.Report.ByteOrder
import SchemaBinding.Proofs.Binding.Conservation
import SchemaBinding.Proofs.Schema.Names
import SchemaBinding.Proofs.Binding.Widening
import SchemaBinding.Proofs.Binding.NamesOnly
import SchemaBinding.Proofs.NamedList.Reordering
import SchemaBinding.Proofs.Tree.Equality
import SchemaBinding.Proofs.Schema.Equality
import SchemaBinding.Proofs.Binding.Congruence
import SchemaBinding.Proofs.Report.Congruence
import SchemaBinding.Proofs.Report.Runs
import SchemaBinding.Proofs.Report.Interleaving
import SchemaBinding.Proofs.Schema.UnknownNesting
import SchemaBinding.Proofs.Schema.Decoded
import SchemaBinding.Proofs.Schema.TypeText
import SchemaBinding.Proofs.Binding.Equality
import SchemaBinding.Proofs.Builders
