import Multibinding.Config.Json
import Multibinding.Emission.FileTree
import Multibinding.Main
import Multibinding.Error
import Multibinding.Session
import Multibinding.Proofs.Name.Generated
import Multibinding.Proofs.Declaration.Enumeration
import Multibinding.Proofs.Declaration.Agreement
import Multibinding.Proofs.Declaration.Insertion
import Multibinding.Proofs.Binding.KeyType
import Multibinding.Proofs.Binding.Description
import Multibinding.Proofs.Binding.Members
import Multibinding.Proofs.Binding.Includes
import Multibinding.Proofs.Binding.Overloads
import Multibinding.Proofs.Binding.Registry
import Multibinding.Proofs.Emission.Memory
import Multibinding.Proofs.Round.Plan
import Multibinding.Proofs.Round.Resolution
import Multibinding.Proofs.Round.Accounting
import Multibinding.Proofs.Round.NameClash
import Multibinding.Proofs.Round.Runs
import Multibinding.Proofs.Round.Orphans
import Multibinding.Proofs.Round.Isolation
import Multibinding.Proofs.Round.Listing
import Multibinding.Proofs.Round.Registry
import Multibinding.Proofs.Round.Reordering
import Multibinding.Proofs.Round.Unread
import Multibinding.Proofs.Entries
import Multibinding.Proofs.Pointwise
import Multibinding.Proofs.Text
import Multibinding.Proofs.Name.Dotted
import Multibinding.Proofs.Name.Order
import Multibinding.Proofs.Json.Plain
import Multibinding.Proofs.Json.Spelling
import Multibinding.Proofs.Json.Scanning
import Multibinding.Proofs.Json.Assembly
import Multibinding.Proofs.Json.Pretty
import Multibinding.Proofs.Json.Place
import Multibinding.Proofs.Json.Updates
import Multibinding.Proofs.Json.Fields
import Multibinding.Proofs.Json.Readable
import Multibinding.Proofs.Json.Reading
import Multibinding.Proofs.Json.Rereading
import Multibinding.Proofs.Json.Canonical
import Multibinding.Proofs.Name.TypeRefValue
import Multibinding.Proofs.Declaration.Argument
import Multibinding.Proofs.Declaration.RoundTrip
import Multibinding.Proofs.Declaration.Replacement
import Multibinding.Proofs.Declaration.Spelled
import Multibinding.Proofs.Declaration.History
import Multibinding.Proofs.Emission.Record
import Multibinding.Proofs.Emission.Growth
import Multibinding.Proofs.Round.Filing
import Multibinding.Proofs.Java.Opening
import Multibinding.Proofs.CommandLine.Lockstep
import Multibinding.Proofs.CommandLine.DryRun
import Multibinding.Proofs.CommandLine.Loading
import Multibinding.Proofs.CommandLine.ExitStatus
import Multibinding.Proofs.Emission.Changes
import Multibinding.Proofs.Emission.Path
import Multibinding.Proofs.Emission.Placement
import Multibinding.Proofs.Name.Flattened
import Multibinding.Proofs.Java.FileName
import Multibinding.Proofs.Declaration.LoadedNames
import Multibinding.Proofs.Config.LoadedNames
import Multibinding.Proofs.Round.InjectionModule
import Multibinding.Proofs.Round.FileNames
import Multibinding.Proofs.Round.DeclaredClass
import Multibinding.Proofs.Round.Confinement
import Multibinding.Proofs.Declaration.Assignability
import Multibinding.Proofs.Round.KeyPairs
import Multibinding.Proofs.Round.References
import Multibinding.Proofs.Binding.NestedNames
import Multibinding.Proofs.Declaration.Digest
import Multibinding.Proofs.Binding.Scopes
import Multibinding.Proofs.Setting.Kept
import Multibinding.Proofs.Toml.Scanning
import Multibinding.Proofs.Toml.Strings
import Multibinding.Proofs.Toml.Lines
import Multibinding.Proofs.Toml.Tables
import Multibinding.Proofs.Config.Printed
import Multibinding.Proofs.CommandLine.Printing
import Multibinding.Proofs.Name.Grammar
import Multibinding.Proofs.Name.Derived
import Multibinding.Proofs.Binding.KeyReports
import Multibinding.Proofs.Java.Layout
import Multibinding.Proofs.Name.TypeRefText
import Multibinding.Proofs.Java.Lexical
import Multibinding.Proofs.Java.AnnotationText
import Multibinding.Proofs.Java.HeadComment
