import KernelCatalog.Main
import KernelCatalog.Proofs.Kernel.Catalog
import KernelCatalog.Proofs.Kernel.Signature
import KernelCatalog.Proofs.Object.Content
import KernelCatalog.Proofs.Object.Reader
import KernelCatalog.Proofs.Extraction.Descriptor
import KernelCatalog.Proofs.Extraction.Catalog
import KernelCatalog.Proofs.Extraction.RoundTrip
import KernelCatalog.Proofs.Extraction.Order
import KernelCatalog.Proofs.Extraction.Sorted
import KernelCatalog.Proofs.Extraction.Registry
import KernelCatalog.Proofs.Text.Utf8
import KernelCatalog.Proofs.Schedule.Graph
import KernelCatalog.Proofs.Schedule.Step
import KernelCatalog.Proofs.Schedule.Run
import KernelCatalog.Proofs.Schedule.Calls
import KernelCatalog.Proofs.Ledger.Handle
import KernelCatalog.Proofs.Ledger.History
import KernelCatalog.Proofs.Ledger.Schema
import KernelCatalog.Proofs.Project.Config
import KernelCatalog.Proofs.Build.Pipeline
import KernelCatalog.Proofs.Build.Summary
import KernelCatalog.Proofs.Text.Split
import KernelCatalog.Proofs.Text.Decimal
import KernelCatalog.Proofs.Text.Literal
import KernelCatalog.Proofs.HostSource.Identifier
import KernelCatalog.Proofs.HostSource.Reader
import KernelCatalog.Proofs.HostSource.Source
import KernelCatalog.Proofs.HostSource.RoundTrip
import KernelCatalog.Proofs.Build.Ownership
import KernelCatalog.Proofs.Files.Keep
import KernelCatalog.Proofs.Ledger.Keep
import KernelCatalog.Proofs.Build.Writes
import KernelCatalog.Proofs.Build.Generated
import KernelCatalog.Proofs.Build.Spelling
import KernelCatalog.Proofs.Path
import KernelCatalog.Proofs.Json.Written
import KernelCatalog.Proofs.Project.Saved
import KernelCatalog.Proofs.Files.Steps
import KernelCatalog.Proofs.Files.Touch
import KernelCatalog.Proofs.Ledger.Ready
import KernelCatalog.Proofs.Build.Built
import KernelCatalog.Proofs.Build.Calls
import KernelCatalog.Proofs.Build.Rebuild
import KernelCatalog.Proofs.Build.Repeat
import KernelCatalog.Proofs.Files.Descend
import KernelCatalog.Proofs.Files.Beside
import KernelCatalog.Proofs.Schedule.Interleave
import KernelCatalog.Proofs.Files.Merge
import KernelCatalog.Proofs.Build.Turns
import KernelCatalog.Proofs.Build.Task
import KernelCatalog.Proofs.Ledger.Opening
import KernelCatalog.Proofs.Project.Targets
import KernelCatalog.Proofs.Build.Orders
import KernelCatalog.Proofs.Kernel.ArgumentBlock
import KernelCatalog.Proofs.Project.Blame
import KernelCatalog.Proofs.Build.Registration
import KernelCatalog.Proofs.Object.Extent
import KernelCatalog.Proofs.Extraction.Bounds
import KernelCatalog.Proofs.Text.Fill
import KernelCatalog.Proofs.Build.Placeholders
import KernelCatalog.Proofs.Project.Layout
import KernelCatalog.Proofs.CommandLine.Extract
import KernelCatalog.Proofs.Build.Fresh
import KernelCatalog.Proofs.Project.TargetName
import KernelCatalog.Proofs.Kernel.Exchange
