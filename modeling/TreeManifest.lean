import TreeManifest.Diff
import TreeManifest.Main
import TreeManifest.Order.Total
import TreeManifest.Proofs.Attributes.Calls
import TreeManifest.Proofs.Attributes.Convergence
import TreeManifest.Proofs.Attributes.Isolated
import TreeManifest.Proofs.Attributes.Namespaces
import TreeManifest.Proofs.Diff.Storage
import TreeManifest.Proofs.Entry.Operations
import TreeManifest.Proofs.Flags.Composition
import TreeManifest.Proofs.Flags.Early
import TreeManifest.Proofs.Manifest.Dump
import TreeManifest.Proofs.Order.Lexicographic
import TreeManifest.Proofs.Pending.Crew
import TreeManifest.Proofs.Record.Legacy
import TreeManifest.Proofs.Record.Truncation
import TreeManifest.Proofs.Restore.Confined
import TreeManifest.Proofs.Restore.Fidelity
import TreeManifest.Proofs.Restore.Orders
import TreeManifest.Proofs.Walk.Completeness
import TreeManifest.Proofs.Walk.Links
import TreeManifest.Proofs.Walk.Selection
import TreeManifest.Volume.Blueprint
import TreeManifest.Volume.Session
import TreeManifest.Volume.Tree
import TreeManifest.Proofs.Order.Stability
import TreeManifest.Proofs.Order.Subtree
import TreeManifest.Proofs.Order.Ties
import TreeManifest.Proofs.Hardlink.Passes
import TreeManifest.Proofs.Restore.Devices
import TreeManifest.Proofs.Restore.Established
import TreeManifest.Proofs.Restore.Ownership
import TreeManifest.Proofs.Walk.Located
import TreeManifest.Proofs.Walk.Preorder
