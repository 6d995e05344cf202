import RegistryKeeper.Text.Quoted
import RegistryKeeper.Json.Basic
import RegistryKeeper.Json.Rounding
import RegistryKeeper.Json.Parser
import RegistryKeeper.Json.Printer
import RegistryKeeper.Json.Shape
import RegistryKeeper.Time.Timestamp
import RegistryKeeper.Failure
import RegistryKeeper.Document.PackageSource
import RegistryKeeper.Catalog.Resolution
import RegistryKeeper.Managed.Blueprint
import RegistryKeeper.Cluster.Converge
import RegistryKeeper.Cluster.Local
import RegistryKeeper.Server.Client
import RegistryKeeper.Upkeep.Loop
import RegistryKeeper.Document.Definition
import RegistryKeeper.Json.Yaml
import RegistryKeeper.CommandLine.Options
import RegistryKeeper.CommandLine.Start
import RegistryKeeper.Main
import RegistryKeeper.Proofs.Stamps
import RegistryKeeper.Proofs.LocalRuns
import RegistryKeeper.Proofs.Addresses
import RegistryKeeper.Proofs.Realization
import RegistryKeeper.Proofs.Rests
import RegistryKeeper.Proofs.PassStages
import RegistryKeeper.Proofs.Versions
import RegistryKeeper.Proofs.Replacements
import RegistryKeeper.Proofs.Turns
import RegistryKeeper.Proofs.IndexReads
import RegistryKeeper.Proofs.OverlappingPasses
import RegistryKeeper.Proofs.ListingAge
import RegistryKeeper.Proofs.Grants
import RegistryKeeper.Proofs.Ownership
import RegistryKeeper.Proofs.FailStop
import RegistryKeeper.Proofs.StatusWrites
import RegistryKeeper.Proofs.CommandLines
import RegistryKeeper.Proofs.MirroredPasses
import RegistryKeeper.Proofs.Overwrites
import RegistryKeeper.Proofs.Retries
import RegistryKeeper.Proofs.SeparatePasses
import RegistryKeeper.Proofs.ServerCommands
import RegistryKeeper.Proofs.StaleCopies
import RegistryKeeper.Proofs.ContestedObjects
import RegistryKeeper.Proofs.FreshContexts
import RegistryKeeper.Proofs.FailureStreaks
import RegistryKeeper.Proofs.FaithfulClusters
import RegistryKeeper.Proofs.CatalogRebuilds
import RegistryKeeper.Proofs.RoundTrips
import RegistryKeeper.Proofs.LiveSelectors
import RegistryKeeper.Proofs.Expressions
import RegistryKeeper.Proofs.CalendarDays
import RegistryKeeper.Proofs.FirstSeen
import RegistryKeeper.Proofs.RestWindows
import RegistryKeeper.Proofs.SchemaKeywords
import RegistryKeeper.Proofs.PublishedSchemas
import RegistryKeeper.Proofs.LiveRoles
import RegistryKeeper.Proofs.AnsweredObjects
import RegistryKeeper.Proofs.WriteHistories
