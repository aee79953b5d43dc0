import StorageScenario.Body.Reader
import StorageScenario.Cleanup
import StorageScenario.Creation
import StorageScenario.Registry
import StorageScenario.Testing.Assertion
import StorageScenario.Testing.BodyStream
import StorageScenario.Testing.Fixtures
import StorageScenario.Testing.Preparation
import StorageScenario.Testing.Recorder
import StorageScenario.Testing.Snapshot
import StorageScenario.Testing.TestFault
import StorageScenario.Validation
import StorageScenario.Proofs.Outcomes
import StorageScenario.Proofs.LevelAlgebra
import StorageScenario.Proofs.CreationRun
import StorageScenario.Proofs.CreationEffect
import StorageScenario.Proofs.Divergence
import StorageScenario.Proofs.ValidationRun
import StorageScenario.Proofs.RoundTrip
import StorageScenario.Proofs.ValidationOutcome
import StorageScenario.Proofs.FlattenLookup
import StorageScenario.Proofs.CreationSteps
import StorageScenario.Proofs.CleanupRun
import StorageScenario.Proofs.CleanupEffect
import StorageScenario.Proofs.NestedFolders
import StorageScenario.Proofs.CanonicalTable
import StorageScenario.Proofs.StoreHistory
import StorageScenario.Proofs.ContainerViews
import StorageScenario.Proofs.CreationStop
import StorageScenario.Proofs.SiblingOrder
import StorageScenario.Proofs.CreationCalls
import StorageScenario.Proofs.ValidationReads
import StorageScenario.Proofs.DryRun
import StorageScenario.Proofs.Dialogue
import StorageScenario.Proofs.Confinement
import StorageScenario.Proofs.CallLocality
import StorageScenario.Proofs.Interleaving
import StorageScenario.Proofs.DeclaredFields
import StorageScenario.Proofs.ContainerHistory
import StorageScenario.Proofs.CreationBases
import StorageScenario.Proofs.Addressing
import StorageScenario.Proofs.BlobTypes
import StorageScenario.Proofs.ListingLookup
import StorageScenario.Proofs.PrefixListing
import StorageScenario.Proofs.Deletion
import StorageScenario.Proofs.SettingProperties
import StorageScenario.Proofs.TreeWalk
import StorageScenario.Proofs.TreeGrowth
import StorageScenario.Proofs.TidyDirectory
import StorageScenario.Proofs.ReadOnlyCalls
import StorageScenario.Proofs.DirectoryCalls
import StorageScenario.Proofs.DirectoryGrowth
import StorageScenario.Proofs.DiskListing
import StorageScenario.Proofs.FolderListing
import StorageScenario.Proofs.DiskContainers
import StorageScenario.Proofs.PathPieces
import StorageScenario.Proofs.CreatedTrees
import StorageScenario.Proofs.HierarchicalListing
import StorageScenario.Proofs.AtomicCalls
import StorageScenario.Proofs.PreOrder
import StorageScenario.Proofs.KeyNames
import StorageScenario.Proofs.RepeatedCreation
import StorageScenario.Proofs.CleanupStop
import StorageScenario.Proofs.UnderFolder
import StorageScenario.Proofs.OverlayNesting
import StorageScenario.Proofs.Registration
import StorageScenario.Proofs.DirectoryVisit
import StorageScenario.Proofs.DirectoryScan
import StorageScenario.Proofs.ContainerDirectories
import StorageScenario.Proofs.CleanupOnDisk
import StorageScenario.Proofs.ReaderCursor
import StorageScenario.Proofs.SeededBodies
import StorageScenario.Proofs.WrittenSizes
import StorageScenario.Proofs.DefinitionEquality
import StorageScenario.Proofs.TimeComparison
import StorageScenario.Proofs.CanonicalNames
import StorageScenario.Proofs.PathConfinement
