/-!
Where a resource lives, what kind of entity an object is, and which locations
an account of a given kind serves.
-/

namespace StorageScenario

inductive Location where
  | disk
  | blob
  | file
  | fileNfs
  | blobFs
  deriving DecidableEq

namespace Location

/-- Position in the listing order. The disk comes before every remote location. -/
def rank : Location → Nat
  | .disk => 0
  | .blob => 1
  | .file => 2
  | .fileNfs => 3
  | .blobFs => 4

instance : Ord Location := ⟨fun first second => compare first.rank second.rank⟩

def name : Location → String
  | .disk => "local"
  | .blob => "blob"
  | .file => "file"
  | .fileNfs => "file-nfs"
  | .blobFs => "blobfs"

def tag : Location → String
  | .disk => "Local"
  | .blob => "Blob"
  | .file => "File"
  | .fileNfs => "FileNfs"
  | .blobFs => "BlobFs"

def isRemote (location : Location) : Bool := location ≠ .disk

/-- Whether folders are entities of their own. In the blob location a folder is
only the beginning of a name. -/
def isHierarchical (location : Location) : Bool := location ≠ .blob

def all : List Location := [.disk, .blob, .file, .fileNfs, .blobFs]

def sorted (locations : List Location) : List Location :=
  locations.mergeSort fun first second => decide (first.rank ≤ second.rank)

end Location

inductive EntityKind where
  | file
  | folder
  deriving DecidableEq

namespace EntityKind

instance : Inhabited EntityKind := ⟨.file⟩

def name : EntityKind → String
  | .file => "file"
  | .folder => "folder"

def tag : EntityKind → String
  | .file => "File"
  | .folder => "Folder"

def all : List EntityKind := [.file, .folder]

end EntityKind

inductive AccountKind where
  | standard
  | premiumBlockBlobs
  | premiumPageBlobs
  | premiumFileShares
  | hierarchicalNamespace
  deriving DecidableEq

namespace AccountKind

instance : Inhabited AccountKind := ⟨.standard⟩

def name : AccountKind → String
  | .standard => "standard"
  | .premiumBlockBlobs => "premium-block-blobs"
  | .premiumPageBlobs => "premium-page-blobs"
  | .premiumFileShares => "premium-file-shares"
  | .hierarchicalNamespace => "hierarchical-namespace"

def tag : AccountKind → String
  | .standard => "Standard"
  | .premiumBlockBlobs => "PremiumBlockBlobs"
  | .premiumPageBlobs => "PremiumPageBlobs"
  | .premiumFileShares => "PremiumFileShares"
  | .hierarchicalNamespace => "HierarchicalNamespaceEnabled"

def all : List AccountKind :=
  [.standard, .premiumBlockBlobs, .premiumPageBlobs, .premiumFileShares, .hierarchicalNamespace]

/-- The locations that an account of this kind serves, in the order it names them. -/
def services : AccountKind → List Location
  | .standard => [.blob, .file, .blobFs]
  | .premiumBlockBlobs => [.blob, .blobFs]
  | .premiumPageBlobs => [.blob]
  | .premiumFileShares => [.file, .fileNfs]
  | .hierarchicalNamespace => [.blob, .file, .blobFs]

def offers (kind : AccountKind) (location : Location) : Bool :=
  location ∈ kind.services

end AccountKind

end StorageScenario
