import StorageScenario.Instant
import StorageScenario.Location
import StorageScenario.Table

/-!
Properties of containers and objects. An unset field of a definition is not
compared; an unset field of a real resource is one its back-end cannot tell.
-/

namespace StorageScenario

abbrev Metadata := Table String

inductive PublicAccess where
  | blob
  | container
  deriving DecidableEq

def PublicAccess.tag : PublicAccess → String
  | .blob => "Blob"
  | .container => "Container"

def PublicAccess.all : List PublicAccess := [.blob, .container]

inductive ShareTier where
  | transactionOptimized
  | hot
  | cool
  | premium
  deriving DecidableEq

def ShareTier.tag : ShareTier → String
  | .transactionOptimized => "TransactionOptimized"
  | .hot => "Hot"
  | .cool => "Cool"
  | .premium => "Premium"

def ShareTier.all : List ShareTier := [.transactionOptimized, .hot, .cool, .premium]

inductive RootSquash where
  | noRootSquash
  | rootSquash
  | allSquash
  deriving DecidableEq

def RootSquash.tag : RootSquash → String
  | .noRootSquash => "NoRootSquash"
  | .rootSquash => "RootSquash"
  | .allSquash => "AllSquash"

def RootSquash.all : List RootSquash := [.noRootSquash, .rootSquash, .allSquash]

inductive BlobType where
  | blockBlob
  | pageBlob
  | appendBlob
  deriving DecidableEq

def BlobType.tag : BlobType → String
  | .blockBlob => "BlockBlob"
  | .pageBlob => "PageBlob"
  | .appendBlob => "AppendBlob"

def BlobType.all : List BlobType := [.blockBlob, .pageBlob, .appendBlob]

inductive AccessTier where
  | hot
  | cool
  | cold
  | archive
  deriving DecidableEq

def AccessTier.tag : AccessTier → String
  | .hot => "Hot"
  | .cool => "Cool"
  | .cold => "Cold"
  | .archive => "Archive"

def AccessTier.all : List AccessTier := [.hot, .cool, .cold, .archive]

structure BlobContainerProperties where
  access : Option PublicAccess := none
  deriving DecidableEq

structure ShareProperties where
  accessTier : Option ShareTier := none
  enabledProtocols : Option String := none
  quota : Option Int := none
  rootSquash : Option RootSquash := none
  deriving DecidableEq

structure ContainerProperties where
  metadata : Option Metadata := none
  blob : BlobContainerProperties := {}
  file : ShareProperties := {}
  deriving DecidableEq

structure ContentHeaders where
  cacheControl : Option String := none
  contentDisposition : Option String := none
  contentEncoding : Option String := none
  contentLanguage : Option String := none
  contentType : Option String := none
  deriving DecidableEq

structure BlobProperties where
  blobType : Option BlobType := none
  tags : Option (Table String) := none
  blockBlobTier : Option AccessTier := none
  pageBlobTier : Option String := none
  deriving DecidableEq

structure BlobFsProperties where
  permissions : Option String := none
  owner : Option String := none
  group : Option String := none
  acl : Option String := none
  deriving DecidableEq

structure SmbProperties where
  attributes : Option String := none
  changeTime : Option Instant := none
  creationTime : Option Instant := none
  lastWriteTime : Option Instant := none
  permissions : Option String := none
  deriving DecidableEq

structure NfsProperties where
  owner : Option String := none
  group : Option String := none
  fileMode : Option UInt32 := none
  deriving DecidableEq

structure ObjectProperties where
  kind : EntityKind := .file
  headers : ContentHeaders := {}
  metadata : Option Metadata := none
  blob : BlobProperties := {}
  blobFs : BlobFsProperties := {}
  file : SmbProperties := {}
  nfs : NfsProperties := {}
  deriving DecidableEq

namespace ObjectProperties

def folder : ObjectProperties := { kind := .folder }

end ObjectProperties

end StorageScenario
