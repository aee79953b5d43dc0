import Mathlib.Data.List.Induction
import StorageScenario.Proofs.ContainerHistory
import StorageScenario.Proofs.CreationSteps

/-!
Which file blobs have a blob type. To make a file in a blob location gives it one, by
default that of block blobs. To set its properties replaces the type like everything else
but the kind, also by none. So what counts is the last call that wrote to the blob.
-/

namespace StorageScenario

open ObjectPath

theorem StoredContainer.stored_file_typed {location : Location}
    (inBlobs : location = .blob ∨ location = .blobFs) (properties : ObjectProperties) :
    (storedProperties location .file properties).blob.blobType ≠ none := by
  unfold storedProperties
  dsimp only
  split
  · exact Option.some_ne_none _
  · rename_i given
    intro untyped
    exact given ⟨inBlobs, rfl, untyped⟩

namespace StoreCall

/-- A call that leaves what is stored at this path without a blob type. -/
def Untypes (path : String) : StoreCall → Prop
  | .setObjectProperties _ raw _ properties => clean raw = path ∧ properties.blob.blobType = none
  | _ => False

def Types (path : String) : StoreCall → Prop
  | .createObject _ raw _ body _ => clean raw = path ∧ body.failure? = none
  | .setObjectProperties _ raw _ properties =>
      clean raw = path ∧ properties.blob.blobType ≠ none
  | _ => False

variable {location : Location} {found : Option StoredContainer} {path : String}
  {object : StoredObject} {call : StoreCall}

theorem writes_of_untypes (untypes : call.Untypes path) : call.Writes path := by
  cases call with
  | setObjectProperties name raw kind properties => exact untypes.1
  | _ => cases untypes

theorem writes_of_types (types : call.Types path) : call.Writes path := by
  cases call with
  | createObject name raw kind body properties => exact types
  | setObjectProperties name raw kind properties => exact types.1
  | _ => cases types

theorem types_or_untypes (writes : call.Writes path) : call.Types path ∨ call.Untypes path := by
  cases call with
  | createObject name raw kind body properties => exact Or.inl writes
  | setObjectProperties name raw kind properties =>
      by_cases untyped : properties.blob.blobType = none
      · exact Or.inr ⟨writes, untyped⟩
      · exact Or.inl ⟨writes, untyped⟩
  | _ => cases writes

theorem untyped_after (untypes : call.Untypes path)
    (origin : Origin location found path object call) :
    object.properties.blob.blobType = none := by
  cases origin with
  | kept _ idle held => exact absurd (writes_of_untypes untypes) idle
  | made name raw kind body properties here readable isObject => cases untypes
  | set name raw kind properties old here held isObject =>
      rw [isObject]
      exact untypes.2

theorem typed_after (inBlobs : location = .blob ∨ location = .blobFs)
    (types : call.Types path) (origin : Origin location found path object call)
    (isFile : object.properties.kind = .file) : object.properties.blob.blobType ≠ none := by
  cases origin with
  | kept _ idle held => exact absurd (writes_of_types types) idle
  | made name raw kind body properties here readable isObject =>
      rw [isObject] at isFile ⊢
      rw [StoredContainer.stored_properties_kind] at isFile
      rw [isFile]
      exact StoredContainer.stored_file_typed inBlobs properties
  | set name raw kind properties old here held isObject =>
      rw [isObject]
      exact types.2

theorem held_before (notUntyped : ¬ call.Untypes path) (notTyped : ¬ call.Types path)
    (origin : Origin location found path object call) :
    found.bind (·.objects.get? path) = some object := by
  have idle : ¬ call.Writes path := by
    intro writes
    rcases types_or_untypes writes with types | untypes
    · exact notTyped types
    · exact notUntyped untypes
  cases origin with
  | kept _ _ held => exact held
  | made name raw kind body properties here readable isObject =>
    exact absurd ⟨here, readable⟩ idle
  | set name raw kind properties old here held isObject => exact absurd here idle

end StoreCall

namespace ServiceCall

variable (account : Account) (location : Location) (name path : String)

def Untypes (step : ServiceCall) : Prop :=
  step.IsAbout account location name ∧ step.call.Untypes path

def Types (step : ServiceCall) : Prop :=
  step.IsAbout account location name ∧ step.call.Types path

/-- The last step that could have given the object a blob type took it away. -/
def LastUntyped (history : List ServiceCall) : Prop :=
  ∃ before step later, history = before ++ step :: later ∧
    step.Untypes account location name path ∧
    ∀ other ∈ later, ¬ other.Types account location name path

variable {account location name path}

theorem last_untyped_snoc {history : List ServiceCall} {step : ServiceCall} :
    LastUntyped account location name path (history ++ [step]) ↔
      step.Untypes account location name path ∨
        LastUntyped account location name path history ∧
          ¬ step.Types account location name path := by
  constructor
  · rintro ⟨before, untyping, later, split, untypes, untouched⟩
    rcases List.eq_nil_or_concat later with isLast | ⟨rest, last, isLater⟩
    · rw [isLast] at split
      obtain ⟨_, sameStep⟩ := List.append_inj' split rfl
      exact Or.inl (List.singleton_inj.mp sameStep ▸ untypes)
    · rw [List.concat_eq_append] at isLater
      rw [isLater, ← List.cons_append, ← List.append_assoc] at split
      obtain ⟨sameHistory, sameStep⟩ := List.append_inj' split rfl
      have isStep : step = last := List.singleton_inj.mp sameStep
      have earlier : ∀ other ∈ rest, ¬ other.Types account location name path :=
        fun other member => untouched other (isLater ▸ List.mem_append_left [last] member)
      have notTyped : ¬ step.Types account location name path :=
        untouched step (by rw [isLater, isStep]; exact List.mem_concat_self)
      exact Or.inr ⟨⟨before, untyping, rest, sameHistory, untypes, earlier⟩, notTyped⟩
  · rintro (untypes | ⟨⟨before, untyping, later, split, untypes, untouched⟩, notTyped⟩)
    · exact ⟨history, step, [], rfl, untypes, fun _ member => absurd member List.not_mem_nil⟩
    · refine ⟨before, untyping, later ++ [step], ?_, untypes, ?_⟩
      · rw [split, List.append_assoc, List.cons_append]
      · intro other member
        rcases List.mem_append.mp member with earlier | isLast
        · exact untouched other earlier
        · rw [List.mem_singleton.mp isLast]
          exact notTyped

end ServiceCall

section History

variable {account : Account} {location : Location} {name path : String} {object : StoredObject}

section Step

variable {storage : Storage} {step : ServiceCall} (below : path ≠ "")
  (held : ((storage.next step).container? account location name).bind
    (·.objects.get? path) = some object)
include below held

theorem Storage.origin_after_next (about : step.IsAbout account location name) :
    StoreCall.Origin location (storage.container? account location name) path object
      step.call := by
  rw [next_container?, if_pos about] at held
  exact StoreCall.origin_of_held below held

theorem Storage.untyped_after_next (untypes : step.Untypes account location name path) :
    object.properties.blob.blobType = none :=
  StoreCall.untyped_after untypes.2 (origin_after_next below held untypes.1)

theorem Storage.typed_after_next (inBlobs : location = .blob ∨ location = .blobFs)
    (types : step.Types account location name path) (isFile : object.properties.kind = .file) :
    object.properties.blob.blobType ≠ none :=
  StoreCall.typed_after inBlobs types.2 (origin_after_next below held types.1) isFile

theorem Storage.held_before_next (notUntyped : ¬ step.Untypes account location name path)
    (notTyped : ¬ step.Types account location name path) :
    (storage.container? account location name).bind (·.objects.get? path) = some object := by
  by_cases about : step.IsAbout account location name
  · apply StoreCall.held_before (fun untypes => notUntyped ⟨about, untypes⟩)
      (fun types => notTyped ⟨about, types⟩)
    exact origin_after_next below held about
  · rw [next_container?, if_neg about] at held
    exact held

end Step

theorem Storage.stored_untyped_iff (disk : FileTree)
    (inBlobs : location = .blob ∨ location = .blobFs) (below : path ≠ "")
    (history : List ServiceCall)
    (held : (((Storage.fresh disk).replay history).container? account location name).bind
      (·.objects.get? path) = some object) (isFile : object.properties.kind = .file) :
    object.properties.blob.blobType = none ↔
      ServiceCall.LastUntyped account location name path history := by
  -- From the end of the history: the last step settles the type, unless it leaves the object
  -- alone, and then the object was there before it.
  induction history using List.reverseRecOn with
  | nil => cases held
  | append_singleton history step ih =>
      rw [replay_snoc] at held
      rw [ServiceCall.last_untyped_snoc]
      by_cases untypes : step.Untypes account location name path
      · exact iff_of_true (untyped_after_next below held untypes) (Or.inl untypes)
      · by_cases types : step.Types account location name path
        · apply iff_of_false (typed_after_next below held inBlobs types isFile)
          rintro (untyping | ⟨_, notTyped⟩)
          · exact untypes untyping
          · exact notTyped types
        · rw [ih (held_before_next below held untypes types)]
          simp [untypes, types]

/-- Only a stored object is shown as a file: the root folder and the folders above objects
are folders. -/
theorem StoredContainer.file_is_stored {stored : StoredContainer} (sound : stored.Sound)
    {hierarchical : Bool} {shown : ObjectProperties}
    (seen : stored.objectProperties? hierarchical path = some shown) (isFile : shown.kind = .file) :
    path ≠ "" ∧ ∃ object, stored.objects.get? path = some object ∧
      object.properties = shown := by
  unfold objectProperties? at seen
  split at seen
  · cases seen
    rw [sound.root] at isFile
    cases isFile
  · rename_i below
    split at seen
    · rename_i object isStored
      exact ⟨below, object, isStored, Option.some.inj seen⟩
    · split at seen
      · cases seen
        cases isFile
      · cases seen

end History

/-- After any history, a file in a blob service is without a blob type if and only if the
last call that could have given it one set its properties and left the type out. -/
theorem file_blob_untyped_iff (disk : FileTree) (history : List ServiceCall) (account : Account)
    {location : Location} (inBlobs : location = .blob ∨ location = .blobFs) (name path : String)
    (reader : EntityKind) :
    let storage := (Storage.fresh disk).replay history
    let object := (ContainerHandle.mk (.memory account location) name).object path reader
    ∀ shown, object.properties storage = .ok shown storage → shown.kind = .file →
      (shown.blob.blobType = none ↔
        ServiceCall.LastUntyped account location name (clean path) history) := by
  intro storage object shown read isFile
  have sound : storage.Sound := Storage.replay_sound (Storage.fresh_sound disk) history
  obtain ⟨stored, found, seen⟩ :=
    Option.bind_eq_some_iff.mp (ObjectHandle.properties_shown_iff.mp read)
  obtain ⟨below, held, isHeld, sameProperties⟩ :=
    StoredContainer.file_is_stored (sound account location name stored found) seen isFile
  have heldHere : (storage.container? account location name).bind
      (·.objects.get? (clean path)) = some held := by
    rw [found, Option.bind_some, isHeld]
  rw [← sameProperties] at isFile ⊢
  exact Storage.stored_untyped_iff disk inBlobs below history heldHere isFile

/-- Metadata set on a blob that was typed by default takes its type away, and to make the
blob again gives it back. -/
theorem file_blob_untyped_iff_metadata_set :
    let account : Account := ⟨0, "account", .standard⟩
    let make : ServiceCall := ⟨account, .blob, .createObject "c" "x" .file (.zeros 0) {}⟩
    let mark : ServiceCall := ⟨account, .blob, .setObjectProperties "c" "/x" .file
      { metadata := some (Table.singleton "k" "v") }⟩
    let history : List ServiceCall :=
      [⟨account, .blob, .createContainer "c" {}⟩, make, mark]
    let empty := Storage.fresh (.ofDirectories ⟨0⟩ [])
    let marked := empty.replay history
    let again := empty.replay (history ++ [make])
    let object := (ContainerHandle.mk (.memory account .blob) "c").object "./x" .file
    ServiceCall.LastUntyped account .blob "c" "x" history ∧
      (∃ shown, object.properties marked = .ok shown marked ∧ shown.kind = .file ∧
        shown.blob.blobType = none) ∧
      ∃ shown, object.properties again = .ok shown again ∧ shown.kind = .file ∧
        shown.blob.blobType ≠ none := by
  intro account make mark history empty marked again object
  have cleanMark : clean "/x" = "x" := by decide +kernel
  have cleanMake : clean "x" = "x" := by decide +kernel
  have cleanObject : clean "./x" = "x" := by decide +kernel
  have untyped : ServiceCall.LastUntyped account .blob "c" "x" history :=
    ⟨[⟨account, .blob, .createContainer "c" {}⟩, make], mark, [], rfl,
      ⟨⟨rfl, rfl⟩, cleanMark, rfl⟩, fun _ member => absurd member List.not_mem_nil⟩
  have typed : ¬ ServiceCall.LastUntyped account .blob "c" "x" (history ++ [make]) := by
    rw [ServiceCall.last_untyped_snoc]
    rintro (⟨_, untypes⟩ | ⟨_, notTyped⟩)
    · exact untypes
    · exact notTyped ⟨⟨rfl, rfl⟩, cleanMake, rfl⟩
  have isBlob : Location.blob = .blob ∨ Location.blob = .blobFs := Or.inl rfl
  have readMarked : object.properties marked =
      .ok { metadata := some (Table.singleton "k" "v") } marked := by
    apply ObjectHandle.properties_shown_iff.mpr
    decide +kernel
  have readAgain : object.properties again =
      .ok { blob := { blobType := some .blockBlob } } again := by
    apply ObjectHandle.properties_shown_iff.mpr
    decide +kernel
  have marks := file_blob_untyped_iff (.ofDirectories ⟨0⟩ []) history account isBlob "c" "./x"
    .file _ readMarked rfl
  have makes := file_blob_untyped_iff (.ofDirectories ⟨0⟩ []) (history ++ [make]) account isBlob
    "c" "./x" .file _ readAgain rfl
  rw [cleanObject] at marks makes
  exact ⟨untyped, ⟨_, readMarked, rfl, marks.mpr untyped⟩,
    ⟨_, readAgain, rfl, fun lost => typed (makes.mp lost)⟩⟩

end StorageScenario
