import StorageScenario.Proofs.CreationEffect
import StorageScenario.Proofs.ValidationRun

/-!
Creating a definition below a service and validating the outcome with it. If the
definition addresses nothing that is there and its objects do not contradict each
other, the store that a creation leaves has no divergence from it.
-/

namespace StorageScenario

namespace Field

variable {α : Type}

theorem failures_of_kept {fields : List (Field α)} {expected actual : α} (resource : String)
    (kept : ∀ field ∈ fields, ∀ wanted, field.read expected = some wanted →
      field.read actual = some wanted) :
    failures fields resource expected actual = [] := by
  apply List.filterMap_eq_nil_iff.mpr
  intro field member
  cases declared : field.read expected with
  | none => exact field.failure_of_undeclared resource actual declared
  | some wanted =>
      have real : field.real actual = some wanted := by
        unfold Field.real
        rw [kept field member wanted declared, Option.some_or]
      rw [field.failure_of_declared resource actual declared, if_pos real]

end Field

/-- Properties may take a blob type, and on the root folder another kind, without
diverging from themselves as they were. -/
theorem Location.object_fields_kept (location : Location) {path : String}
    {expected : ObjectProperties} {kind : EntityKind} {blobType : Option BlobType}
    (sameKind : path ≠ "" → kind = expected.kind)
    (sameType : ∀ declared, expected.blob.blobType = some declared → blobType = some declared) :
    ∀ field ∈ location.objectFields path, ∀ wanted, field.read expected = some wanted →
      field.read
        { expected with kind := kind, blob := { expected.blob with blobType := blobType } } =
        some wanted := by
  unfold objectFields
  simp only [List.forall_mem_append, List.forall_mem_cons]
  refine ⟨?_, ?_, ?_, ?_⟩
  · unfold kindFields
    split
    next compared => simp [sameKind compared.2]
    next => simp
  · simp [headerFields]
  · simp
  · unfold locatedFields nfsFields
    cases location with
    | blob => simpa using sameType
    | _ => simp

namespace Creation

/-- Objects of one container that do not contradict each other: no two have one path,
their bodies can be read and have the digest of what they yield, the root folder is not
declared absent or a file with a body, and where folders are entities nothing is wanted
below an absent one. -/
structure Coherent (location : Location) (objects : List (String × ObjectDefinition)) : Prop where
  distinct : objects.Pairwise fun first second =>
    ObjectPath.clean first.1 ≠ ObjectPath.clean second.1
  readable : ∀ entry ∈ objects, entry.2.IsReadable
  hashed : ∀ entry ∈ objects, ∀ body, entry.2.body = some body →
    body.digest = .ok (Digest.ofBytes body.yielded)
  root : ∀ entry ∈ objects, ObjectPath.clean entry.1 = "" →
    entry.2.isWanted ∧ ¬ (entry.2.properties.kind = .file ∧ entry.2.body.isSome)
  above : location.isHierarchical → ∀ absent ∈ objects, ¬ absent.2.isWanted →
    ∀ wanted ∈ objects, wanted.2.isWanted →
      ¬ Text.startsWith (ObjectPath.clean wanted.1)
        (ObjectPath.below (ObjectPath.clean absent.1))

theorem last_wanted_mem {path : String} {objects : List (String × ObjectDefinition)}
    {last : ObjectDefinition} (found : lastWanted? path objects = some last) :
    ∃ entry ∈ objects, entry.2.isWanted ∧ ObjectPath.clean entry.1 = path := by
  unfold lastWanted? at found
  obtain ⟨entry, isLast, _⟩ := Option.map_eq_some_iff.mp found
  have member := List.mem_of_getLast? isLast
  rw [List.mem_filter, Bool.and_eq_true, beq_iff_eq] at member
  exact ⟨entry, member.1, member.2⟩

theorem last_wanted_distinct {objects : List (String × ObjectDefinition)}
    (distinct : objects.Pairwise fun first second =>
      ObjectPath.clean first.1 ≠ ObjectPath.clean second.1)
    {entry : String × ObjectDefinition} (member : entry ∈ objects) :
    lastWanted? (ObjectPath.clean entry.1) objects =
      if entry.2.isWanted then some entry.2 else none := by
  induction objects with
  | nil => cases member
  | cons head rest ih =>
      obtain ⟨others, tail⟩ := List.pairwise_cons.mp distinct
      rw [last_wanted_cons]
      rcases List.mem_cons.mp member with same | later
      · subst same
        have none : lastWanted? (ObjectPath.clean entry.1) rest = none := by
          cases found : lastWanted? (ObjectPath.clean entry.1) rest with
          | none => rfl
          | some last =>
              obtain ⟨other, otherMember, _, samePath⟩ := last_wanted_mem found
              exact absurd samePath.symm (others other otherMember)
        simp [none]
      · have notHead : ¬ (head.2.isWanted ∧
            ObjectPath.clean head.1 = ObjectPath.clean entry.1) :=
          fun chosen => others entry later chosen.2
        rw [ih tail later, if_neg notHead, Option.or_none]

theorem empty_not_below (path : String) :
    Text.startsWith "" (ObjectPath.below path) = false := by
  unfold Text.startsWith Text.remainder? ObjectPath.below
  rw [String.toList_append]
  cases path.toList <;> rfl

section Stored

variable {store : ServiceStore} {location : Location} {container : ContainerHandle}
  {properties : ContainerProperties} {objects : List (String × ObjectDefinition)}
  {entry : String × ObjectDefinition}

theorem seen_wanted (coherent : Coherent location objects) (member : entry ∈ objects)
    (wanted : entry.2.isWanted)
    (found : store.get? container.name =
      some (fill location (StoredContainer.created properties) objects)) (kind : EntityKind) :
    Divergence.seenObject? store (container.object entry.1 kind) =
      some { (expectedObject location entry.2).properties with
        kind := if ObjectPath.clean entry.1 = "" then .folder else entry.2.properties.kind } := by
  have last := last_wanted_distinct coherent.distinct member
  rw [if_pos wanted] at last
  unfold Divergence.seenObject? StoredContainer.objectProperties? ContainerHandle.object
  dsimp only
  rw [found, Option.bind_some]
  by_cases atRoot : ObjectPath.clean entry.1 = ""
  · rw [atRoot] at last
    rw [if_pos atRoot, if_pos atRoot, fill_root, last, ← stored_object_eq_expected]
  · rw [if_neg atRoot, if_neg atRoot, fill_get? location objects _ atRoot, last,
      Option.map_some, Option.some_or, stored_object_eq_expected]
    rfl

theorem stored_wanted (coherent : Coherent location objects) (member : entry ∈ objects)
    (wanted : entry.2.isWanted)
    (found : store.get? container.name =
      some (fill location (StoredContainer.created properties) objects)) (kind : EntityKind)
    (below : ObjectPath.clean entry.1 ≠ "") :
    Divergence.storedObject? store (container.object entry.1 kind) =
      some (expectedObject location entry.2) := by
  have last := last_wanted_distinct coherent.distinct member
  rw [if_pos wanted] at last
  unfold Divergence.storedObject? ContainerHandle.object
  dsimp only
  rw [found, Option.bind_some, fill_get? location objects _ below, last,
    ← stored_object_eq_expected]
  rfl

theorem absent_not_implicit (coherent : Coherent location objects) (member : entry ∈ objects)
    (absent : ¬ entry.2.isWanted) :
    (location.isHierarchical &&
      (fill location (StoredContainer.created properties) objects).isImplicitFolder
        (ObjectPath.clean entry.1)) = false := by
  rw [Bool.and_eq_false_imp]
  intro hierarchical
  unfold StoredContainer.isImplicitFolder
  rw [List.any_eq_false]
  intro key isKey starts
  obtain ⟨stored, isEntry, sameKey⟩ := List.mem_map.mp isKey
  have held := (Table.get?_eq_some_iff _ stored.1 stored.2).mpr isEntry
  rw [sameKey] at held
  have below : key ≠ "" := by
    intro empty
    rw [empty, empty_not_below] at starts
    cases starts
  rw [fill_get? location objects _ below] at held
  cases last : lastWanted? key objects with
  | none =>
      rw [last] at held
      cases held
  | some definition =>
      obtain ⟨other, otherMember, otherWanted, otherPath⟩ := last_wanted_mem last
      rw [← otherPath] at starts
      exact coherent.above hierarchical entry member absent other otherMember otherWanted starts

/-- An absent object is not there, not even as a folder above something wanted. -/
theorem unseen_absent (coherent : Coherent location objects) (member : entry ∈ objects)
    (absent : ¬ entry.2.isWanted) (sameLocation : container.location = location)
    (found : store.get? container.name =
      some (fill location (StoredContainer.created properties) objects)) (kind : EntityKind) :
    Divergence.seenObject? store (container.object entry.1 kind) = none := by
  have below : ObjectPath.clean entry.1 ≠ "" :=
    fun atRoot => absent (coherent.root entry member atRoot).1
  have last := last_wanted_distinct coherent.distinct member
  rw [if_neg absent] at last
  unfold Divergence.seenObject? StoredContainer.objectProperties? ContainerHandle.object
    ObjectHandle.location
  dsimp only
  rw [found, Option.bind_some, if_neg below, fill_get? location objects _ below, last,
    sameLocation, absent_not_implicit coherent member absent]
  rfl

theorem wanted_contents_comparable (coherent : Coherent location objects)
    (member : entry ∈ objects) (wanted : entry.2.isWanted)
    (found : store.get? container.name =
      some (fill location (StoredContainer.created properties) objects)) (kind : EntityKind)
    {body : Body} (compared : Validation.comparedBody? entry.2 = some body) :
    Divergence.storedObject? store (container.object entry.1 kind) =
        some (expectedObject location entry.2) ∧
      (expectedObject location entry.2).data = body.yielded ∧
        body.digest = .ok (Digest.ofBytes body.yielded) := by
  unfold Validation.comparedBody? at compared
  split at compared
  next isFile =>
    have below : ObjectPath.clean entry.1 ≠ "" := by
      intro atRoot
      exact (coherent.root entry member atRoot).2 ⟨isFile, by rw [compared]; rfl⟩
    have data : (expectedObject location entry.2).data = body.yielded := by
      unfold expectedObject
      rw [compared]
    exact ⟨stored_wanted coherent member wanted found kind below, data,
      coherent.hashed entry member body compared⟩
  next => cases compared

theorem wanted_properties_kept (location : Location) (definition : ObjectDefinition)
    (path resource : String) :
    Field.failures (location.objectFields path) resource definition.properties
      { (expectedObject location definition).properties with
        kind := if path = "" then .folder else definition.properties.kind } = [] := by
  refine Field.failures_of_kept resource (Location.object_fields_kept location ?_ ?_)
  · intro below
    rw [if_neg below]
  · intro declared isDeclared
    rw [isDeclared]
    split <;> rfl

theorem object_agrees (coherent : Coherent location objects) (member : entry ∈ objects)
    (sameLocation : container.location = location)
    (found : store.get? container.name =
      some (fill location (StoredContainer.created properties) objects)) :
    Divergence.ofObject store true (container.object entry.1 entry.2.properties.kind) entry.2 =
      [] := by
  unfold Divergence.ofObject
  by_cases wanted : entry.2.isWanted
  · have contents : Divergence.ofContents store
        (container.object entry.1 entry.2.properties.kind) entry.2 = [] := by
      cases compared : Validation.comparedBody? entry.2 with
      | none => exact Validation.of_contents_not_compared compared
      | some body =>
          obtain ⟨stored, data, hashed⟩ := wanted_contents_comparable coherent member wanted
            found entry.2.properties.kind compared
          rw [Validation.of_contents_compared compared stored hashed, data, if_pos rfl]
    subst sameLocation
    rw [seen_wanted coherent member wanted found, wanted, contents]
    dsimp only
    rw [ite_self, List.append_nil]
    exact wanted_properties_kept container.location entry.2 (ObjectPath.clean entry.1) _
  · rw [unseen_absent coherent member wanted sameLocation found,
      Bool.eq_false_iff.mpr wanted]

theorem object_comparable (coherent : Coherent location objects) (member : entry ∈ objects)
    (found : store.get? container.name =
      some (fill location (StoredContainer.created properties) objects)) (kind : EntityKind) :
    Validation.ObjectComparable store (container.object entry.1 kind) entry.2 := by
  intro wanted _ body compared
  obtain ⟨stored, _, hashed⟩ :=
    wanted_contents_comparable coherent member wanted found kind compared
  exact ⟨by rw [stored]; rfl, _, hashed⟩

end Stored

section Containers

variable {store : ServiceStore} {location : Location}

theorem container_agrees {container : ContainerHandle} {definition : ContainerDefinition}
    (coherent : Coherent location definition.objects.flatten.entries)
    (sameLocation : container.location = location)
    (found : store.get? container.name = populate location definition none) :
    Divergence.ofContainer store true container definition = [] ∧
      Validation.ContainerComparable store container definition := by
  unfold Divergence.ofContainer Validation.ContainerComparable
  unfold populate at found
  by_cases wanted : definition.isWanted
  · rw [if_pos wanted] at found
    have properties : Field.failures container.location.containerFields container.canonicalName
        definition.properties
        (fill location (StoredContainer.created definition.properties)
          definition.objects.flatten.entries).properties = [] := by
      rw [fill_properties]
      exact Field.failures_of_kept _ fun _ _ _ declared => declared
    constructor
    · rw [wanted, found]
      dsimp only [Option.getD_none]
      rw [properties, List.nil_append, List.flatMap_eq_nil_iff]
      intro entry member
      exact object_agrees coherent member sameLocation found
    · intro _ _ entry member
      exact object_comparable coherent member found _
  · rw [if_neg wanted] at found
    constructor
    · rw [Bool.eq_false_iff.mpr wanted, found]
    · intro yes
      exact absurd yes wanted

theorem containers_agree {service : ServiceHandle} {definition : ServiceDefinition}
    {progress : Progress} (sameLocation : service.location = location)
    (fresh : ∀ entry ∈ definition.containers.entries, progress.store.get? entry.1 = none)
    (coherent : ∀ entry ∈ definition.containers.entries,
      Coherent location entry.2.objects.flatten.entries)
    (stored : store = (definition.containers.entries.foldl
      (Progress.putContainer location service) progress).store) :
    ∀ entry ∈ definition.containers.entries,
      Divergence.ofContainer store true (service.container entry.1) entry.2 = [] ∧
        Validation.ContainerComparable store (service.container entry.1) entry.2 := by
  intro entry member
  have declared := (Table.get?_eq_some_iff definition.containers entry.1 entry.2).mpr member
  have found := put_containers_store location service definition progress entry.1
  rw [declared] at found
  dsimp only at found
  rw [fresh entry member, ← stored] at found
  exact container_agrees (coherent entry member) sameLocation found

theorem container_objects_agree {container : ContainerHandle} {definition : ContainerDefinition}
    {compareContents : Bool}
    (agrees : Divergence.ofContainer store compareContents container definition = [])
    (wanted : definition.isWanted) :
    (store.get? container.name).isSome ∧
      ∀ entry ∈ definition.objects.flatten.entries,
        Divergence.ofObject store compareContents
          (container.object entry.1 entry.2.properties.kind) entry.2 = [] := by
  unfold Divergence.ofContainer at agrees
  rw [wanted] at agrees
  cases found : store.get? container.name with
  | none =>
      rw [found] at agrees
      cases agrees
  | some stored =>
      rw [found] at agrees
      exact ⟨rfl, List.flatMap_eq_nil_iff.mp (List.append_eq_nil_iff.mp agrees).2⟩

theorem agrees_below (definition : Definition) (service : ServiceHandle) (source : NameSource)
    (agrees : ∀ entry ∈ (definition.lifted source).containers.entries,
      Divergence.ofContainer store true (service.container entry.1) entry.2 = [] ∧
        Validation.ContainerComparable store (service.container entry.1) entry.2) :
    divergences store true (definition.resourceBelow service source) definition = [] ∧
      Validation.Comparable store (definition.resourceBelow service source) definition := by
  cases definition with
  | service inner =>
      exact ⟨List.flatMap_eq_nil_iff.mpr fun entry member => (agrees entry member).1,
        fun entry member => (agrees entry member).2⟩
  | container inner => exact agrees _ (List.mem_singleton_self _)
  | object inner =>
      obtain ⟨clear, comparable⟩ := agrees _ (List.mem_singleton_self _)
      obtain ⟨isThere, objects⟩ := container_objects_agree clear rfl
      exact ⟨objects _ (List.mem_singleton_self _),
        comparable rfl isThere _ (List.mem_singleton_self _)⟩

end Containers

/-- Creating a definition below a service and validating the outcome with the same
definition finds nothing to record, contents included, if no container that the
definition addresses is there before and its objects do not contradict each other. -/
theorem create_then_validate (account : Account) (location : Location) (definition : Definition)
    (session : Session) (wet : session.context.settings.dryRun = false)
    (fresh : ∀ entry ∈ (definition.lifted session.context.names).containers.entries,
      (session.storage.store account location).get? entry.1 = none)
    (coherent : ∀ entry ∈ (definition.lifted session.context.names).containers.entries,
      Coherent location entry.2.objects.flatten.entries) :
    ∃ target created validated,
      create (.service (.memory account location)) definition session = .ok target created ∧
      validate target definition true created = .ok () validated ∧
      created.context.failures = session.context.failures ∧
      validated.context.failures = session.context.failures := by
  let lifted := definition.lifted session.context.names
  let service := ServiceHandle.memory account location
  obtain ⟨names, log, ranLift⟩ := Definition.lift_below_service definition session
  obtain ⟨bound, lowered⟩ := Definition.lower_lifted definition service session.context.names
  have readable : lifted.IsReadable := fun entry member _ object inside _ =>
    (coherent entry member).readable object inside
  obtain ⟨created, ranCreate, follows⟩ :=
    create_follows account location ranLift lowered readable
  have sameLocation : service.location = location := rfl
  have agrees := containers_agree sameLocation fresh coherent follows.store
  obtain ⟨clear, comparable⟩ := agrees_below definition service session.context.names agrees
  have context := follows.context
  have wetStill : created.context.settings.dryRun = false := by
    rw [context]
    exact wet
  obtain ⟨finished, ranValidate⟩ := Validation.validate_yields
    (Definition.resource_below_service definition service session.context.names)
    (Definition.resource_below_level definition service session.context.names) wetStill
    fun _ => comparable
  refine ⟨_, created, _, ranCreate, ranValidate, by rw [context], ?_⟩
  rw [clear, Context.with_no_failures, context]

/-- A folder, a file in it spelled with two slashes, and an object that must not be there. -/
theorem create_then_validate_folder :
    let account : Account := ⟨0, "account", .standard⟩
    let objects : Table ObjectDefinition := Table.ofList
      [("a", .folder), ("a//b", { body := some (.buffered [1]) }), ("z", { shouldExist := false })]
    let definition : Definition := .container { objects := .flat objects }
    let session : Session :=
      ⟨⟨"scenario", {}, .counting "n", [], []⟩, .fresh (.ofDirectories ⟨0⟩ []), []⟩
    ∃ target created validated,
      create (.service (.memory account .blobFs)) definition session = .ok target created ∧
      validate target definition true created = .ok () validated ∧
      validated.context.failures = [] := by
  intro account objects definition session
  have entries : objects.entries =
      [("a", .folder), ("a//b", { body := some (.buffered [1]) }),
        ("z", { shouldExist := false })] := by
    rfl
  have coherent : Coherent .blobFs objects.entries := by
    rw [entries]
    have bodies : ∀ entry ∈ [("a", .folder), ("a//b", { body := some (.buffered [1]) }),
        ("z", ({ shouldExist := false } : ObjectDefinition))],
        ∀ body, entry.2.body = some body → body = .buffered [1] := by
      simp [ObjectDefinition.folder, eq_comm]
    refine ⟨by decide +kernel, ?_, ?_, by decide +kernel, by decide +kernel⟩
    · intro entry member body declared
      rw [bodies entry member body declared]
      rfl
    · intro entry member body declared
      rw [bodies entry member body declared]
      rfl
  obtain ⟨target, created, validated, ranCreate, ranValidate, _, clean⟩ :=
    create_then_validate account .blobFs definition session rfl
      (fun entry member => by rfl)
      (fun entry member => by
        cases List.mem_singleton.mp member
        exact coherent)
  exact ⟨target, created, validated, ranCreate, ranValidate, clean⟩

end Creation

end StorageScenario
