import StorageScenario.Validation
import StorageScenario.Proofs.LevelAlgebra

/-!
The keys of a definition name what it describes. A definition inside another one is bound
to its key before anything is done with it, so the name that it carries itself is never
read: not by flattening, not by lifting and lowering, and not by the callbacks of a
creation or a validation. Only the name of the topmost definition counts, and that one
only where the definition has to be lifted.
-/

namespace StorageScenario

namespace ObjectDefinition

def withoutName (definition : ObjectDefinition) : ObjectDefinition :=
  { definition with name := none }

end ObjectDefinition

namespace Mapping

open ObjectDefinition

mutual

def withoutNames : Mapping → Mapping
  | .flat objects => .flat (objects.map withoutName)
  | .folder own children => .folder own.withoutName (childrenWithoutNames children)
  | .single object => .single object.withoutName
  | .under parent mapping => .under parent mapping.withoutNames
  | .overlay base upper => .overlay base.withoutNames upper.withoutNames

def childrenWithoutNames : List (String × Mapping) → List (String × Mapping)
  | [] => []
  | (name, child) :: rest => (name, child.withoutNames) :: childrenWithoutNames rest

end

theorem moved_map (change : ObjectDefinition → ObjectDefinition) (parent : String)
    (objects : Table ObjectDefinition) :
    moved parent (objects.map change) =
      (moved parent objects).map fun pair => (pair.1, change pair.2) := by
  unfold moved Table.map
  rw [List.map_map, List.map_map]
  rfl

mutual

theorem flatten_without_names :
    (mapping : Mapping) → mapping.withoutNames.flatten = mapping.flatten.map withoutName
  | .flat objects => rfl
  | .folder own children => by
      rw [withoutNames, flatten, flatten, flatten_children_without_names children,
        Table.map_extend]
      rfl
  | .single object => rfl
  | .under parent mapping => by
      rw [withoutNames, flatten, flatten, flatten_without_names mapping, moved_map,
        Table.map_of_list]
  | .overlay base upper => by
      rw [withoutNames, flatten, flatten, flatten_without_names base,
        flatten_without_names upper, Table.map_extend]
      rfl

theorem flatten_children_without_names : (children : List (String × Mapping)) →
    flattenChildren (childrenWithoutNames children) =
      (flattenChildren children).map fun pair => (pair.1, pair.2.withoutName)
  | [] => rfl
  | (name, child) :: rest => by
      rw [childrenWithoutNames, flattenChildren, flattenChildren, flatten_without_names child,
        flatten_children_without_names rest, moved_map, List.map_append]

end

mutual

theorem without_names_twice :
    (mapping : Mapping) → mapping.withoutNames.withoutNames = mapping.withoutNames
  | .flat objects => by
      rw [withoutNames, withoutNames, Table.map_map]
      rfl
  | .folder own children => by
      rw [withoutNames, withoutNames, children_without_names_twice children]
      rfl
  | .single object => rfl
  | .under parent mapping => by
      rw [withoutNames, withoutNames, without_names_twice mapping]
  | .overlay base upper => by
      rw [withoutNames, withoutNames, without_names_twice base, without_names_twice upper]

theorem children_without_names_twice : (children : List (String × Mapping)) →
    childrenWithoutNames (childrenWithoutNames children) = childrenWithoutNames children
  | [] => rfl
  | (name, child) :: rest => by
      rw [childrenWithoutNames, childrenWithoutNames, without_names_twice child,
        children_without_names_twice rest]

end

end Mapping

namespace ContainerDefinition

def withoutName (definition : ContainerDefinition) : ContainerDefinition :=
  { definition with name := none }

def withoutNestedNames (definition : ContainerDefinition) : ContainerDefinition :=
  { definition with objects := definition.objects.withoutNames }

def withoutNames (definition : ContainerDefinition) : ContainerDefinition :=
  definition.withoutNestedNames.withoutName

theorem without_nested_names_twice (definition : ContainerDefinition) :
    definition.withoutNestedNames.withoutNestedNames = definition.withoutNestedNames := by
  unfold withoutNestedNames
  rw [Mapping.without_names_twice]

theorem without_names_of_nested (definition : ContainerDefinition) :
    definition.withoutNestedNames.withoutNames = definition.withoutNames :=
  congrArg withoutName (without_nested_names_twice definition)

end ContainerDefinition

namespace ServiceDefinition

def withoutNestedNames (definition : ServiceDefinition) : ServiceDefinition :=
  { containers := definition.containers.map ContainerDefinition.withoutNames }

end ServiceDefinition

namespace Definition

def withoutName : Definition → Definition
  | .service inner => .service inner
  | .container inner => .container inner.withoutName
  | .object inner => .object inner.withoutName

def withoutNestedNames : Definition → Definition
  | .service inner => .service inner.withoutNestedNames
  | .container inner => .container inner.withoutNestedNames
  | .object inner => .object inner

def withoutNames (definition : Definition) : Definition :=
  definition.withoutNestedNames.withoutName

@[simp]
theorem level_without_name (definition : Definition) :
    definition.withoutName.level = definition.level := by
  cases definition <;> rfl

@[simp]
theorem level_without_nested_names (definition : Definition) :
    definition.withoutNestedNames.level = definition.level := by
  cases definition <;> rfl

@[simp]
theorem level_without_names (definition : Definition) :
    definition.withoutNames.level = definition.level :=
  (level_without_name _).trans (level_without_nested_names definition)

theorem check_level_of_same_level {first second : Definition} (same : first.level = second.level)
    (resource : Resource) : first.checkLevel resource = second.checkLevel resource := by
  unfold checkLevel
  rw [same]

end Definition

namespace Callbacks

variable {σ : Type}

/-- The callbacks do not read any name in a definition. -/
structure Blind (callbacks : Callbacks σ) : Prop where
  own : ∀ resource definition,
    callbacks.invoke resource (Definition.withoutName definition) =
      callbacks.invoke resource definition
  nested : ∀ resource definition,
    callbacks.invoke resource (Definition.withoutNestedNames definition) =
      callbacks.invoke resource definition

section Visits

variable {callbacks : Callbacks σ} {resource : Resource}

theorem visit_of_same_call (first second : Definition) (sameLevel : first.level = second.level)
    (sameCall : callbacks.invoke resource first = callbacks.invoke resource second)
    (children : EStateM ScenarioError σ Unit) :
    callbacks.visit resource first children = callbacks.visit resource second children := by
  unfold visit
  rw [sameCall, Definition.check_level_of_same_level sameLevel]

end Visits

variable {callbacks : Callbacks σ} (blind : callbacks.Blind)
include blind

/-- The name of a definition is only for the callbacks. -/
theorem traverse_without_name (definition : Definition) (resource : Resource) :
    definition.withoutName.traverse callbacks resource =
      definition.traverse callbacks resource := by
  have same := visit_of_same_call _ _ definition.level_without_name (blind.own resource definition)
  cases definition with
  | service inner => rfl
  | container inner => exact same _
  | object inner => exact same _

theorem visit_container_without_nested_names (definition : ContainerDefinition)
    (resource : Resource) :
    callbacks.visitContainer resource definition.withoutNestedNames =
      callbacks.visitContainer resource definition := by
  have children : definition.withoutNestedNames.objects.flatten.entries =
      definition.objects.flatten.entries.map fun entry => (entry.1, entry.2.withoutName) :=
    congrArg Table.entries (Mapping.flatten_without_names definition.objects)
  unfold visitContainer
  rw [children, List.forM_eq_forM, List.forM_map]
  exact visit_of_same_call (.container definition.withoutNestedNames) (.container definition) rfl
    (blind.nested resource (.container definition)) _

theorem visit_service_without_nested_names (definition : ServiceDefinition)
    (resource : Resource) :
    callbacks.visitService resource definition.withoutNestedNames =
      callbacks.visitService resource definition := by
  have children : definition.withoutNestedNames.containers.entries =
      definition.containers.entries.map fun entry =>
        (entry.1, entry.2.withoutNames) := rfl
  have bound : ∀ child (entry : String × ContainerDefinition),
      callbacks.visitContainer child (entry.2.withoutNames.boundTo entry.1) =
        callbacks.visitContainer child (entry.2.boundTo entry.1) :=
    fun child entry => visit_container_without_nested_names blind (entry.2.boundTo entry.1) child
  unfold visitService
  rw [children, List.forM_eq_forM, List.forM_map]
  simp only [bound]
  exact visit_of_same_call (.service definition.withoutNestedNames) (.service definition) rfl
    (blind.nested resource (.service definition)) _

theorem traverse_without_nested_names (definition : Definition) (resource : Resource) :
    definition.withoutNestedNames.traverse callbacks resource =
      definition.traverse callbacks resource := by
  cases definition with
  | service inner => exact visit_service_without_nested_names blind inner resource
  | container inner => exact visit_container_without_nested_names blind inner resource
  | object inner => rfl

theorem traverse_without_names (definition : Definition) (resource : Resource) :
    definition.withoutNames.traverse callbacks resource =
      definition.traverse callbacks resource :=
  (traverse_without_name blind _ resource).trans
    (traverse_without_nested_names blind definition resource)

end Callbacks

theorem Creation.callbacks_blind : Creation.callbacks.Blind where
  own resource definition := by cases definition <;> rfl
  nested resource definition := by cases definition <;> rfl

theorem Validation.callbacks_blind (compareContents : Bool) :
    (Validation.callbacks compareContents).Blind where
  own resource definition := by cases definition <;> rfl
  nested resource definition := by cases definition <;> rfl

namespace Definition

theorem single_entry_map {α β : Type} (change : α → β) (level : Level) (table : Table α) :
    singleEntry level (table.map change) =
      (singleEntry level table).map fun entry => (entry.1, change entry.2) := by
  obtain ⟨entries, ordered⟩ := table
  rcases entries with _ | ⟨entry, _ | ⟨second, others⟩⟩
  · rfl
  · rfl
  · simp [singleEntry, Table.single?, Table.size, Table.map, Except.map]

theorem without_nested_names_twice (definition : Definition) :
    definition.withoutNestedNames.withoutNestedNames = definition.withoutNestedNames := by
  cases definition with
  | service inner =>
      have twice : ContainerDefinition.withoutNames ∘ ContainerDefinition.withoutNames =
          ContainerDefinition.withoutNames :=
        funext fun nested => nested.without_names_of_nested
      have containers := Table.map_map ContainerDefinition.withoutNames
        ContainerDefinition.withoutNames inner.containers
      rw [twice] at containers
      exact congrArg (fun table => Definition.service ⟨table⟩) containers
  | container inner => exact congrArg Definition.container inner.without_nested_names_twice
  | object inner => rfl

theorem wrap_without_nested_names (definition : Definition) (name : String) :
    (definition.withoutNestedNames.wrap name).map withoutNestedNames =
      (definition.wrap name).map withoutNestedNames := by
  cases definition with
  | service inner => rfl
  | container inner =>
      have same := (inner.boundTo name).without_names_of_nested
      exact congrArg (fun nested => Except.ok (service ⟨Table.singleton name nested⟩)) same
  | object inner => rfl

/-- A lifting reads the name of the definition that it lifts and no other. -/
theorem lift_without_nested_names (definition : Definition) :
    withoutNestedNames <$> definition.withoutNestedNames.lift =
      withoutNestedNames <$> definition.lift := by
  have sameName : definition.withoutNestedNames.name? = definition.name? := by
    cases definition <;> rfl
  have map_check : ∀ result : Except ScenarioError Definition,
      withoutNestedNames <$> (Work.check result : Work Definition) =
        Work.check (result.map withoutNestedNames) := by
    intro result
    cases result <;> rfl
  unfold lift
  rw [level_without_nested_names, sameName]
  cases definition.level.parent? with
  | none => rfl
  | some parent =>
      cases definition.name? <;> simp only [map_bind, map_check, wrap_without_nested_names]

theorem lift_times_without_nested_names (count : Nat) (definition : Definition) :
    withoutNestedNames <$> liftTimes count definition.withoutNestedNames =
      withoutNestedNames <$> liftTimes count definition := by
  induction count generalizing definition with
  | zero =>
      simp only [liftTimes, map_pure, without_nested_names_twice]
  | succ count ih =>
      -- by induction the rest of the lifting does not see the nested names of a wrapper
      calc withoutNestedNames <$> liftTimes (count + 1) definition.withoutNestedNames
          = definition.withoutNestedNames.lift >>= fun lifted =>
              withoutNestedNames <$> liftTimes count lifted := by
            simp only [liftTimes, map_bind]
        _ = (withoutNestedNames <$> definition.withoutNestedNames.lift) >>= fun lifted =>
              withoutNestedNames <$> liftTimes count lifted := by
            simp only [bind_map_left, ih]
        _ = (withoutNestedNames <$> definition.lift) >>= fun lifted =>
              withoutNestedNames <$> liftTimes count lifted := by
            rw [lift_without_nested_names]
        _ = withoutNestedNames <$> liftTimes (count + 1) definition := by
            simp only [bind_map_left, ih, liftTimes, map_bind]

def unnamed (below : Resource × Definition) : Resource × Definition :=
  (below.1, below.2.withoutNames)

theorem lower_without_names (definition : Definition) (resource : Resource) :
    unnamed <$> definition.withoutNames.lower resource =
      unnamed <$> definition.lower resource := by
  have sameLevel := check_level_of_same_level definition.level_without_names resource
  cases definition with
  | service inner =>
      have single : singleEntry .service inner.withoutNestedNames.containers = _ :=
        single_entry_map ContainerDefinition.withoutNames .service inner.containers
      change (service inner.withoutNestedNames).checkLevel resource = _ at sameLevel
      change unnamed <$> (service inner.withoutNestedNames).lower resource = _
      simp only [lower, sameLevel, single]
      cases (service inner).checkLevel resource with
      | error error => rfl
      | ok passed =>
          cases singleEntry .service inner.containers with
          | error error => rfl
          | ok entry =>
              have same := (entry.2.boundTo entry.1).without_names_of_nested
              simp only [Functor.map, Except.map, bind, Except.bind]
              cases resource.child entry.1 .file with
              | error error => rfl
              | ok child => exact congrArg (fun nested => Except.ok (child, container nested)) same
  | container inner =>
      have single := single_entry_map ObjectDefinition.withoutName .container inner.objects.flatten
      have flattened : inner.withoutNames.objects.flatten = _ :=
        Mapping.flatten_without_names inner.objects
      change (container inner.withoutNames).checkLevel resource = _ at sameLevel
      change unnamed <$> (container inner.withoutNames).lower resource = _
      simp only [lower, sameLevel, flattened, single]
      cases (container inner).checkLevel resource with
      | error error => rfl
      | ok passed =>
          cases singleEntry .container inner.objects.flatten with
          | error error => rfl
          | ok entry => rfl
  | object inner =>
      change unnamed <$> (object inner.withoutName).lower resource = _
      change (object inner.withoutName).checkLevel resource = _ at sameLevel
      simp only [lower, sameLevel]

theorem lower_times_without_names (count : Nat) (definition : Definition) (resource : Resource) :
    Prod.fst <$> lowerTimes count definition.withoutNames resource =
      Prod.fst <$> lowerTimes count definition resource := by
  induction count generalizing definition resource with
  | zero => rfl
  | succ count ih =>
      calc Prod.fst <$> lowerTimes (count + 1) definition.withoutNames resource
          = definition.withoutNames.lower resource >>= fun below =>
              Prod.fst <$> lowerTimes count below.2 below.1 := by
            simp only [lowerTimes, map_bind]
        _ = (unnamed <$> definition.withoutNames.lower resource) >>= fun below =>
              Prod.fst <$> lowerTimes count below.2 below.1 := by
            simp only [bind_map_left, unnamed, ih]
        _ = (unnamed <$> definition.lower resource) >>= fun below =>
              Prod.fst <$> lowerTimes count below.2 below.1 := by
            rw [lower_without_names]
        _ = Prod.fst <$> lowerTimes (count + 1) definition resource := by
            simp only [bind_map_left, unnamed, ih, lowerTimes, map_bind]

end Definition

namespace Creation

/-- What is done with a definition after it has been lifted. -/
def finish (base : Resource) (level : Level) (steps : Nat) (lifted : Definition) :
    Work Resource := do
  Work.note .debug ("lifted " ++ level.name ++ " definition " ++ toString steps ++
    " time(s) to match " ++ base.canonicalName)
  lifted.traverse callbacks base
  let lowered ← Work.check (Definition.lowerTimes steps lifted base)
  Work.note .info ("created " ++ level.name ++ " " ++ lowered.1.canonicalName)
  return lowered.1

theorem create_eq_finish {base : Resource} {definition : Definition}
    (shallow : base.level ≤ definition.level) :
    create base definition =
      Definition.liftTimes (definition.level.depth - base.level.depth) definition >>=
        finish base definition.level (definition.level.depth - base.level.depth) :=
  if_neg (Nat.not_lt.mpr shallow)

/-- The resource that was asked for is found by keys, whatever the names are. -/
theorem finish_without_names (base : Resource) (level : Level) (steps : Nat)
    (lifted : Definition) :
    finish base level steps lifted.withoutNames = finish base level steps lifted := by
  have onlyResource : ∀ lowered : Except ScenarioError (Resource × Definition),
      (do
        let below ← Work.check lowered
        Work.note .info ("created " ++ level.name ++ " " ++ below.1.canonicalName)
        return below.1 : Work Resource) = (do
        let reached ← Work.check (Prod.fst <$> lowered)
        Work.note .info ("created " ++ level.name ++ " " ++ reached.canonicalName)
        return reached) := by
    intro lowered
    cases lowered <;> rfl
  unfold finish
  simp only [Callbacks.traverse_without_names callbacks_blind, onlyResource,
    Definition.lower_times_without_names]

theorem finish_without_nested_names (base : Resource) (level : Level) (steps : Nat)
    (lifted : Definition) :
    finish base level steps lifted.withoutNestedNames = finish base level steps lifted := by
  rw [← finish_without_names base level steps lifted.withoutNestedNames,
    ← finish_without_names base level steps lifted]
  exact congrArg (fun nested => finish base level steps (Definition.withoutName nested))
    lifted.without_nested_names_twice

theorem create_without_nested_names (base : Resource) (definition : Definition) :
    create base definition.withoutNestedNames = create base definition := by
  have sameLevel := definition.level_without_nested_names
  by_cases shallow : base.level ≤ definition.level
  · let steps := definition.level.depth - base.level.depth
    rw [create_eq_finish shallow, create_eq_finish (sameLevel.symm ▸ shallow), sameLevel]
    calc Definition.liftTimes steps definition.withoutNestedNames >>=
          finish base definition.level steps
        = (Definition.withoutNestedNames <$>
              Definition.liftTimes steps definition.withoutNestedNames) >>=
            finish base definition.level steps := by
          simp only [bind_map_left, finish_without_nested_names]
      _ = (Definition.withoutNestedNames <$> Definition.liftTimes steps definition) >>=
            finish base definition.level steps := by
          rw [Definition.lift_times_without_nested_names]
      _ = Definition.liftTimes steps definition >>= finish base definition.level steps := by
          simp only [bind_map_left, finish_without_nested_names]
  · funext session
    rw [create_deeper shallow, create_deeper (sameLevel.symm ▸ shallow), sameLevel]

/-- At the level of its base a definition is not lifted, and its own name is not read either. -/
theorem create_without_names {base : Resource} {definition : Definition}
    (sameLevel : base.level = definition.level) :
    create base definition.withoutNames = create base definition := by
  have shallow : base.level ≤ definition.level := Nat.le_of_eq (congrArg Level.depth sameLevel)
  have namesLevel := definition.level_without_names
  have noSteps : definition.level.depth - base.level.depth = 0 := by
    rw [sameLevel, Nat.sub_self]
  rw [create_eq_finish shallow, create_eq_finish (namesLevel.symm ▸ shallow), namesLevel, noSteps]
  simp only [Definition.liftTimes, pure_bind, finish_without_names]

end Creation

theorem Validation.validate_without_names (target : Resource) (definition : Definition)
    (compareContents : Bool) :
    validate target definition.withoutNames compareContents =
      validate target definition compareContents := by
  unfold validate
  simp only [Definition.check_level_of_same_level definition.level_without_names target,
    Callbacks.traverse_without_names (callbacks_blind compareContents)]

/-- The keys name what is inside a definition. Two definitions that only differ in names
inside them create the same: the outcome, the storage, what is tracked, the names that are
taken and even the log are the same, on any base. At the level of the base they may differ
in their own names too. And a validation does not tell definitions apart that only differ
in names. -/
theorem keys_are_authoritative (first second : Definition) :
    (first.withoutNestedNames = second.withoutNestedNames → ∀ base session,
      create base first session = create base second session) ∧
    (first.withoutNames = second.withoutNames →
      (∀ base session, base.level = first.level →
        create base first session = create base second session) ∧
      ∀ target compareContents session,
        validate target first compareContents session =
          validate target second compareContents session) := by
  refine ⟨?_, ?_⟩
  · intro same base session
    rw [← Creation.create_without_nested_names base first, same,
      Creation.create_without_nested_names]
  · intro same
    have sameLevel : first.level = second.level := by
      rw [← first.level_without_names, same, second.level_without_names]
    refine ⟨?_, ?_⟩
    · intro base session atLevel
      rw [← Creation.create_without_names atLevel, same,
        Creation.create_without_names (atLevel.trans sameLevel)]
    · intro target compareContents session
      rw [← Validation.validate_without_names target first, same,
        Validation.validate_without_names]

/-- Wrong names at every place where a mapping can hold one. -/
theorem keys_are_authoritative_misnamed :
    let named (own nested : Option String) : Definition := .container
      { name := own
        objects := .overlay
          (.folder { name := nested } [("a", .single { name := nested })])
          (.under "d" (.flat (Table.singleton "e" { name := nested }))) }
    let service : ServiceHandle := .memory ⟨0, "account", .hierarchicalNamespace⟩ .blobFs
    let container : Resource := .container (service.container "real")
    let session : Session :=
      ⟨⟨"scenario", {}, .counting "n", [], []⟩, .fresh (.ofDirectories ⟨0⟩ []), []⟩
    ((named (some "c") (some "x")).withoutNestedNames =
        (named (some "c") none).withoutNestedNames ∧
      create (.service service) (named (some "c") (some "x")) session =
        create (.service service) (named (some "c") none) session) ∧
    ((named (some "c") (some "x")).withoutNames = (named none none).withoutNames ∧
      container.level = (named (some "c") (some "x")).level ∧
      create container (named (some "c") (some "x")) session =
        create container (named none none) session ∧
      validate container (named (some "c") (some "x")) true session =
        validate container (named none none) true session) ∧
    (Work.left (create container (named (some "c") (some "x"))) session).context.created.map
        Resource.canonicalName =
      ["account/blobfs/real", "account/blobfs/real", "account/blobfs/real/a",
        "account/blobfs/real/d/e"] := by
  intro named service container session
  have nestedOnly : (named (some "c") (some "x")).withoutNestedNames =
      (named (some "c") none).withoutNestedNames := rfl
  have allNames : (named (some "c") (some "x")).withoutNames = (named none none).withoutNames :=
    rfl
  have sameLevel : container.level = (named (some "c") (some "x")).level := rfl
  have agree := (keys_are_authoritative (named (some "c") (some "x")) (named none none)).2 allNames
  refine ⟨⟨nestedOnly, (keys_are_authoritative _ _).1 nestedOnly _ session⟩, ?_,
    by decide +kernel⟩
  exact ⟨allNames, sameLevel, agree.1 container session sameLevel,
    agree.2 container true session⟩

end StorageScenario
