import StorageScenario.Proofs.CleanupRun
import StorageScenario.Proofs.CreationSteps

/-!
What is tracked accounts for what was done. At every point at which a creation can end,
a container that is tracked was not there before the creation, and one that was there
is changed only at the paths of tracked objects, where it holds objects of the kinds
tracked last.
-/

namespace StorageScenario.Cleanup

open Creation Work

section Tracking

def kindAt? (name path : String) (resource : Resource) : Option EntityKind :=
  match resource with
  | .object handle =>
      if handle.container.name = name ∧ handle.path = path then some handle.kind else none
  | _ => none

def kindsAt (created : List Resource) (name path : String) : List EntityKind :=
  created.filterMap (kindAt? name path)

theorem kinds_at_append (first second : List Resource) (name path : String) :
    kindsAt (first ++ second) name path = kindsAt first name path ++ kindsAt second name path :=
  List.filterMap_append

theorem kinds_at_reverse (created : List Resource) (name path : String) :
    kindsAt created.reverse name path = (kindsAt created name path).reverse :=
  List.filterMap_reverse

theorem kinds_at_cons (head : Resource) (rest : List Resource) (name path : String) :
    kindsAt (head :: rest) name path =
      (kindAt? name path head).toList ++ kindsAt rest name path := by
  unfold kindsAt
  rw [List.filterMap_cons]
  cases kindAt? name path head <;> rfl

end Tracking

/-- A container that was there before a creation, as it is at some point of it. -/
structure Overlaid (created : List Resource) (name : String) (old now : StoredContainer) :
    Prop where
  others : ∀ path, kindsAt created name path = [] →
    now.objects.get? path = old.objects.get? path
  latest : ∀ path kind, path ≠ "" → (kindsAt created name path).getLast? = some kind →
    ∃ object, now.objects.get? path = some object ∧ object.properties.kind = kind

section Overlaying

variable {created : List Resource} {name : String} {old now : StoredContainer}

theorem kind_at_elsewhere {resource : Resource}
    (apart : containerName? resource ≠ some name) (path : String) :
    kindAt? name path resource = none := by
  cases resource with
  | service handle => rfl
  | container handle => rfl
  | object handle => exact if_neg fun here => apart (congrArg some here.1)

theorem overlaid_elsewhere {added : Resource} (laid : Overlaid created name old now)
    (apart : containerName? added ≠ some name) : Overlaid (created ++ [added]) name old now := by
  have sameKinds : ∀ path,
      kindsAt (created ++ [added]) name path = kindsAt created name path := by
    intro path
    rw [kinds_at_append, kinds_at_cons, kind_at_elsewhere apart]
    exact List.append_nil _
  constructor
  · intro path
    rw [sameKinds]
    exact laid.others path
  · intro path kind
    rw [sameKinds]
    exact laid.latest path kind

theorem overlaid_put {handle : ObjectHandle} {path : String} {object : StoredObject}
    (laid : Overlaid created name old now) (inside : handle.container.name = name)
    (atPath : handle.path = path) (sameKind : object.properties.kind = handle.kind) :
    Overlaid (created ++ [.object handle]) name old (now.putObject path object) := by
  have kindsThere : ∀ other, kindsAt (created ++ [.object handle]) name other =
      kindsAt created name other ++ if path = other then [handle.kind] else [] := by
    intro other
    rw [kinds_at_append, kinds_at_cons]
    by_cases same : path = other <;> simp [kindAt?, kindsAt, inside, atPath, same]
  constructor
  · intro other noKinds
    rw [kindsThere, List.append_eq_nil_iff] at noKinds
    have different : other ≠ path := by
      intro same
      simp [same] at noKinds
    rw [← laid.others other noKinds.1]
    unfold StoredContainer.putObject
    split
    next => rfl
    next => rw [Table.get?_insert, if_neg different]
  · intro other kind notRoot last
    rw [kindsThere] at last
    by_cases same : path = other
    · subst same
      have isLast : handle.kind = kind := by simpa using last
      refine ⟨object, ?_, sameKind.trans isLast⟩
      simp [StoredContainer.putObject, notRoot]
    · obtain ⟨found, present, itsKind⟩ :=
        laid.latest other kind notRoot (by simpa [same] using last)
      refine ⟨found, ?_, itsKind⟩
      unfold StoredContainer.putObject
      split
      next => exact present
      next => rw [Table.get?_insert, if_neg (Ne.symm same), present]

end Overlaying

/-- The tracked resources account for what has happened to the store. -/
structure Accounted (account : Account) (location : Location) (inside : String → Prop)
    (old : ServiceStore) (progress : Progress) : Prop where
  removable : ∀ resource ∈ progress.created, Removable account location resource
  allowed : ∀ resource ∈ progress.created, ∀ name, containerName? resource = some name →
    inside name
  isNew : ∀ handle, .container handle ∈ progress.created → old.get? handle.name = none
  opened : ∀ resource ∈ progress.created, ∀ name, containerName? resource = some name →
    old.get? name = none →
      ∃ handle, .container handle ∈ progress.created ∧ handle.name = name
  untouched : ∀ name,
    (∀ resource ∈ progress.created, containerName? resource ≠ some name) →
    progress.store.get? name = old.get? name
  overlaid : ∀ name stored, old.get? name = some stored →
    ∃ now, progress.store.get? name = some now ∧ Overlaid progress.created name stored now

section Accounting

variable {account : Account} {location : Location} {inside : String → Prop} {old : ServiceStore}
  {progress next : Progress}

theorem accounted_start (old : ServiceStore) :
    Accounted account location inside old ⟨old, []⟩ where
  removable _ member := nomatch member
  allowed _ member := nomatch member
  isNew _ member := nomatch member
  opened _ member := nomatch member
  untouched _ _ := rfl
  overlaid _ stored found := ⟨stored, found, fun _ _ => rfl, fun _ _ _ latest => nomatch latest⟩

theorem accounted_add {name : String} {added : Resource} {content : StoredContainer}
    (accounted : Accounted account location inside old progress)
    (removable : Removable account location added) (touches : containerName? added = some name)
    (allowed : inside name)
    (isNew : ∀ handle, added = .container handle → old.get? name = none)
    (opened : old.get? name = none →
      ∃ handle, .container handle ∈ progress.created ++ [added] ∧ handle.name = name)
    (overlaid : ∀ stored, old.get? name = some stored →
      Overlaid (progress.created ++ [added]) name stored content) :
    Accounted account location inside old
      ⟨progress.store.insert name content, progress.created ++ [added]⟩ where
  removable := List.forall_mem_append.mpr ⟨accounted.removable, by simpa using removable⟩
  allowed := List.forall_mem_append.mpr ⟨accounted.allowed, by simpa [touches] using allowed⟩
  isNew handle member := by
    rcases List.mem_append.mp member with earlier | last
    · exact accounted.isNew handle earlier
    · have same := List.mem_singleton.mp last
      rw [← same] at touches
      have sameName : handle.name = name := Option.some.inj touches
      rw [sameName]
      exact isNew handle same.symm
  opened := by
    refine List.forall_mem_append.mpr ⟨?_, by simpa [touches] using opened⟩
    intro resource member other touched missing
    obtain ⟨handle, tracked, same⟩ := accounted.opened resource member other touched missing
    exact ⟨handle, List.mem_append_left _ tracked, same⟩
  untouched other apart := by
    have different : other ≠ name := fun same => apart added (by simp) (same ▸ touches)
    rw [Table.get?_insert, if_neg different]
    exact accounted.untouched other fun resource member =>
      apart resource (List.mem_append_left _ member)
  overlaid other stored found := by
    by_cases same : other = name
    · subst same
      exact ⟨content, by simp, overlaid stored found⟩
    · obtain ⟨now, present, laid⟩ := accounted.overlaid other stored found
      have apart : containerName? added ≠ some other := by
        rw [touches]
        exact fun equal => same (Option.some.inj equal).symm
      refine ⟨now, ?_, overlaid_elsewhere laid apart⟩
      rw [Table.get?_insert, if_neg same, present]

theorem accounted_container {name : String} (properties : ContainerProperties)
    (accounted : Accounted account location inside old progress) (allowed : inside name)
    (isNew : progress.store.get? name = none) :
    Accounted account location inside old
      ⟨progress.store.insert name (StoredContainer.created properties),
        progress.created ++ [.container ⟨.memory account location, name⟩]⟩ := by
  have absent : old.get? name = none := by
    cases found : old.get? name with
    | none => rfl
    | some stored =>
        obtain ⟨now, present, _⟩ := accounted.overlaid name stored found
        rw [isNew] at present
        cases present
  apply accounted_add accounted ⟨rfl, by simp [Resource.level]⟩ rfl allowed
  · exact fun _ _ => absent
  · exact fun _ => ⟨⟨.memory account location, name⟩, by simp, rfl⟩
  · intro stored found
    rw [absent] at found
    cases found

theorem accounted_object {name path : String} {kind : EntityKind} {stored : StoredContainer}
    {object : StoredObject} (accounted : Accounted account location inside old progress)
    (allowed : inside name) (found : progress.store.get? name = some stored)
    (sameKind : object.properties.kind = kind) :
    Accounted account location inside old
      ⟨progress.store.insert name (stored.putObject path object),
        progress.created ++
          [.object ⟨⟨.memory account location, name⟩, path, kind⟩]⟩ := by
  apply accounted_add accounted ⟨rfl, by simp [Resource.level]⟩ rfl allowed
  · intro handle same
    cases same
  · -- What is stored in the container now was put there by the creation itself.
    intro missing
    by_cases touched : ∃ resource ∈ progress.created, containerName? resource = some name
    · obtain ⟨resource, member, touches⟩ := touched
      obtain ⟨handle, tracked, same⟩ := accounted.opened resource member name touches missing
      exact ⟨handle, List.mem_append_left _ tracked, same⟩
    · have unchanged := accounted.untouched name fun resource member touches =>
        touched ⟨resource, member, touches⟩
      rw [found, missing] at unchanged
      cases unchanged
  · intro before foundOld
    obtain ⟨now, present, laid⟩ := accounted.overlaid name before foundOld
    rw [found] at present
    cases present
    exact overlaid_put laid rfl rfl sameKind

theorem accounted_step
    (accounted : Accounted account location inside old progress)
    (step : Creation.Step (.memory account location) inside progress next) :
    Accounted account location inside old next := by
  cases step with
  | container properties allowed isNew =>
      exact accounted_container properties accounted allowed isNew
  | object path kind object allowed found sameKind =>
      exact accounted_object accounted allowed found sameKind

theorem accounted_steps {start : Progress} (untracked : start.created = [])
    (steps : Steps (.memory account location) inside start progress) :
    Accounted account location inside start.store progress := by
  induction steps with
  | refl =>
      obtain ⟨store, created⟩ := start
      cases untracked
      exact accounted_start store
  | tail _ step ih => exact accounted_step ih step

end Accounting

end StorageScenario.Cleanup
