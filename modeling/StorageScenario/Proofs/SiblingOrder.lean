import Mathlib.Data.List.Nodup
import StorageScenario.Proofs.CreationStop

/-!
Siblings in any order. Two objects with different paths do not touch each other's
place in a container, and two containers do not touch each other's place in a service.
So every pair of neighbouring creations may be swapped, and with that a whole list of
them may be permuted.
-/

namespace StorageScenario

/-- Where rounds with different marks may be swapped and no mark occurs twice, the order
of a loop does not matter. -/
theorem foldl_in_any_order {σ α : Type} {step : σ → α → σ} {mark : α → String}
    (swap : ∀ state first second, mark first ≠ mark second →
      step (step state first) second = step (step state second) first)
    {entries order : List α} (distinct : (entries.map mark).Nodup) (permuted : order.Perm entries)
    (state : σ) : order.foldl step state = entries.foldl step state := by
  have orderDistinct : (order.map mark).Nodup := (permuted.map mark).nodup_iff.mpr distinct
  apply permuted.foldl_eq'
  intro first inFirst second inSecond between
  by_cases sameMark : mark first = mark second
  · rw [List.inj_on_of_nodup_map orderDistinct inFirst inSecond sameMark]
  · exact swap between first second sameMark

namespace StoredContainer

/-- The root folder is a place of its own. -/
theorem put_object_comm (stored : StoredContainer) {first second : String}
    (apart : first ≠ second) (object other : StoredObject) :
    (stored.putObject first object).putObject second other =
      (stored.putObject second other).putObject first object := by
  unfold putObject
  by_cases firstAtRoot : first = ""
  · have secondBelow : second ≠ "" := fun atRoot => apart (firstAtRoot.trans atRoot.symm)
    simp only [if_pos firstAtRoot, if_neg secondBelow]
  · by_cases secondAtRoot : second = ""
    · simp only [if_neg firstAtRoot, if_pos secondAtRoot]
    · simp only [if_neg firstAtRoot, if_neg secondAtRoot]
      rw [Table.insert_comm _ apart]

end StoredContainer

namespace Creation

open Work

theorem place_object_comm (location : Location) (stored : StoredContainer)
    (first second : String × ObjectDefinition)
    (apart : ObjectPath.clean first.1 ≠ ObjectPath.clean second.1) :
    placeObject location (placeObject location stored first) second =
      placeObject location (placeObject location stored second) first := by
  unfold placeObject
  cases first.2.isWanted with
  | false => simp only [Bool.false_eq_true, if_false]
  | true =>
      cases second.2.isWanted with
      | false => simp only [Bool.false_eq_true, if_false]
      | true => exact stored.put_object_comm apart _ _

theorem fill_in_any_order (location : Location) (stored : StoredContainer)
    {objects order : List (String × ObjectDefinition)}
    (distinct : (objects.map fun entry => ObjectPath.clean entry.1).Nodup)
    (permuted : order.Perm objects) : fill location stored order = fill location stored objects :=
  foldl_in_any_order (place_object_comm location) distinct permuted stored

def populateIn (location : Location) (store : ServiceStore)
    (entry : String × ContainerDefinition) : ServiceStore :=
  match populate location entry.2 (store.get? entry.1) with
  | some stored => store.insert entry.1 stored
  | none => store

theorem populate_in_get? (location : Location) (store : ServiceStore)
    (entry : String × ContainerDefinition) (key : String) :
    (populateIn location store entry).get? key =
      if key = entry.1 then populate location entry.2 (store.get? key) else store.get? key := by
  unfold populateIn
  cases populated : populate location entry.2 (store.get? entry.1) with
  | some stored =>
      dsimp only
      rw [Table.get?_insert]
      by_cases same : key = entry.1
      · rw [if_pos same, if_pos same, same, populated]
      · rw [if_neg same, if_neg same]
  | none =>
      by_cases same : key = entry.1
      · subst same
        unfold populate at populated ⊢
        by_cases wanted : entry.2.isWanted
        · rw [if_pos wanted] at populated
          cases populated
        · rw [if_pos rfl, if_neg wanted]
      · rw [if_neg same]

theorem populate_in_comm (location : Location) (store : ServiceStore)
    (first second : String × ContainerDefinition) (apart : first.1 ≠ second.1) :
    populateIn location (populateIn location store first) second =
      populateIn location (populateIn location store second) first := by
  apply Table.eq_of_get?
  intro key
  simp only [populate_in_get?]
  by_cases atFirst : key = first.1
  · have notSecond : key ≠ second.1 := atFirst ▸ apart
    simp only [if_pos atFirst, if_neg notSecond]
  · simp only [if_neg atFirst]

theorem put_container_populates (location : Location) (service : ServiceHandle)
    (progress : Progress) (entry : String × ContainerDefinition) :
    (progress.putContainer location service entry).store =
      populateIn location progress.store entry := by
  apply Table.eq_of_get?
  intro key
  rw [put_container_store, populate_in_get?]

variable {account : Account} {location : Location}

theorem follows_start (session : Session) :
    Follows account location session session (progressOf account location session) :=
  ⟨rfl, Storage.same_elsewhere_refl account location session.storage, rfl⟩

theorem objects_made (session : Session) {name : String} {stored : StoredContainer}
    {objects order : List (String × ObjectDefinition)}
    (found : (session.storage.store account location).get? name = some stored)
    (distinct : (objects.map fun entry => ObjectPath.clean entry.1).Nodup)
    (readable : ∀ entry ∈ objects, entry.2.isWanted → entry.2.IsReadable)
    (permuted : order.Perm objects) :
    ∃ after,
      objectsInOrder ⟨.memory account location, name⟩ order session = .ok () after ∧
      after.storage.store account location =
        (session.storage.store account location).insert name (fill location stored objects) ∧
      session.storage.SameElsewhere account location after.storage := by
  obtain ⟨after, ran, follows, _⟩ := forM_follows
    (fun state progress => Follows account location session state progress ∧ Holds progress name)
    order
    (fun entry member before progress together =>
      visit_object_follows entry together.1 together.2
        (readable entry (permuted.mem_iff.mp member)))
    ⟨follows_start session, stored, found⟩
  refine ⟨after, ran, ?_, follows.elsewhere⟩
  rw [follows.store]
  apply Table.eq_of_get?
  intro key
  rw [put_objects_store, Table.get?_insert]
  split
  next same =>
    subst same
    change Option.map _ ((session.storage.store account location).get? key) = _
    rw [found, Option.map_some, fill_in_any_order location stored distinct permuted]
  next _ => rfl

def containerBelow (service : ServiceHandle) (entry : String × ContainerDefinition) :
    Work Unit := do
  let child ← check ((Resource.service service).child entry.1 .file)
  callbacks.visitContainer child (entry.2.boundTo entry.1)

def containersInOrder (service : ServiceHandle)
    (containers : List (String × ContainerDefinition)) : Work Unit :=
  containers.forM (containerBelow service)

/-- A walk takes the children of a definition in one of their orders, that of their keys. -/
theorem walk_in_key_order (container : ContainerHandle) (inside : ContainerDefinition)
    (service : ServiceHandle) (definition : ServiceDefinition) :
    callbacks.visitContainer (.container container) inside =
        callbacks.visit (.container container) (.container inside)
          (objectsInOrder container inside.objects.flatten.entries) ∧
      callbacks.visitService (.service service) definition =
        containersInOrder service definition.containers.entries :=
  ⟨rfl, rfl⟩

def populateEach (location : Location) (store : ServiceStore)
    (containers : List (String × ContainerDefinition)) : ServiceStore :=
  containers.foldl (fun store entry => populateIn location store (entry.1, entry.2.creatable))
    store

theorem populate_each_in_any_order (location : Location) (store : ServiceStore)
    (definition : ServiceDefinition) {order : List (String × ContainerDefinition)}
    (permuted : order.Perm definition.containers.entries) :
    populateEach location store order =
      populateEach location store definition.containers.entries :=
  foldl_in_any_order
    (fun store first second apart =>
      populate_in_comm location store (first.1, first.2.creatable) (second.1, second.2.creatable)
        apart)
    definition.containers.keys_nodup permuted store

/-- The progress that containers make, each as far as it gets. -/
def putEach (location : Location) (service : ServiceHandle) (progress : Progress)
    (containers : List (String × ContainerDefinition)) : Progress :=
  containers.foldl
    (fun progress entry => progress.putContainer location service (entry.1, entry.2.creatable))
    progress

theorem put_each_store (location : Location) (service : ServiceHandle) (progress : Progress)
    (containers : List (String × ContainerDefinition)) :
    (putEach location service progress containers).store =
      populateEach location progress.store containers :=
  (List.foldl_hom Progress.store fun progress entry =>
    (put_container_populates location service progress (entry.1, entry.2.creatable)).symm).symm

theorem each_container_follows (session : Session)
    (order : List (String × ContainerDefinition)) :
    Follows account location session
      (leftByEach (containerBelow (.memory account location)) order session)
      (putEach location (.memory account location) (progressOf account location session)
        order) := by
  apply left_by_each_follows (Follows account location session) _ order (follows_start session)
  intro entry before progress follows
  obtain ⟨after, followsAfter, ⟨ran, _⟩ | ⟨error, failed, _⟩⟩ :=
    visit_container_leaves entry follows
  · exact (left_of_ok ran).symm ▸ followsAfter
  · exact (left_of_error failed).symm ▸ followsAfter

theorem containers_follow (session : Session) {order : List (String × ContainerDefinition)}
    (readable : ∀ entry ∈ order, entry.2.IsReadable) :
    ∃ after,
      containersInOrder (.memory account location) order session = .ok () after ∧
      Follows account location session after
        (putEach location (.memory account location) (progressOf account location session)
          order) := by
  apply forM_follows (Follows account location session) order _ (follows_start session)
  intro entry member before progress follows
  obtain ⟨after, followsAfter, ⟨ran, _⟩ | ⟨_, _, unreadable⟩⟩ :=
    visit_container_leaves entry follows
  · exact ⟨after, ran, followsAfter⟩
  · exact absurd (readable entry member) unreadable

/-- A loop over containers that ends well has met none that cannot be read. -/
theorem containers_readable {session after : Session}
    {order : List (String × ContainerDefinition)}
    (ran : containersInOrder (.memory account location) order session = .ok () after) :
    ∀ entry ∈ order, entry.2.IsReadable := by
  have each : ∀ entry ∈ order, ∀ before after,
      (∃ progress, Follows account location session before progress) →
        containerBelow (.memory account location) entry before = .ok () after →
          (∃ progress, Follows account location session after progress) ∧
            entry.2.IsReadable := by
    rintro entry _ before finished ⟨progress, follows⟩ ranHere
    obtain ⟨left, followsAfter, ⟨ended, readable⟩ | ⟨_, failed, _⟩⟩ :=
      visit_container_leaves entry follows
    · cases ended.symm.trans ranHere
      exact ⟨⟨_, followsAfter⟩, readable⟩
    · cases failed.symm.trans ranHere
  exact forM_ok_each _ order each ⟨_, follows_start session⟩ ran

/-- Creation does not depend on the order of siblings. Objects of a container whose paths
differ and whose bodies can be read are made in every order and leave the service in the
same state, whether they are wanted or not, at the root, files or folders. Containers of
a service, each made for itself, leave it in the same state even if some cannot be read
to the end. A loop that gives up at the first of those leaves that state too if there is
none, and otherwise it gives up in every order; only where it does is then up to the
order. -/
theorem siblings_in_any_order (account : Account) (location : Location) (session : Session) :
    (∀ (name : String) (stored : StoredContainer) (objects : List (String × ObjectDefinition)),
      (session.storage.store account location).get? name = some stored →
      (objects.map fun entry => ObjectPath.clean entry.1).Nodup →
      (∀ entry ∈ objects, entry.2.isWanted → entry.2.IsReadable) →
      ∃ made, ∀ order, order.Perm objects →
        ∃ after,
          objectsInOrder ⟨.memory account location, name⟩ order session = .ok () after ∧
          after.storage.store account location = made ∧
          session.storage.SameElsewhere account location after.storage) ∧
    (∀ definition : ServiceDefinition,
      ∃ made, ∀ order, order.Perm definition.containers.entries →
        let each := leftByEach (containerBelow (.memory account location)) order session
        (each.storage.store account location = made ∧
          session.storage.SameElsewhere account location each.storage) ∧
        (definition.IsReadable →
          ∃ after,
            containersInOrder (.memory account location) order session = .ok () after ∧
            after.storage.store account location = made ∧
            session.storage.SameElsewhere account location after.storage) ∧
        (¬ definition.IsReadable →
          ∃ error after,
            containersInOrder (.memory account location) order session =
              .error error after)) := by
  constructor
  · intro name stored objects found distinct readable
    exact ⟨_, fun order permuted => objects_made session found distinct readable permuted⟩
  · intro definition
    refine ⟨populateEach location (session.storage.store account location)
      definition.containers.entries, ?_⟩
    intro order permuted each
    have madeBy : ∀ after : Session,
        Follows account location session after
          (putEach location (.memory account location) (progressOf account location session)
            order) →
        after.storage.store account location =
          populateEach location (session.storage.store account location)
            definition.containers.entries ∧
        session.storage.SameElsewhere account location after.storage := by
      intro after follows
      refine ⟨?_, follows.elsewhere⟩
      rw [follows.store, put_each_store]
      exact populate_each_in_any_order location _ definition permuted
    refine ⟨madeBy each (each_container_follows session order), ?_, ?_⟩
    · intro readable
      obtain ⟨after, ran, follows⟩ := containers_follow session
        fun entry member => readable entry (permuted.mem_iff.mp member)
      exact ⟨after, ran, madeBy after follows⟩
    · intro unreadable
      cases ran : containersInOrder (.memory account location) order session with
      | error error after => exact ⟨error, after, rfl⟩
      | ok value after =>
          have allReadable := containers_readable ran
          exact absurd
            (fun entry member => allReadable entry (permuted.mem_iff.mpr member)) unreadable

/-- A root entry, a folder after a file in it, and an object that is not wanted, made in
the opposite order; and two containers of which one cannot be read to the end. -/
theorem siblings_in_any_order_reversed :
    let account : Account := ⟨0, "account", .hierarchicalNamespace⟩
    let container : ContainerHandle := ⟨.memory account .blobFs, "c"⟩
    let objects : List (String × ObjectDefinition) :=
      [("", ObjectDefinition.folder), ("dir/x", {}), ("./dir", ObjectDefinition.folder),
        ("gone", { shouldExist := some false })]
    let session : Session :=
      ⟨⟨"scenario", {}, .counting "n", [], []⟩,
        (Storage.fresh (.ofDirectories ⟨0⟩ [])).setStore account .blobFs
          (Table.singleton "c" (StoredContainer.created {})), []⟩
    let torn : ContainerDefinition :=
      { objects := .flat (Table.singleton "y" { body := some (.declared 1 [] (some "torn")) }) }
    let whole : ServiceDefinition := ⟨(Table.singleton "d" {}).insert "e" {}⟩
    let half : ServiceDefinition := ⟨(Table.singleton "d" torn).insert "e" {}⟩
    let loop := containersInOrder (.memory account .blobFs)
    let store := fun after : Session => after.storage.store account .blobFs
    store (left (objectsInOrder container objects.reverse) session) =
        store (left (objectsInOrder container objects) session) ∧
      ((store (left (objectsInOrder container objects) session)).get? "c").map
        (·.objects.keys) = some ["dir", "dir/x"] ∧
      (∃ after last, loop whole.containers.entries session = .ok () after ∧
        loop whole.containers.entries.reverse session = .ok () last ∧
        store last = store after) ∧
      ∃ error after, loop half.containers.entries.reverse session = .error error after := by
  intro account container objects session torn whole half loop store
  obtain ⟨objectsAnyOrder, containersAnyOrder⟩ := siblings_in_any_order account .blobFs session
  have found : (session.storage.store account .blobFs).get? "c" =
      some (StoredContainer.created {}) := by
    simp only [session, Storage.store_set_store, Table.get?_singleton, if_pos]
  have paths : (objects.map fun entry => ObjectPath.clean entry.1) =
      ["", "dir/x", "dir", "gone"] := by
    decide +kernel
  have distinct : (objects.map fun entry => ObjectPath.clean entry.1).Nodup := by
    rw [paths]
    decide
  have readable : ∀ entry ∈ objects, entry.2.isWanted → entry.2.IsReadable := by
    intro entry member _ body declared
    simp only [objects, List.mem_cons, List.not_mem_nil, or_false] at member
    rcases member with rfl | rfl | rfl | rfl <;> cases declared
  obtain ⟨made, inOrder⟩ := objectsAnyOrder "c" _ objects found distinct readable
  obtain ⟨after, ran, same, _⟩ := inOrder objects (List.Perm.refl objects)
  obtain ⟨last, ranLast, sameLast, _⟩ := inOrder objects.reverse objects.reverse_perm
  refine ⟨?_, by decide +kernel, ?_, ?_⟩
  · rw [left_of_ok ran, left_of_ok ranLast]
    exact sameLast.trans same.symm
  · have allReadable : whole.IsReadable := by
      intro entry member _ object inside
      change entry ∈ [("d", ContainerDefinition.mk none {} (.flat ∅) none), ("e", {})] at member
      simp only [List.mem_cons, List.not_mem_nil, or_false] at member
      rcases member with rfl | rfl <;> cases inside
    obtain ⟨made, inOrder⟩ := containersAnyOrder whole
    obtain ⟨_, succeeds, _⟩ := inOrder _ (List.Perm.refl _)
    obtain ⟨_, succeedsReversed, _⟩ := inOrder _ (List.reverse_perm _)
    obtain ⟨after, ran, same, _⟩ := succeeds allReadable
    obtain ⟨last, ranLast, sameLast, _⟩ := succeedsReversed allReadable
    exact ⟨after, last, ran, ranLast, sameLast.trans same.symm⟩
  · have unreadable : ¬ half.IsReadable := by
      intro allReadable
      have first := (half.containers.get?_eq_some_iff "d" torn).mp (by simp [half])
      have fails := allReadable _ first rfl _ List.mem_cons_self rfl _ rfl
      cases fails
    obtain ⟨made, inOrder⟩ := containersAnyOrder half
    obtain ⟨_, _, fails⟩ := inOrder _ (List.reverse_perm _)
    exact fails unreadable

end Creation

end StorageScenario
