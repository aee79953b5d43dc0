import StorageScenario.Proofs.CreationEffect
import StorageScenario.Proofs.CreationSteps

/-!
Where the creation of a container stops. The only thing that can stop it is the body
of a wanted object that cannot be read, and then the objects before that one are there
and nothing else is. So what a container definition does to its container is what its
beginning does that can be made.
-/

namespace StorageScenario

namespace ObjectDefinition

/-- The body of an object that is not wanted is never read. -/
def canBeMade (definition : ObjectDefinition) : Bool :=
  !definition.isWanted || (definition.body.getD (.zeros 0)).failure?.isNone

theorem can_be_made_iff (definition : ObjectDefinition) :
    definition.canBeMade ↔ (definition.isWanted → definition.IsReadable) := by
  have readable : (definition.body.getD (.zeros 0)).failure? = none ↔ definition.IsReadable := by
    unfold IsReadable
    cases definition.body with
    | none => simp [Body.failure?]
    | some body => simp
  unfold canBeMade
  rw [← readable]
  cases definition.isWanted <;> simp

theorem cannot_be_made {definition : ObjectDefinition} (stuck : definition.canBeMade = false) :
    definition.isWanted ∧ ∃ cause, (definition.body.getD (.zeros 0)).failure? = some cause := by
  unfold canBeMade at stuck
  rw [Bool.or_eq_false_iff, Bool.not_eq_false', Option.isNone_eq_false_iff,
    Option.isSome_iff_exists] at stuck
  exact stuck

end ObjectDefinition

namespace ContainerDefinition

/-- The same container with the objects before the first one that cannot be made. -/
def creatable (definition : ContainerDefinition) : ContainerDefinition :=
  { definition with
    objects := .flat ⟨definition.objects.flatten.entries.takeWhile fun entry => entry.2.canBeMade,
      definition.objects.flatten.ordered.sublist (List.takeWhile_sublist _)⟩ }

theorem readable_iff (definition : ContainerDefinition) (wanted : definition.isWanted) :
    definition.IsReadable ↔
      definition.objects.flatten.entries.all fun entry => entry.2.canBeMade := by
  simp only [IsReadable, wanted, forall_const, List.all_eq_true,
    ObjectDefinition.can_be_made_iff]

end ContainerDefinition

namespace Creation

open Work

variable {account : Account} {location : Location} {start before : Session}
  {progress : Progress}

def objectsInOrder (container : ContainerHandle) (objects : List (String × ObjectDefinition)) :
    Work Unit :=
  objects.forM fun entry => do
    let child ← check ((Resource.container container).child entry.1 entry.2.properties.kind)
    callbacks.visitObject child (entry.2.boundTo entry.1)

theorem visit_object_stops (entry : String × ObjectDefinition) (name : String)
    (follows : Follows account location start before progress)
    (stuck : entry.2.canBeMade = false) :
    ∃ error after,
      callbacks.visitObject
        (.object ((ContainerHandle.mk (.memory account location) name).object entry.1
          entry.2.properties.kind)) (entry.2.boundTo entry.1) before = .error error after ∧
      Follows account location start after progress := by
  obtain ⟨wanted, cause, unreadable⟩ := ObjectDefinition.cannot_be_made stuck
  have call := ObjectHandle.create_unreadable_on_memory account location name before.storage
    (ObjectPath.clean entry.1) entry.2.properties.kind unreadable entry.2.properties
  have boundWanted : (entry.2.boundTo entry.1).isWanted := wanted
  obtain ⟨log, failed⟩ := object_fails boundWanted call
  exact ⟨_, _, visit_of_error _ rfl failed, follows_same follows log⟩

/-- Whether the visit of a container ends well or not, it has done what the part of the
definition that can be made says. -/
theorem visit_container_leaves (entry : String × ContainerDefinition)
    (follows : Follows account location start before progress) :
    ∃ after,
      Follows account location start after
        (progress.putContainer location (.memory account location)
          (entry.1, entry.2.creatable)) ∧
      (callbacks.visitContainer (.container ⟨.memory account location, entry.1⟩)
          (entry.2.boundTo entry.1) before = .ok () after ∧ entry.2.IsReadable ∨
        ∃ error, callbacks.visitContainer (.container ⟨.memory account location, entry.1⟩)
          (entry.2.boundTo entry.1) before = .error error after ∧ ¬ entry.2.IsReadable) := by
  cases wanted : entry.2.isWanted with
  | false =>
      have readable : entry.2.IsReadable := by
        intro isWanted
        rw [wanted] at isWanted
        cases isWanted
      obtain ⟨after, ran, unchanged⟩ := visit_container_follows entry follows readable
      refine ⟨after, ?_, Or.inl ⟨ran, readable⟩⟩
      unfold Progress.putContainer at unchanged ⊢
      rw [wanted] at unchanged
      rw [show entry.2.creatable.isWanted = false from wanted]
      exact unchanged
  | true =>
      obtain ⟨between, opened, followsOpen⟩ :=
        container_follows entry.1 (entry.2.boundTo entry.1) follows wanted
      have holds := open_container_holds ⟨.memory account location, entry.1⟩ progress
        entry.2.properties
      obtain ⟨after, ⟨followsAfter, _⟩, ended⟩ := forM_until
        (fun session progress =>
          Follows account location start session progress ∧ Holds progress entry.1)
        (fun object : String × ObjectDefinition => object.2.canBeMade)
        entry.2.objects.flatten.entries
        (fun object _ passes before progress together =>
          visit_object_follows object together.1 together.2
            (object.2.can_be_made_iff.mp passes))
        (fun object _ stuck before progress together => by
          obtain ⟨error, after, failed, same⟩ :=
            visit_object_stops object entry.1 together.1 stuck
          exact ⟨error, after, failed, same, together.2⟩)
        ⟨followsOpen, holds⟩
      refine ⟨after, ?_, ?_⟩
      · unfold Progress.putContainer
        rw [show entry.2.creatable.isWanted = true from wanted]
        exact followsAfter
      · have loops : callbacks.visitContainer (.container ⟨.memory account location, entry.1⟩)
            (entry.2.boundTo entry.1) before =
            objectsInOrder ⟨.memory account location, entry.1⟩
              entry.2.objects.flatten.entries between :=
          visit_of_descend _ rfl opened
        rw [entry.2.readable_iff wanted, Bool.not_eq_true, loops]
        exact ended

end Creation

end StorageScenario
