import StorageScenario.IoError
import StorageScenario.Level
import StorageScenario.Location

/-!
Fatal errors. A back-end reports what it could not do, and a scenario step wraps
that with the operation and the resource it was working on. Misuse of levels has
causes of its own.
-/

namespace StorageScenario

inductive BackendError where
  | notFound (resource : String)
  | unsupported (operation : String) (location : Location)
  | serviceUnavailable (account : String) (service : Location)
  | io (path : String) (cause : IoError)
  deriving DecidableEq

def BackendError.message : BackendError → String
  | .notFound resource => "resource does not exist: " ++ resource
  | .unsupported operation location =>
      "operation \"" ++ operation ++ "\" is not supported by the " ++ location.name ++ " back-end"
  | .serviceUnavailable account service =>
      "\"" ++ service.name ++ "\" is not a valid service for account \"" ++ account ++ "\""
  | .io path _ => "IO error on path: " ++ path

inductive Operation where
  | openLocalRoot
  | getService
  | createContainer
  | createObject
  | checkContainerExistence
  | getContainerProperties
  | checkObjectExistence
  | getObjectProperties
  | downloadObject
  | delete
  deriving DecidableEq

def Operation.name : Operation → String
  | .openLocalRoot => "open local root"
  | .getService => "get service"
  | .createContainer => "create container"
  | .createObject => "create object"
  | .checkContainerExistence => "check container existence"
  | .getContainerProperties => "get container properties"
  | .checkObjectExistence => "check object existence"
  | .getObjectProperties => "get object properties"
  | .downloadObject => "download object"
  | .delete => "delete"

inductive ScenarioError where
  | levelMismatch (expected actual : Level)
  | resourceDeeperThanDefinition (resource definition : Level)
  | noAdoptiveParent (level : Level)
  | noAdoptiveChild (level : Level)
  | ambiguousAdoptiveChild (level : Level) (candidates : Nat)
  | unexpectedDefinitionShape (expected actual : Level)
  | noAccountForLocation (location : Location)
  | backend (operation : Operation) (resource : String) (cause : BackendError)
  | contentRead (resource : String) (cause : IoError)
  deriving DecidableEq

def ScenarioError.message : ScenarioError → String
  | .levelMismatch expected actual =>
      "expected a manager at the " ++ expected.name ++ " level, got one at the " ++ actual.name ++
        " level"
  | .resourceDeeperThanDefinition resource definition =>
      "base manager at the " ++ resource.name ++ " level is deeper than the definition target (" ++
        definition.name ++ " level)"
  | .noAdoptiveParent level => "a " ++ level.name ++ "-level definition has no adoptive parent"
  | .noAdoptiveChild level => "a " ++ level.name ++ "-level resource has no child level"
  | .ambiguousAdoptiveChild level candidates =>
      "adoptive child matching requires exactly one child in the " ++ level.name ++
        "-level definition, found " ++ toString candidates
  | .unexpectedDefinitionShape expected actual =>
      "expected a " ++ expected.name ++ "-level definition, got a " ++ actual.name ++
        "-level definition"
  | .noAccountForLocation location =>
      "no registered account offers the " ++ location.name ++ " service"
  | .backend operation resource _ =>
      "back-end operation \"" ++ operation.name ++ "\" failed on " ++ resource
  | .contentRead resource _ => "unable to read object content of " ++ resource

end StorageScenario
