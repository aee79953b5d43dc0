import StorageScenario.Text

/-!
Why reading or writing failed. A fault of the file system has a number and a
standard text; the other causes bring a text of their own.
-/

namespace StorageScenario

inductive FileFault where
  | notFound
  | permissionDenied
  | notADirectory
  | isADirectory
  | alreadyExists
  | directoryNotEmpty
  | invalidFilename
  | filesystemLoop
  | invalidInput
  | resourceBusy
  deriving DecidableEq

namespace FileFault

def kind : FileFault → String
  | .notFound => "NotFound"
  | .permissionDenied => "PermissionDenied"
  | .notADirectory => "NotADirectory"
  | .isADirectory => "IsADirectory"
  | .alreadyExists => "AlreadyExists"
  | .directoryNotEmpty => "DirectoryNotEmpty"
  | .invalidFilename => "InvalidFilename"
  | .filesystemLoop => "FilesystemLoop"
  | .invalidInput => "InvalidInput"
  | .resourceBusy => "ResourceBusy"

def code : FileFault → Nat
  | .notFound => 2
  | .permissionDenied => 13
  | .resourceBusy => 16
  | .alreadyExists => 17
  | .notADirectory => 20
  | .isADirectory => 21
  | .invalidInput => 22
  | .invalidFilename => 36
  | .directoryNotEmpty => 39
  | .filesystemLoop => 40

def text : FileFault → String
  | .notFound => "No such file or directory"
  | .permissionDenied => "Permission denied"
  | .resourceBusy => "Device or resource busy"
  | .alreadyExists => "File exists"
  | .notADirectory => "Not a directory"
  | .isADirectory => "Is a directory"
  | .invalidInput => "Invalid argument"
  | .invalidFilename => "File name too long"
  | .directoryNotEmpty => "Directory not empty"
  | .filesystemLoop => "Too many levels of symbolic links"

def message (fault : FileFault) : String :=
  fault.text ++ " (os error " ++ toString fault.code ++ ")"

end FileFault

inductive IoError where
  | fault (cause : FileFault)
  | nulInName
  | invalidSeek
  | unreadableBody (message : String)
  deriving DecidableEq

namespace IoError

def kind : IoError → String
  | .fault cause => cause.kind
  | .nulInName => "InvalidInput"
  | .invalidSeek => "InvalidInput"
  | .unreadableBody _ => "Other"

def message : IoError → String
  | .fault cause => cause.message
  | .nulInName => "file name contained an unexpected NUL byte"
  | .invalidSeek => "invalid seek to a negative or overflowing position"
  | .unreadableBody message => message

def message? : IoError → Option String
  | .fault _ => none
  | other => some other.message

def describe : IoError → String
  | .fault cause =>
      Text.record "Os"
        [("code", toString cause.code), ("kind", cause.kind), ("message", Text.quote cause.text)]
  | .unreadableBody message =>
      Text.record "Custom" [("kind", "Other"), ("error", Text.quote message)]
  | other =>
      Text.record "Error" [("kind", other.kind), ("message", Text.quote other.message)]

end IoError

end StorageScenario
