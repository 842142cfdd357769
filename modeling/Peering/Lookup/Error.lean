/-!
# Lookup errors

A `LookupError` says why a lookup gave no addresses. Each cause has a stable numeric code, under which it is logged.
The underlying cause of a failed name lookup is a `SystemError`: its kind and, unless the kind says all, a reason.
-/

namespace Peering

/-- The kinds of errors that the system reports. -/
inductive ErrorKind where
  | notFound
  | permissionDenied
  | connectionRefused
  | invalidInput
  | invalidData
  | timedOut
  | unexpectedEof
  | isADirectory
  | notADirectory
  | invalidFilename
  | filesystemLoop
  | other
deriving DecidableEq

namespace ErrorKind

/-- All kinds. -/
def all : List ErrorKind :=
  [notFound, permissionDenied, connectionRefused, invalidInput, invalidData, timedOut, unexpectedEof, isADirectory,
    notADirectory, invalidFilename, filesystemLoop, other]

/-- The name of a kind in reports. -/
def name : ErrorKind → String
  | notFound => "NotFound"
  | permissionDenied => "PermissionDenied"
  | connectionRefused => "ConnectionRefused"
  | invalidInput => "InvalidInput"
  | invalidData => "InvalidData"
  | timedOut => "TimedOut"
  | unexpectedEof => "UnexpectedEof"
  | isADirectory => "IsADirectory"
  | notADirectory => "NotADirectory"
  | invalidFilename => "InvalidFilename"
  | filesystemLoop => "FilesystemLoop"
  | other => "Other"

/-- The kind of a name. -/
def ofName? (s : String) : Option ErrorKind := all.find? (·.name == s)

/-- What a kind says when no reason is known. -/
def description : ErrorKind → String
  | notFound => "entity not found"
  | permissionDenied => "permission denied"
  | connectionRefused => "connection refused"
  | invalidInput => "invalid input parameter"
  | invalidData => "invalid data"
  | timedOut => "timed out"
  | unexpectedEof => "unexpected end of file"
  | isADirectory => "is a directory"
  | notADirectory => "not a directory"
  | invalidFilename => "invalid filename"
  | filesystemLoop => "filesystem loop or indirection limit (e.g. symlink loop)"
  | other => "other error"

end ErrorKind

/-- An error that the system reported. -/
structure SystemError where
  kind : ErrorKind
  /-- What the system said beyond the kind. -/
  reason : Option String
deriving DecidableEq

/-- The reason, or else what the kind says. -/
def SystemError.message (e : SystemError) : String := e.reason.getD e.kind.description

/-- Why a lookup failed. -/
inductive LookupError where
  /-- A literal address was asked for and the host is none. -/
  | addressInvalid
  /-- Nothing was there to drive a lookup in the background. -/
  | noRuntime
  /-- The lookup was torn down before it had an answer. -/
  | taskFailed
  /-- The name has no usable address. -/
  | nameNotResolved (domain : String) (cause : SystemError)
  /-- The service is neither a port nor a known name. -/
  | serviceNotFound (service : String)
deriving DecidableEq

namespace LookupError

/-- The name has no usable address, for the given reason. -/
def noAddresses (domain reason : String) : LookupError :=
  nameNotResolved domain ⟨.notFound, some reason⟩

/-- The text of an error. -/
def message : LookupError → String
  | addressInvalid => "Address invalid"
  | noRuntime => "No async runtime available to drive the lookup"
  | taskFailed => "Resolver task failed"
  | nameNotResolved domain cause => "Name not resolved: " ++ domain ++ ": " ++ cause.message
  | serviceNotFound service => "Service not found: " ++ service

/-- The code of an error. -/
def code : LookupError → Int
  | addressInvalid => -108
  | noRuntime => -10001
  | taskFailed => -10002
  | nameNotResolved .. => -105
  | serviceNotFound _ => -137

/-- The name of an error's cause in reports. -/
def name : LookupError → String
  | addressInvalid => "AddressInvalid"
  | noRuntime => "NoRuntime"
  | taskFailed => "ResolverTaskFailed"
  | nameNotResolved .. => "NameNotResolvedFor"
  | serviceNotFound _ => "ServiceNotFound"

/-- Puts a system error into the context of a lookup of `domain`. -/
def inContext {α : Type} (domain : String) (r : Except SystemError α) : Except LookupError α :=
  r.mapError (nameNotResolved domain)

end LookupError

end Peering
