import Peering.Config.Document
import Peering.Trace

/-!
# Configuration files

A file is read by the system, which gives its bytes or says why there are none. Bytes that are no text are refused like
a file that could not be read.
-/

namespace Peering

/-- Why a configuration could not be loaded. -/
inductive ConfigError where
  /-- The file could not be read. -/
  | io (path : String) (cause : SystemError)
  /-- The file is no configuration. -/
  | json (cause : Json.Error)
deriving DecidableEq

/-- The text of an error. -/
def ConfigError.message : ConfigError → String
  | io path cause => "Failed to read " ++ path ++ ": " ++ cause.message
  | json cause => "Invalid configuration: " ++ cause.message

namespace PeerConfig

/-- The configuration in a document. -/
def load (document : String) : Except ConfigError PeerConfig := (ofJson document).mapError .json

/-- The document of a configuration. -/
def store (c : PeerConfig) : Except ConfigError String := c.toJson.mapError .json

/-- The text of a file's bytes. -/
def textOfBytes (content : ByteArray) : Except SystemError String :=
  match String.fromUTF8? content with
  | some document => .ok document
  | none => .error ⟨.invalidData, some "stream did not contain valid UTF-8"⟩

/-- The configuration in a file, by what the system reads of it. -/
def loadFile (path : String) (content : Except SystemError ByteArray) : Run (Except ConfigError PeerConfig) :=
  match content >>= textOfBytes with
  | .error e => return .error (.io path e)
  | .ok document => do
    .notice (.loadingConfig path)
    return load document

theorem textOfBytes_toUTF8 (document : String) : textOfBytes document.toUTF8 = .ok document := by
  have hread : String.fromUTF8? document.toUTF8 = some document := dif_pos document.isValidUTF8
  rw [textOfBytes, hread]

/-- A file that holds a text is loaded as the text is. -/
theorem value?_loadFile (path document : String) :
    (loadFile path (.ok document.toUTF8)).value? = some (load document) := by
  have hread : (Except.ok document.toUTF8 >>= textOfBytes) = .ok document := textOfBytes_toUTF8 document
  rw [loadFile, hread]
  rfl

end PeerConfig

end Peering
