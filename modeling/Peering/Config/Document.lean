import Peering.Config.Basic
import Peering.Json.Value

/-!
# Configuration documents

Options and configurations are records in a JSON document. A field that is absent has its default value, a key that is
no field is skipped, and a field may come only once. `toValue` gives the document of a configuration; it fails for a
hostname endpoint whose text cannot be read back.
-/

namespace Peering

open Json

/-! ## Address families -/

namespace Protocol

/-- The families with their names. -/
def variants : List (String × Protocol) := all.map fun p => (p.name, p)

/-- Reads a family. -/
def read : Reader Protocol := readVariant variants

/-- The family in a document. -/
def ofJson (s : String) : Except Error Protocol := readDocument read s

/-- The family in a value: its name, or an object with its name as the only key and null as the value. -/
def ofValue : Value → Except Error Protocol
  | .string s => variantOfName variants s
  | .object [(name, v)] => do
    let p ← variantOfName variants name
    match v with
    | .null => return p
    | v => throw (.wrongType v.found "unit")
  | .object _ => .error (.wrongValue .map "map with a single key")
  | v => .error (.wrongType v.found "string or map")

/-- The value of a family. -/
def toValue (p : Protocol) : Value := .string p.name

end Protocol

/-! ## Flags -/

namespace FlagSet

/-- The refusal of a name that is no flag. -/
def unknownMessage (name : String) : String := "unknown resolve flag `" ++ name ++ "`"

/-- The set of a list of names, all of which are known by now to be strings. -/
def checked (names : List String) : Except Error FlagSet :=
  (ofNames names).mapError fun n => .refused (unknownMessage n)

/-- Reads a set; the whole list is read before the first unknown name is refused. -/
def read : Reader FlagSet := fun s => do
  let (names, r) ← readList (readText "a string") s
  return (← checked names, r)

/-- The set in a document. -/
def ofJson (s : String) : Except Error FlagSet := readDocument read s

/-- The set in a value. -/
def ofValue : Value → Except Error FlagSet
  | .list items => do
    let names ← items.mapM fun
      | .string s => .ok s
      | v => .error (.wrongType v.found "a string")
    checked names
  | v => .error (.wrongType v.found "a sequence")

/-- The value of a set. -/
def toValue (s : FlagSet) : Value := .list (s.names.map .string)

end FlagSet

/-! ## Endpoints -/

namespace Endpoint

/-- The endpoint of a text in a document. -/
def checked (text : String) : Except Error Endpoint :=
  (ofString text).mapError fun e => .refused e.message

/-- Reads an endpoint. -/
def read : Reader Endpoint := fun s => do
  let (text, r) ← readText "a string" s
  return (← checked text, r)

/-- The endpoint in a document. -/
def ofJson (s : String) : Except Error Endpoint := readDocument read s

/-- The value of an endpoint, if its text can be read back. -/
def toValue (e : Endpoint) : Except Error Value :=
  match e.readsBack with
  | .ok () => .ok (.string (toString e))
  | .error f => .error (.refused ("endpoint `" ++ toString e ++ "` cannot be written as text: " ++ f.message))

end Endpoint

/-! ## Options -/

namespace ResolveOptions

/-- The fields of options that are known so far. -/
structure Draft where
  protocol : Option Protocol
  flags : Option FlagSet
  defaultService : Option String

namespace Draft

/-- Nothing is known. -/
def empty : Draft := ⟨none, none, none⟩

/-- The options of a draft. What is not known is as in the default options. -/
def finish (d : Draft) : ResolveOptions :=
  ⟨d.protocol.getD default.protocol, d.flags.getD default.flags, d.defaultService.getD default.defaultService⟩

end Draft

/-- The fields of options. -/
def fields : List (RecordField Draft) :=
  [{ name := "protocol"
     isSet := fun d => d.protocol.isSome
     read := fun d s => do
       let (x, r) ← Protocol.read s
       return ({ d with protocol := some x }, r) },
   { name := "flags"
     isSet := fun d => d.flags.isSome
     read := fun d s => do
       let (x, r) ← FlagSet.read s
       return ({ d with flags := some x }, r) },
   { name := "default_service"
     isSet := fun d => d.defaultService.isSome
     read := fun d s => do
       let (x, r) ← readText "a string" s
       return ({ d with defaultService := some x }, r) }]

/-- Reads options. -/
def read : Reader ResolveOptions := fun s => do
  let (d, r) ← readRecord "struct ResolveOptions" fields .empty s
  return (d.finish, r)

/-- The options in a document. -/
def ofJson (s : String) : Except Error ResolveOptions := readDocument read s

/-- The string in a value. -/
def textOfValue : Value → Except Error String
  | .string s => .ok s
  | v => .error (.wrongType v.found "a string")

/-- The draft with the value of one field, if `name` is a field. -/
def setField (name : String) (v : Value) (d : Draft) : Except Error Draft :=
  if name = "protocol" then do return { d with protocol := some (← Protocol.ofValue v) }
  else if name = "flags" then do return { d with flags := some (← FlagSet.ofValue v) }
  else if name = "default_service" then do return { d with defaultService := some (← textOfValue v) }
  else .ok d

/-- The options in a value. -/
def ofValue : Value → Except Error ResolveOptions
  | .object members => do
    return (← members.foldlM (fun d m => setField m.1 m.2 d) Draft.empty).finish
  | .list items => do
    let names := fields.map RecordField.name
    let d ← (names.zip items).foldlM (fun d m => setField m.1 m.2 d) Draft.empty
    if names.length < items.length then throw (.wrongLength items.length)
    return d.finish
  | v => .error (.wrongType v.found "struct ResolveOptions")

/-- The value of options. -/
def toValue (o : ResolveOptions) : Value :=
  .object
    [("protocol", o.protocol.toValue), ("flags", o.flags.toValue), ("default_service", .string o.defaultService)]

end ResolveOptions

/-! ## Configurations -/

namespace PeerConfig

/-- The fields of a configuration that are known so far. -/
structure Draft where
  listenOn : Option Endpoint
  contacts : Option (List Endpoint)
  resolve : Option ResolveOptions

namespace Draft

/-- Nothing is known. -/
def empty : Draft := ⟨none, none, none⟩

/-- The configuration of a draft. What is not known has the default of its field, which each field has of its own. -/
def finish (d : Draft) : PeerConfig :=
  ⟨d.listenOn.getD standardListenOn, d.contacts.getD [], d.resolve.getD .default⟩

/-- The defaults of the fields are those of the configuration that holds where nothing else is said. -/
theorem finish_eq (d : Draft) :
    d.finish =
      ⟨d.listenOn.getD default.listenOn, d.contacts.getD default.contacts, d.resolve.getD default.resolve⟩ :=
  rfl

end Draft

/-- The fields of a configuration. -/
def fields : List (RecordField Draft) :=
  [{ name := "listen_on"
     isSet := fun d => d.listenOn.isSome
     read := fun d s => do
       let (x, r) ← Endpoint.read s
       return ({ d with listenOn := some x }, r) },
   { name := "contacts"
     isSet := fun d => d.contacts.isSome
     read := fun d s => do
       let (x, r) ← readList Endpoint.read s
       return ({ d with contacts := some x }, r) },
   { name := "resolve"
     isSet := fun d => d.resolve.isSome
     read := fun d s => do
       let (x, r) ← ResolveOptions.read s
       return ({ d with resolve := some x }, r) }]

/-- Reads a configuration. -/
def read : Reader PeerConfig := fun s => do
  let (d, r) ← readRecord "struct PeerConfig" fields .empty s
  return (d.finish, r)

/-- The configuration in a document. -/
def ofJson (s : String) : Except Error PeerConfig := readDocument read s

/-- The value of a configuration, if all its endpoints can be read back. -/
def toValue (c : PeerConfig) : Except Error Value := do
  let listenOn ← c.listenOn.toValue
  let contacts ← c.contacts.mapM Endpoint.toValue
  return .object [("listen_on", listenOn), ("contacts", .list contacts), ("resolve", c.resolve.toValue)]

/-- The document of a configuration, if all its endpoints can be read back. -/
def toJson (c : PeerConfig) : Except Error String := c.toValue.map Value.toPretty

end PeerConfig

end Peering
