import ClassXref.Index.NamespaceFilter
import ClassXref.Json.Reader

/-! Configuration: what a file can set and how it combines with the command line. The file holds one
JSON object, or a list of the same values in a fixed order; what follows it is not looked at. -/
namespace ClassXref

/-- What a configuration file sets; `none` where it is silent. -/
structure Config where
  namespaces : Option (List String) := none
  threads : Option Nat := none
  otelEndpoint : Option String := none
  deriving Repr, DecidableEq, Inhabited

namespace Config

inductive Key where
  | namespaces
  | threads
  | otelEndpoint
  deriving Repr, DecidableEq, Inhabited

/-- The keys in the order in which a list gives their values. -/
def keys : List Key := [.namespaces, .threads, .otelEndpoint]

def Key.text : Key → String
  | namespaces => "namespaces"
  | threads => "threads"
  | otelEndpoint => "otel_endpoint"

def Key.ofText? (text : String) : Option Key :=
  keys.find? (·.text == text)

open Json (Reader)

/-- Reads the value of a key. -/
def readValue (config : Config) : Key → Reader Config
  | .namespaces => return { config with namespaces := ← Reader.optional (Reader.list Reader.text) }
  | .threads => return { config with threads := ← Reader.optional Reader.natural }
  | .otelEndpoint => return { config with otelEndpoint := ← Reader.optional Reader.text }

/-- Reads members from behind the opening brace or the last member. Only known keys are accepted, and
each once, so the keys not yet seen bound the turns. -/
def readMembers (config : Config) (first : Bool) (unseen : List Key) : Reader Config := do
  if ← Reader.hasMember first then
    Reader.pass
    let name ← Reader.stringBody
    match Key.ofText? name with
    | none =>
      Reader.within (.member name) (Reader.refuseKey (.unknownField name (keys.map Key.text)))
    | some key =>
      if _h : key ∈ unseen then
        Reader.colon
        let config ← Reader.within (.member name) (readValue config key)
        readMembers config false (unseen.erase key)
      else Reader.refuseKey (.repeatedField name)
  else return config
termination_by unseen.length
decreasing_by
  have shorter := List.length_erase_of_mem _h
  have nonempty := List.length_pos_of_mem _h
  omega

/-- Reads values in the order of the given keys from an element of a list on; the list may stop
early. -/
def readElements (config : Config) (index : Nat) : List Key → Reader Config
  | [] => return config
  | key :: rest => do
    if ← Reader.hasElement (index == 0) then
      let config ← Reader.within (.element index) (readValue config key)
      readElements config (index + 1) rest
    else return config

def reader : Reader Config := do
  match ← Reader.firstByte with
  | 0x7b =>
    Reader.pass
    let config ← readMembers {} true keys
    Reader.closeObject
    return config
  | 0x5b =>
    Reader.pass
    let config ← readElements {} 0 keys
    Reader.closeList
    return config
  | _ => Reader.wrongType "struct FileConfig"

/-- The configuration in a text, or the wording of what is wrong with it. -/
def parse (text : String) : Except String Config :=
  let bytes := text.toUTF8.data.toList
  match Json.readFront reader bytes with
  | .ok config => .ok config
  | .error flaw => .error (flaw.message bytes)

end Config

/-- What a run goes by. -/
structure Settings where
  namespaces : NamespaceFilter
  threads : Option Nat
  otelEndpoint : Option String
  deriving Repr, DecidableEq, Inhabited

namespace Settings

def noThreadsMessage : String := "threads must be at least 1"

/-- The command line goes before the file, and the file before what is standard. -/
def resolve (file : Config) (namespaces : List String) (threads : Option Nat)
    (otelEndpoint : Option String) : Except String Settings :=
  let filter : NamespaceFilter :=
    if namespaces.isEmpty then
      match file.namespaces with
      | some listed => ⟨listed⟩
      | none => .standard
    else ⟨namespaces⟩
  let threads := threads.or file.threads
  if threads = some 0 then .error noThreadsMessage
  else .ok { namespaces := filter, threads, otelEndpoint := otelEndpoint.or file.otelEndpoint }

end Settings
end ClassXref
