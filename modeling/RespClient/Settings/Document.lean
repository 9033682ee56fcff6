import RespClient.Settings

namespace RespClient

/-- A tree of fields, lists, texts and numbers. A field that is missing keeps its default and an unknown field is
ignored; a value of the wrong shape refuses the whole document. -/
inductive Document where
  | null
  | bool (b : Bool)
  | whole (n : Int)
  | fraction
  | text (s : String)
  | list (items : List Document)
  | fields (entries : List (String × Document))
  deriving Inhabited

namespace Document

abbrev Reader (α : Type) := Document → Option α

/-- A whole number below `2 ^ bits`. -/
def word (bits : Nat) : Reader Nat
  | whole n => if 0 ≤ n ∧ n.toNat < 1 <<< bits then some n.toNat else none
  | _ => none

def uint64 : Reader UInt64 := fun d => (word 64 d).map Nat.toUInt64

def uint32 : Reader UInt32 := fun d => (word 32 d).map Nat.toUInt32

def string : Reader String
  | text s => some s
  | _ => none

def strings : Reader (List String)
  | list items => items.mapM string
  | _ => none

/-- The name of a value, exactly as written; a single field with nothing in it names one too. -/
def named {α : Type} (ofName? : String → Option α) : Reader α
  | text s | fields [(s, null)] => ofName? s
  | _ => none

/-- The field `name`, which stands at place `i` where fields are given as a list. -/
def field {α : Type} (d : Document) (i : Nat) (name : String) (read : Reader α) (default : α) :
    Option α :=
  match d with
  | fields entries =>
    match entries.find? fun e => e.1 == name with
    | some (_, v) => read v
    | none => some default
  | list items =>
    match items[i]? with
    | some v => read v
    | none => some default
  | _ => none

/-- A list of fields has at most `count` of them. -/
def fits (d : Document) (count : Nat) : Option Unit :=
  match d with
  | fields _ => some ()
  | list items => if items.length ≤ count then some () else none
  | _ => none

end Document

def NullFraming.name : NullFraming → String
  | emptyBulk => "empty_bulk"
  | nullBulk => "null_bulk"

def NullFraming.ofName? (s : String) : Option NullFraming :=
  [NullFraming.emptyBulk, .nullBulk].find? fun n => n.name == s

def ConnectionSettings.read : Document.Reader ConnectionSettings := fun d => do
  d.fits 3
  return { connectTimeoutMs := ← d.field 0 "connect_timeout_ms" Document.uint64 5000
           readBufferSize := ← d.field 1 "read_buffer_size" Document.uint64 16384
           nulls := ← d.field 2 "null_encoding" (Document.named NullFraming.ofName?) .emptyBulk }

def Backoff.read : Document.Reader Backoff := fun d => do
  d.fits 2
  return { baseMs := ← d.field 0 "base_ms" Document.uint64 10
           maxMs := ← d.field 1 "max_ms" Document.uint64 1280 }

def ClusterSettings.read : Document.Reader ClusterSettings := fun d => do
  d.fits 5
  return { seeds := ← d.field 0 "seeds" Document.strings []
           replicas := ← d.field 1 "replica_policy" (Document.named ReplicaPolicy.ofName?) .never
           maxRedirects := ← d.field 2 "max_redirects" Document.uint32 16
           backoff := ← d.field 3 "backoff" Backoff.read {}
           connection := ← d.field 4 "connection" ConnectionSettings.read {} }

def SentinelSettings.read : Document.Reader SentinelSettings := fun d => do
  d.fits 4
  return { endpoints := ← d.field 0 "endpoints" Document.strings []
           masterName := ← d.field 1 "master_name" Document.string "mymaster"
           role := ← d.field 2 "role" (Document.named Role.ofName?) .master
           connection := ← d.field 3 "connection" ConnectionSettings.read {} }

end RespClient
