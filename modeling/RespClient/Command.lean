import RespClient.Cluster.Slot
import RespClient.Text.Utf8
import RespClient.Text.Blank
import RespClient.Text.NameTable

namespace RespClient

inductive Arg where
  | bytes (data : Bytes)
  | int (value : Int)
  | null
  deriving DecidableEq, Inhabited

namespace Arg

def ofText (s : String) : Arg := bytes (Bytes.ofText s)

/-- An unsigned number; one that no signed value of 64 bits holds is kept as its digits. -/
def ofNat (n : Nat) : Arg := if n < 0x8000000000000000 then int n else bytes (Bytes.ofNat n)

/-- The argument as text, where it is part of the command's name. -/
def nameText : Arg → String
  | bytes data => Text.Utf8.lenient data
  | int n => toString n
  | null => ""

end Arg

/-- A command ready to be sent. The first `nameLength` arguments are its name; `slot` is that of its
routing key, and `readOnly` lets a replica serve it. -/
structure Command where
  args : List Arg
  nameLength : Nat
  slot : Option Cluster.Slot
  readOnly : Bool
  deriving DecidableEq

namespace Command

/-- Commands that only read data. -/
def readOnlyNames : Text.NameTable where
  names := #[
    "BITCOUNT", "BITPOS", "DBSIZE", "DUMP", "EXISTS", "GEODIST", "GEOHASH", "GEOPOS", "GEOSEARCH",
    "GET", "GETBIT", "GETRANGE", "HEXISTS", "HGET", "HGETALL", "HKEYS", "HLEN", "HMGET", "HSCAN",
    "HSTRLEN", "HVALS", "KEYS", "LINDEX", "LLEN", "LPOS", "LRANGE", "MGET", "PFCOUNT", "PTTL",
    "RANDOMKEY", "SCAN", "SCARD", "SDIFF", "SINTER", "SISMEMBER", "SMEMBERS", "SMISMEMBER",
    "SRANDMEMBER", "SSCAN", "STRLEN", "SUNION", "TTL", "TYPE", "XLEN", "XRANGE", "XREVRANGE",
    "ZCARD", "ZCOUNT", "ZLEXCOUNT", "ZMSCORE", "ZRANGE", "ZRANGEBYLEX", "ZRANGEBYSCORE", "ZRANK",
    "ZREVRANGE", "ZREVRANGEBYSCORE", "ZREVRANK", "ZSCAN", "ZSCORE"]
  ascending := by decide +kernel

def isReadOnlyName (name : String) : Bool := readOnlyNames.contains (Text.upper name)

/-- A command with nothing but its name; words of the name are arguments of their own. -/
def ofName (name : String) : Command :=
  let words := Text.words name
  { args := words.map Arg.ofText
    nameLength := words.length
    slot := none
    readOnly := words.length == 1 && isReadOnlyName (Text.trim name) }

def arg (c : Command) (a : Arg) : Command := { c with args := c.args ++ [a] }

def addArgs (c : Command) (as : List Arg) : Command := { c with args := c.args ++ as }

/-- A list of any length: how many follow, then each of them. -/
def argList (c : Command) (as : List Arg) : Command := (c.arg (Arg.ofNat as.length)).addArgs as

/-- A routing key. Only the first one decides the slot; later ones are plain arguments. -/
def key (c : Command) (k : Bytes) : Command :=
  { c.arg (.bytes k) with slot := c.slot <|> some (Cluster.hashSlot k) }

def markReadOnly (c : Command) (readOnly : Bool) : Command := { c with readOnly := readOnly }

/-- The words of the name, one space between them. -/
def name (c : Command) : String := " ".intercalate ((c.args.take c.nameLength).map Arg.nameText)

end Command

/-- How a null argument is framed. Servers accept only the empty string in requests. -/
inductive NullFraming where
  | emptyBulk
  | nullBulk
  deriving DecidableEq

namespace Command

/-- A length-prefixed string. -/
def bulkFrame (data : Bytes) : Bytes :=
  '$'.toUInt8 :: Bytes.ofNat data.length ++ Bytes.crlf ++ data ++ Bytes.crlf

/-- The frames of the smallest numbers, made once. -/
def smallFrames : Array Bytes := (Array.range 1024).map fun n => bulkFrame (Bytes.ofNat n)

/-- A number: from the table if it is small, else written out. -/
def intFrame (n : Int) : Bytes :=
  if 0 ≤ n ∧ n < 1024 then smallFrames.getD n.toNat [] else bulkFrame (Bytes.ofInt n)

def argFrame (nulls : NullFraming) : Arg → Bytes
  | .bytes data => bulkFrame data
  | .int n => intFrame n
  | .null =>
    match nulls with
    | .emptyBulk => bulkFrame []
    | .nullBulk => '$'.toUInt8 :: Bytes.ofInt (-1) ++ Bytes.crlf

/-- The command on the wire: how many arguments, then each of them. -/
def encode (nulls : NullFraming) (c : Command) : Bytes :=
  '*'.toUInt8 :: Bytes.ofNat c.args.length ++ Bytes.crlf ++ c.args.flatMap (argFrame nulls)

end Command

end RespClient
