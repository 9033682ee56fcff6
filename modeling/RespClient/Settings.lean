import RespClient.Address
import RespClient.Command

namespace RespClient

/-- A span of time, in seconds and nanoseconds. -/
structure Duration where
  seconds : UInt64
  nanos : UInt32

/-- Whole milliseconds, modulo the range of the word. -/
def Duration.millis (d : Duration) : UInt64 :=
  (d.seconds.toNat * 1000 + d.nanos.toNat / 1000000).toUInt64

structure ConnectionSettings where
  connectTimeoutMs : UInt64 := 5000
  readBufferSize : UInt64 := 16384
  nulls : NullFraming := .emptyBulk
  deriving DecidableEq

def ConnectionSettings.withConnectTimeout (s : ConnectionSettings) (d : Duration) :
    ConnectionSettings :=
  { s with connectTimeoutMs := d.millis }

/-- Growing delays between attempts. -/
structure Backoff where
  baseMs : UInt64 := 10
  maxMs : UInt64 := 1280
  deriving DecidableEq

namespace Backoff

def ofDurations (base max : Duration) : Backoff := ⟨base.millis, max.millis⟩

/-- Multiplication that stops at the largest word. -/
def saturatingMul (a b : UInt64) : UInt64 :=
  if a.toNat * b.toNat ≤ 0xFFFFFFFFFFFFFFFF then a * b else 0xFFFFFFFFFFFFFFFF

/-- Two to the power `attempt`, or the largest word where that has no room. -/
def factor (attempt : UInt32) : UInt64 :=
  if attempt < 64 then 1 <<< attempt.toUInt64 else 0xFFFFFFFFFFFFFFFF

/-- The delay in milliseconds before retry number `attempt`, counted from zero: the base doubles with
each attempt, up to the maximum. -/
def delay (b : Backoff) (attempt : UInt32) : UInt64 :=
  let d := saturatingMul b.baseMs (factor attempt)
  if d ≤ b.maxMs then d else b.maxMs

end Backoff

/-- Which member of a shard serves commands that only read. -/
inductive ReplicaPolicy where
  | never
  | always
  | share
  deriving DecidableEq

namespace ReplicaPolicy

def name : ReplicaPolicy → String
  | never => "never"
  | always => "always"
  | share => "share"

def all : List ReplicaPolicy := [never, always, share]

def ofName? (s : String) : Option ReplicaPolicy := all.find? fun p => p.name == s

/-- Upper and lower case alike. -/
def ofText (s : String) : Except ClientError ReplicaPolicy :=
  match ofName? (Text.lower s) with
  | some p => .ok p
  | none => .error (.config ("unknown replica policy: " ++ Text.lower s))

end ReplicaPolicy

/-- What a sentinel is asked for. -/
inductive Role where
  | sentinel
  | master
  | replica
  deriving DecidableEq

namespace Role

def name : Role → String
  | sentinel => "sentinel"
  | master => "master"
  | replica => "replica"

/-- A replica has two names. -/
def ofName? (s : String) : Option Role :=
  if s = "slave" then some replica else [sentinel, master, replica].find? fun r => r.name == s

/-- Upper and lower case alike. -/
def ofText (s : String) : Except ClientError Role :=
  match ofName? (Text.lower s) with
  | some r => .ok r
  | none => .error (.config ("unknown role: " ++ Text.lower s))

end Role

structure ClusterSettings where
  seeds : List String := []
  replicas : ReplicaPolicy := .never
  /-- How often one command may be sent again. -/
  maxRedirects : UInt32 := 16
  backoff : Backoff := {}
  connection : ConnectionSettings := {}
  deriving DecidableEq

/-- The first address that is not one. -/
def checkAddresses : List String → Except ClientError Unit
  | [] => .ok ()
  | a :: rest => do
    let _ ← Address.split a
    checkAddresses rest

def ClusterSettings.validate (s : ClusterSettings) : Except ClientError Unit := do
  if s.seeds.isEmpty then throw (.config "at least one seed is required")
  checkAddresses s.seeds
  if s.backoff.maxMs < s.backoff.baseMs then
    throw (.config ("backoff base " ++ toString s.backoff.baseMs.toNat ++ "ms exceeds max " ++
      toString s.backoff.maxMs.toNat ++ "ms"))

structure SentinelSettings where
  /-- Addresses of sentinels, in the order they are asked. -/
  endpoints : List String := []
  masterName : String := "mymaster"
  role : Role := .master
  connection : ConnectionSettings := {}
  deriving DecidableEq

def SentinelSettings.validate (s : SentinelSettings) : Except ClientError Unit := do
  if s.endpoints.isEmpty then throw (.config "at least one sentinel endpoint is required")
  if s.masterName.isEmpty then throw (.config "master name must not be empty")
  checkAddresses s.endpoints

end RespClient
