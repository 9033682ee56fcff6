import RespClient.Address
import RespClient.Command
import RespClient.Settings

namespace RespClient.Sentinel

/-- Announcements of a new master come on this channel. -/
def switchChannel : String := "+switch-master"

def subscription : Command := (Command.ofName "SUBSCRIBE").arg (Arg.ofText switchChannel)

/-- The question for the address that serves a role. A sentinel itself is only asked for a sign of
life. -/
def question (role : Role) (master : String) : Command :=
  match role with
  | .sentinel => Command.ofName "PING"
  | .master => (Command.ofName "SENTINEL get-master-addr-by-name").arg (Arg.ofText master)
  | .replica => (Command.ofName "SENTINEL slaves").arg (Arg.ofText master)

/-- Why an answer names no address. -/
inductive AnswerFault where
  | unknownMaster (master : String)
  | masterFields (count : Nat)
  | noReplicas (master : String)
  | replicaKind (kind : String)
  | replicaFields
  | hostKind (kind : String)
  | portKind (kind : String)
  deriving DecidableEq

def AnswerFault.message : AnswerFault → String
  | unknownMaster master => "unknown master " ++ master
  | masterFields n => "master address has " ++ toString n ++ " fields"
  | noReplicas master => "no replicas known for " ++ master
  | replicaKind kind => "replica entry was " ++ kind
  | replicaFields => "replica entry without ip/port"
  | hostKind kind => "host was " ++ kind
  | portKind kind => "port was " ++ kind

/-- A host that is not empty, and a port. -/
def addressOf (host port : Reply) : Except AnswerFault String :=
  match host.text?.filter fun h => !h.isEmpty with
  | none => .error (.hostKind host.kind)
  | some h =>
    match port.number?.filter fun n => 0 ≤ n ∧ n ≤ 65535 with
    | none => .error (.portKind port.kind)
    | some n => .ok (Address.join h n.toNat)

def masterAddress (master : String) (r : Reply) : Except AnswerFault String :=
  match r.items? with
  | none => .error (.unknownMaster master)
  | some (host :: port :: _) => addressOf host port
  | some items => .error (.masterFields items.length)

/-- The last value that stands behind a field's name, in a flat list of names and values. -/
def fieldValue? (name : String) : List Reply → Option Reply
  | k :: v :: rest => fieldValue? name rest <|> if k.text? = some name then some v else none
  | _ => none

def replicaAddress (r : Reply) : Except AnswerFault String :=
  match r.items? with
  | none => .error (.replicaKind r.kind)
  | some fields =>
    match fieldValue? "ip" fields, fieldValue? "port" fields with
    | some host, some port => addressOf host port
    | _, _ => .error .replicaFields

/-- The address that a reply names for a role; one of several replicas, as `choice` falls. -/
def readAnswer (role : Role) (endpoint master : String) (choice : Nat) (r : Reply) :
    Except AnswerFault String :=
  match role with
  | .sentinel => .ok endpoint
  | .master => masterAddress master r
  | .replica =>
    match r.items? with
    | some (first :: rest) =>
      replicaAddress ((first :: rest).getD (choice % (rest.length + 1)) first)
    | _ => .error (.noReplicas master)

/-- A delivery on a channel: a list that begins with `message`, in upper or lower case. -/
def isMessage (r : Reply) : Bool :=
  match r.items? with
  | some (kind :: _) => kind.text?.any fun s => Text.lower s == "message"
  | _ => false

end RespClient.Sentinel
