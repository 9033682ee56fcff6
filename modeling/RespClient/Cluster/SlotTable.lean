import RespClient.Address
import RespClient.Cluster.Slot

namespace RespClient.Cluster

/-- Node addresses, the master first. -/
abbrev Shard := List String

/-- Which nodes serve which slot: each slot holds the number of its shard, or nothing. A table is built as a
whole from one answer and never changed. -/
structure SlotTable where
  shards : Array Shard
  owner : Array (Option Nat)

/-- Why a reply does not describe the slots. -/
inductive TableFault where
  | wrongKind (what : String) (kind : String)
  | shortRange (length : Nat)
  | reversed (first last : Nat)
  deriving DecidableEq

def TableFault.message : TableFault → String
  | wrongKind what kind => what ++ " was a " ++ kind ++ " reply"
  | shortRange n => "slot range with " ++ toString n ++ " elements"
  | reversed first last => "slot range " ++ toString first ++ "-" ++ toString last ++ " is reversed"

def TableFault.wrong (what : String) (r : Reply) : TableFault := wrongKind what r.kind

/-- What the fault is to whoever asked for the slots. -/
def TableFault.error (f : TableFault) : ClientError := .unexpectedReply f.message

/-- One entry of the answer: a range of slots, both ends included, and the nodes that serve it. -/
structure SlotRange where
  first : Slot
  last : Slot
  nodes : Shard
  deriving DecidableEq

def slotBound (r : Reply) : Except TableFault Slot :=
  match r.number? with
  | some n =>
    if h : 0 ≤ n ∧ n.toNat < slotCount then .ok ⟨n.toNat, h.2⟩ else .error (.wrong "slot number" r)
  | none => .error (.wrong "slot number" r)

/-- The address of a node entry; an empty host is the host that answered. -/
def nodeAddress (origin : String) (r : Reply) : Except TableFault String :=
  match r.items? with
  | some (host :: port :: _) =>
    match host.text? with
    | none => .error (.wrong "node host" host)
    | some name =>
      match port.number? with
      | none => .error (.wrong "node port" port)
      | some n =>
        if 1 ≤ n ∧ n ≤ 65535 then
          .ok (Address.join (if name.isEmpty then origin else name) n.toNat)
        else .error (.wrong "node port" port)
  | _ => .error (.wrong "node entry" r)

def SlotRange.ofReply (origin : String) (r : Reply) : Except TableFault SlotRange :=
  match r.items? with
  | none => .error (.wrong "slot range" r)
  | some (first :: last :: node :: nodes) => do
    let first ← slotBound first
    let last ← slotBound last
    if last < first then .error (.reversed first last)
    else return ⟨first, last, ← (node :: nodes).mapM (nodeAddress origin)⟩
  | some items => .error (.shortRange items.length)

namespace SlotTable

def empty : SlotTable := ⟨#[], Array.replicate slotCount none⟩

/-- Give `count` slots from `first` on to the shard `id`. -/
def paint (owner : Array (Option Nat)) (id first : Nat) : Nat → Array (Option Nat)
  | 0 => owner
  | n + 1 => (paint owner id first n).setIfInBounds (first + n) (some id)

/-- The number of a list of nodes: ranges with the same nodes share one shard. -/
def shardId (shards : Array Shard) (nodes : Shard) : Nat := (shards.toList.idxOf nodes)

/-- Add a range; it takes its slots from earlier ones. -/
def add (t : SlotTable) (r : SlotRange) : SlotTable :=
  let id := shardId t.shards r.nodes
  { shards := if id = t.shards.size then t.shards.push r.nodes else t.shards
    owner := paint t.owner id r.first (r.last.val - r.first.val + 1) }

/-- Read the ranges one by one, up to the first that is malformed. -/
def ofReply (origin : String) (r : Reply) : Except TableFault SlotTable :=
  match r.items? with
  | none => .error (.wrong "CLUSTER SLOTS" r)
  | some entries => entries.foldlM (fun t e => return t.add (← SlotRange.ofReply origin e)) empty

/-- The table that an answer of the node at `origin` describes. -/
def load (origin : String) (r : Reply) : Except ClientError SlotTable :=
  (ofReply origin r).mapError TableFault.error

/-- The nodes that serve a slot, master first. -/
def shard? (t : SlotTable) (slot : Nat) : Option Shard :=
  match t.owner[slot]? with
  | some (some id) => t.shards[id]?
  | _ => none

def assigned (t : SlotTable) : Nat := t.owner.countP Option.isSome

/-- Every address of some shard, each once and in order. -/
def addresses (t : SlotTable) : List String := t.shards.toList.flatten.eraseDups.mergeSort

def isEmpty (t : SlotTable) : Bool := t.shards.isEmpty

/-- The maximal runs of slots with one list of nodes: first slot, last slot, nodes. -/
def runs (t : SlotTable) : List (Nat × Nat × Shard) :=
  (List.range slotCount).foldr
    (fun slot later =>
      match t.shard? slot with
      | none => later
      | some nodes =>
        match later with
        | (first, last, nodes') :: rest =>
          if first = slot + 1 ∧ nodes = nodes' then (slot, last, nodes) :: rest
          else (slot, slot, nodes) :: later
        | [] => [(slot, slot, nodes)])
    []

end SlotTable

end RespClient.Cluster
