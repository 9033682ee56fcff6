import RespClient.Reply.Decoder

namespace RespClient.Simulation

/-- What becomes of new connections to a node. -/
inductive Mode where
  | listen
  | refuse
  | hang
  deriving DecidableEq

/-- What a node does with a connection after its answer. -/
inductive Ending where
  | stays
  | closes
  | resets
  deriving DecidableEq

/-- Parts of an answer, a millisecond apart, and what follows them. -/
structure Reaction where
  chunks : List Bytes := []
  ending : Ending := .stays

/-- The arguments of a request; none is the null bulk. -/
abbrev Asked := List (Option Bytes)

/-- Answers to requests that begin with some words, one after the other; the last one repeats. -/
structure Rule where
  words : List Bytes
  reactions : List Reaction
  used : Nat := 0

def lowerByte (b : UInt8) : UInt8 := if 65 ≤ b ∧ b ≤ 90 then b + 32 else b

/-- Upper and lower case are alike in the first word only. -/
def Rule.applies (rule : Rule) (asked : Asked) : Bool :=
  match rule.words, asked with
  | [], _ => true
  | w :: ws, some a :: rest => w.map lowerByte == a.map lowerByte && (ws.map some).isPrefixOf rest
  | _ :: _, _ => false

def Rule.reaction (rule : Rule) : Reaction :=
  (rule.reactions[min rule.used (rule.reactions.length - 1)]?).getD {}

structure Node where
  address : String
  mode : Mode := .listen
  rules : List Rule := []
  /-- How many connections were accepted. -/
  accepted : Nat := 0
  /-- Requests in the order they came, each with the number of its connection. -/
  log : List (Nat × Asked) := []

/-- The answer to a request that no rule applies to. -/
def unknownCommand : Reaction := { chunks := [Bytes.ofText "-ERR unknown command\r\n"] }

/-- The first rule that applies, used once more, and its answer. -/
def useRule (asked : Asked) : List Rule → Reaction × List Rule
  | [] => (unknownCommand, [])
  | rule :: rules =>
    if rule.applies asked then (rule.reaction, { rule with used := rule.used + 1 } :: rules)
    else
      let (reaction, rules) := useRule asked rules
      (reaction, rule :: rules)

def Node.ask (n : Node) (number : Nat) (asked : Asked) : Reaction × Node :=
  let (reaction, rules) := useRule asked n.rules
  (reaction, { n with rules := rules, log := n.log ++ [(number, asked)] })

/-- What reaches the client's end of a connection. -/
inductive Arrival where
  | bytes (bs : Bytes)
  | closed
  | reset

/-- Chunks from `start` on; an empty one only takes its time. -/
def arrivals (start : Nat) : List Bytes → List (Nat × Arrival)
  | [] => []
  | c :: cs =>
    (if c.isEmpty then [] else [(start, .bytes c)]) ++ arrivals (start + 1) cs

def Ending.arrival? : Ending → Option Arrival
  | stays => none
  | closes => some .closed
  | resets => some .reset

/-- When the last of several chunks is sent. -/
def lastChunk (start : Nat) (chunks : List Bytes) : Nat := start + (chunks.length - 1)

/-- A request off the wire: a list of bulks. -/
def asked? : Reply → Option Asked
  | .multi (some items) => items.mapM fun
    | .bulk data => some data
    | _ => none
  | _ => none

end RespClient.Simulation
