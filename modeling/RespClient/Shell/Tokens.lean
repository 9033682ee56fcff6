import RespClient.Command

namespace RespClient.Shell

inductive Quote where
  | single
  | double
  deriving DecidableEq

def Quote.char : Quote → Char
  | single => '\''
  | double => '"'

/-- Where the scan stands: between tokens, in a bare token, in a quote, or behind a backslash in a
double quote. The token so far is kept newest character first. -/
inductive Scan where
  | between
  | bare (token : List Char)
  | inQuote (q : Quote) (token : List Char)
  | escaped (token : List Char)

/-- What a character behind a backslash stands for. -/
def unescape (c : Char) : Char :=
  if c = 'n' then '\n' else if c = 'r' then '\r' else if c = 't' then '\t' else c

def quote? (c : Char) : Option Quote :=
  if c = '"' then some .double else if c = '\'' then some .single else none

/-- A character outside quotes that continues `token`. -/
def Scan.outside (token : List Char) (c : Char) : Scan :=
  match quote? c with
  | some q => .inQuote q token
  | none => .bare (c :: token)

/-- The tokens of the rest of a line; none when it ends inside a quote. -/
def tokensFrom : Scan → List Char → Option (List String)
  | .between, [] => some []
  | .bare token, [] => some [String.ofList token.reverse]
  | .inQuote _ _, [] => none
  | .escaped _, [] => none
  | .between, c :: cs =>
    if Text.isBlank c then tokensFrom .between cs else tokensFrom (Scan.outside [] c) cs
  | .bare token, c :: cs =>
    if Text.isBlank c then (tokensFrom .between cs).map (String.ofList token.reverse :: ·)
    else tokensFrom (Scan.outside token c) cs
  | .inQuote q token, c :: cs =>
    if c = q.char then tokensFrom (.bare token) cs
    else if q = .double ∧ c = '\\' then tokensFrom (.escaped token) cs
    else tokensFrom (.inQuote q (c :: token)) cs
  | .escaped token, c :: cs => tokensFrom (.inQuote .double (unescape c :: token)) cs

/-- Blanks separate tokens; single and double quotes group, and a backslash escapes inside double quotes only. -/
def tokens? (line : String) : Option (List String) := tokensFrom .between line.toList

/-- Commands whose first argument is no key. -/
def keylessNames : Text.NameTable where
  names := #[
    "ASKING", "AUTH", "BGREWRITEAOF", "BGSAVE", "CLIENT", "CLUSTER", "COMMAND", "CONFIG",
    "DBSIZE", "DEBUG", "DISCARD", "ECHO", "EVAL", "EVALSHA", "EXEC", "FLUSHALL", "FLUSHDB",
    "HELLO", "INFO", "KEYS", "LASTSAVE", "LATENCY", "MEMORY", "MONITOR", "MULTI", "PING",
    "PSUBSCRIBE", "PUBLISH", "PUNSUBSCRIBE", "QUIT", "RANDOMKEY", "READONLY", "READWRITE", "ROLE",
    "SAVE", "SCAN", "SCRIPT", "SELECT", "SENTINEL", "SHUTDOWN", "SLOWLOG", "SUBSCRIBE", "TIME",
    "UNSUBSCRIBE", "UNWATCH", "WAIT"]
  ascending := by decide +kernel

def isKeyless (name : String) : Bool := keylessNames.contains (Text.upper name)

/-- The command that tokens spell: the first argument is the routing key unless the command takes
none. There is no command without tokens. -/
def command? : List String → Option Command
  | [] => none
  | [name] => some (Command.ofName name)
  | name :: first :: rest =>
    let command := Command.ofName name
    let command :=
      if isKeyless name then command.arg (Arg.ofText first) else command.key (Bytes.ofText first)
    some (command.addArgs (rest.map Arg.ofText))

end RespClient.Shell
