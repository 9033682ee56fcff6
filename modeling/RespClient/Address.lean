import RespClient.Error

namespace RespClient.Address

/-- The parts before and after the last colon. -/
def lastColon? : List Char → Option (List Char × List Char)
  | [] => none
  | c :: cs =>
    match lastColon? cs with
    | some (host, port) => some (c :: host, port)
    | none => if c = ':' then some ([], cs) else none

/-- A host without the brackets around it. -/
def unbracket (host : List Char) : List Char :=
  ((host.dropWhile (· == '[')).reverse.dropWhile (· == ']')).reverse

/-- The host and the port of an address `host:port`. The host may itself hold colons; it is then written in
brackets. -/
def parse? (address : String) : Option (String × Nat) :=
  match lastColon? address.toList with
  | none => none
  | some (host, port) =>
    match unbracket host with
    | [] => none
    | host => (Text.Numeral.nat? 65535 port).map fun n => (String.ofList host, n)

/-- Host and port. -/
def split (address : String) : Except ClientError (String × Nat) :=
  match parse? address with
  | some parts => .ok parts
  | none => .error (.invalidAddress address)

/-- The address of a host and a port. -/
def join (host : String) (port : Nat) : String :=
  if host.toList.contains ':' then "[" ++ host ++ "]:" ++ toString port
  else host ++ ":" ++ toString port

/-- The host of an address, or all of it when it has none. -/
def hostOf (address : String) : String :=
  match parse? address with
  | some (host, _) => host
  | none => address

end RespClient.Address
