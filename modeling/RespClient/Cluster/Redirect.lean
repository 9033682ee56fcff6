import RespClient.Address
import RespClient.Cluster.Slot
import RespClient.Text.Blank

namespace RespClient.Cluster

/-- An error reply by which a cluster sends a command elsewhere, or asks it to wait. -/
inductive Redirect where
  /-- The slot belongs to another node from now on. -/
  | moved (slot : Slot) (address : String)
  /-- The slot is moving: the next attempt, and only that one, goes there. -/
  | ask (slot : Slot) (address : String)
  | tryAgain
  | clusterDown
  deriving DecidableEq

/-- A slot number and an address, as the words after the first; more words are ignored. -/
def slotAndAddress? : List String → Option (Slot × String)
  | slot :: address :: _ =>
    match Text.Numeral.nat? 65535 slot.toList with
    | none => none
    | some n =>
      if h : n < slotCount then
        if address.toList.contains ':' then some (⟨n, h⟩, address) else none
      else none
  | _ => none

/-- An error text is a redirect by its first word, which must match exactly. -/
def Redirect.ofText? (text : String) : Option Redirect :=
  match Text.words text with
  | [] => none
  | word :: rest =>
    if word = "MOVED" then (slotAndAddress? rest).map fun (slot, address) => .moved slot address
    else if word = "ASK" then (slotAndAddress? rest).map fun (slot, address) => .ask slot address
    else if word = "TRYAGAIN" then some .tryAgain
    else if word = "CLUSTERDOWN" then some .clusterDown
    else none

/-- The redirect that a failed command asks for. -/
def Redirect.ofError? (e : ClientError) : Option Redirect := e.replyText?.bind Redirect.ofText?

/-- A server that does not know the host of the target names only its port; the host is then the one
that the server itself was reached at. -/
def resolveTarget (address origin : String) : String :=
  match address.toList with
  | ':' :: port =>
    match Text.Numeral.nat? 65535 port, Address.parse? origin with
    | some n, some (host, _) => Address.join host n
    | _, _ => address
  | _ => address

end RespClient.Cluster
