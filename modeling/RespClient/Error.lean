import RespClient.Reply.Decoder
import RespClient.Text.Quoted

namespace RespClient

/-- Failures of a socket, as the operating system words them. -/
inductive SocketFailure where
  | refused
  | brokenPipe
  | reset
  deriving DecidableEq

def SocketFailure.message : SocketFailure → String
  | refused => "Connection refused (os error 111)"
  | brokenPipe => "Broken pipe (os error 32)"
  | reset => "Connection reset by peer (os error 104)"

/-- Two lower-case hexadecimal digits. -/
def hexByte (b : UInt8) : String :=
  String.ofList [Nat.digitChar (b.toNat / 16), Nat.digitChar (b.toNat % 16)]

def Reply.Malformed.message : Reply.Malformed → String
  | lineEnd => "line not terminated by CRLF"
  | emptyLine => "empty reply line"
  | marker b => "invalid reply prefix: 0x" ++ hexByte b
  | numeral field => "invalid integer: " ++ Text.quoted (Text.Utf8.lenient field)
  | bulkLength n => "invalid bulk length: " ++ toString n
  | bulkLimit n limit => "bulk length " ++ toString n ++ " exceeds " ++ toString limit ++ " byte limit"
  | bulkEnd => "bulk payload missing CRLF"
  | multiSize n => "invalid multi-bulk size: " ++ toString n
  | depth limit => "multi-bulk nesting exceeds depth " ++ toString limit

/-- What can go wrong for a caller. -/
inductive ClientError where
  /-- The connection ended before the command could complete. -/
  | connectionClosed
  | io (reason : String)
  | connectTimeout (address : String)
  /-- The server sent bytes that are no reply. -/
  | protocol (reason : String)
  /-- The server answered with an error, kept as it was sent. -/
  | reply (text : String)
  /-- A reply had not the shape that was asked for. -/
  | unexpectedReply (reason : String)
  | invalidAddress (address : String)
  | noConnection
  | noEndpoints
  | config (reason : String)
  deriving DecidableEq

namespace ClientError

def ofSocket (f : SocketFailure) : ClientError := io f.message

def ofMalformed (m : Reply.Malformed) : ClientError := protocol m.message

def message : ClientError → String
  | connectionClosed => "connection closed"
  | io reason => "I/O error: " ++ reason
  | connectTimeout address => "connect timeout: " ++ address
  | protocol reason => "protocol error: " ++ reason
  | reply text => text
  | unexpectedReply reason => "unexpected reply: " ++ reason
  | invalidAddress address => "invalid address: " ++ address
  | noConnection => "no connection available"
  | noEndpoints => "no endpoints available"
  | config reason => "configuration error: " ++ reason

/-- The message, and below it the failure that caused this one. -/
def chain : ClientError → List String
  | io reason => [message (io reason), reason]
  | e => [e.message]

def isConnectionClosed : ClientError → Bool
  | connectionClosed => true
  | _ => false

def replyText? : ClientError → Option String
  | reply text => some text
  | _ => none

/-- The failure is the connection's, not the server's or the caller's. -/
def isTransport : ClientError → Bool
  | connectionClosed | io _ | connectTimeout _ | protocol _ => true
  | _ => false

end ClientError

/-- What a command comes to: a reply, or the reason that there is none. -/
abbrev Outcome := Except ClientError Reply

/-- An error reply is the command's failure; any other reply is its result. -/
def Outcome.ofReply : Reply → Outcome
  | .error text => .error (.reply text)
  | r => .ok r

end RespClient
