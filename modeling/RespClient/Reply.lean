import RespClient.Text.Utf8
import RespClient.Text.Numeral

namespace RespClient

/-- A server's answer. Status and error texts hold no line feed; `none` is the null bulk or null
multi-bulk, which is neither the empty string nor the empty list. -/
inductive Reply where
  | status (text : String)
  | error (text : String)
  | integer (value : Int)
  | bulk (data : Option Bytes)
  | multi (items : Option (List Reply))
  deriving Inhabited

namespace Reply

def isNull : Reply → Bool
  | bulk none => true
  | multi none => true
  | _ => false

def isError : Reply → Bool
  | error _ => true
  | _ => false

def status? : Reply → Option String
  | status s => some s
  | _ => none

def error? : Reply → Option String
  | error s => some s
  | _ => none

def integer? : Reply → Option Int
  | integer n => some n
  | _ => none

def bytes? : Reply → Option Bytes
  | bulk data => data
  | _ => none

/-- A status, or a bulk that is well-formed UTF-8. -/
def text? : Reply → Option String
  | status s => some s
  | bulk (some data) => Text.Utf8.strict? data
  | _ => none

def items? : Reply → Option (List Reply)
  | multi items => items
  | _ => none

/-- An integer, or a text that spells a signed value of 64 bits. -/
def number? : Reply → Option Int
  | integer n => some n
  | r => r.text?.bind fun s => Text.Numeral.int64? s.toList

def kind : Reply → String
  | status _ => "status"
  | error _ => "error"
  | integer _ => "integer"
  | bulk none => "null"
  | bulk (some _) => "bulk"
  | multi none => "null"
  | multi (some _) => "multi-bulk"

mutual

/-- One line per scalar; the elements of a list are numbered from one. -/
def render : Reply → String
  | status s => s
  | error s => "(error) " ++ s
  | integer n => "(integer) " ++ toString n
  | bulk none => "(nil)"
  | bulk (some data) => "\"" ++ Text.Utf8.lenient data ++ "\""
  | multi none => "(nil)"
  | multi (some []) => "(empty array)"
  | multi (some (r :: rs)) => "1) " ++ r.render ++ renderFrom 2 rs

def renderFrom (i : Nat) : List Reply → String
  | [] => ""
  | r :: rs => "\n" ++ toString i ++ ") " ++ r.render ++ renderFrom (i + 1) rs

end

end Reply

end RespClient
