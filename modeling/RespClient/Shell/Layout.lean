import RespClient.Reply
import RespClient.Text.Quoted
import RespClient.Text.Lines

namespace RespClient.Shell

inductive Style where
  | green
  | red
  | dimmed
  deriving DecidableEq

def Style.code : Style → String
  | green => "32"
  | red => "31"
  | dimmed => "2"

/-- A text in a style, which is left out where there are no colours. -/
def styled (colours : Bool) (style : Style) (s : String) : String :=
  if colours then "\x1b[" ++ style.code ++ "m" ++ s ++ "\x1b[0m" else s

/-- A number flush right in `width` columns. -/
def rightAligned (width n : Nat) : String := "".pushn ' ' (width - (toString n).length) ++ toString n

/-- The lines of an element, the first one behind its number and the others below it. -/
def numbered (width i : Nat) (element : String) : String :=
  let lead := rightAligned width i ++ ") "
  let indent := "".pushn ' ' lead.length
  "\n".intercalate (((Text.lines element).zipIdx).map fun (line, j) =>
    (if j = 0 then lead else indent) ++ line)

mutual

/-- Nested lists are indented under their numbers, and colours mark the kinds. -/
def layout (colours : Bool) : Reply → String
  | .status s => styled colours .green s
  | .error s => styled colours .red ("(error) " ++ s)
  | .integer n => "(integer) " ++ toString n
  | .bulk none => styled colours .dimmed "(nil)"
  | .bulk (some data) => Text.quoted (Text.Utf8.lenient data)
  | .multi none => styled colours .dimmed "(nil)"
  | .multi (some []) => styled colours .dimmed "(empty array)"
  | .multi (some (r :: rs)) =>
    "\n".intercalate (layoutFrom colours (toString (rs.length + 1)).length 1 (r :: rs))

/-- Each element under its number, counted on from `i`. -/
def layoutFrom (colours : Bool) (width i : Nat) : List Reply → List String
  | [] => []
  | r :: rs => numbered width i (layout colours r) :: layoutFrom colours width (i + 1) rs

end

end RespClient.Shell
