import RespClient.Command
import RespClient.Decimal.Shortest

namespace RespClient

inductive Value where
  | text (s : String)
  | bytes (data : Bytes)
  | int (n : Int64)
  | nat (n : UInt64)
  | float (bits : UInt64)
  | null

namespace Value

def toArg : Value → Arg
  | text s => .ofText s
  | bytes data => .bytes data
  | int n => .int n.toInt
  | nat n => .ofNat n.toNat
  | float bits => .ofText (Decimal.ofFloatBits bits)
  | null => .null

/-- The bytes of a value: a number in decimal, however it is kept. A null has none. -/
def bytes? : Value → Option Bytes
  | text s => some (Bytes.ofText s)
  | bytes data => some data
  | int n => some (Bytes.ofInt n.toInt)
  | nat n => some (Bytes.ofInt n.toNat)
  | float bits => some (Bytes.ofText (Decimal.ofFloatBits bits))
  | null => none

end Value

def Arg.bytes? : Arg → Option Bytes
  | bytes data => some data
  | int n => some (Bytes.ofInt n)
  | null => none

inductive BuilderCall where
  | arg (v : Value)
  | args (vs : List Value)
  | argList (vs : List Value)
  | key (k : Bytes)
  | readOnly (readOnly : Bool)

namespace BuilderCall

def apply (c : Command) : BuilderCall → Command
  | arg v => c.arg v.toArg
  | args vs => c.addArgs (vs.map Value.toArg)
  | argList vs => c.argList (vs.map Value.toArg)
  | key k => c.key k
  | readOnly b => c.markReadOnly b

/-- The arguments that a call appends; a list of any length has its length before it. -/
def arguments : BuilderCall → List (Option Bytes)
  | arg v => [v.bytes?]
  | args vs => vs.map Value.bytes?
  | argList vs => some (Bytes.ofInt vs.length) :: vs.map Value.bytes?
  | key k => [some k]
  | readOnly _ => []

end BuilderCall

structure Recipe where
  name : String
  calls : List BuilderCall

namespace Recipe

def command (p : Recipe) : Command := p.calls.foldl BuilderCall.apply (Command.ofName p.name)

/-- The words of the name, and what each call appends. -/
def arguments (p : Recipe) : List (Option Bytes) :=
  (Text.words p.name).map (fun w => some (Bytes.ofText w)) ++ p.calls.flatMap BuilderCall.arguments

end Recipe

theorem ofInt_natCast (n : Nat) : Bytes.ofInt n = Bytes.ofNat n := rfl

theorem Arg.bytes?_ofNat (n : Nat) : (Arg.ofNat n).bytes? = some (Bytes.ofInt n) := by
  unfold Arg.ofNat
  split
  · rfl
  · rw [Arg.bytes?, ofInt_natCast]

theorem Value.bytes?_toArg (v : Value) : v.toArg.bytes? = v.bytes? := by
  cases v with
  | nat n => exact Arg.bytes?_ofNat n.toNat
  | text s => rfl
  | bytes data => rfl
  | int n => rfl
  | float bits => rfl
  | null => rfl

theorem BuilderCall.args_apply (c : Command) (b : BuilderCall) :
    (b.apply c).args.map Arg.bytes? = c.args.map Arg.bytes? ++ b.arguments := by
  cases b with
  | arg v => simp [apply, Command.arg, arguments, Value.bytes?_toArg]
  | args vs => simp [apply, Command.addArgs, arguments, Value.bytes?_toArg]
  | argList vs =>
    simp [apply, Command.argList, Command.addArgs, Command.arg, arguments, Arg.bytes?_ofNat,
      Value.bytes?_toArg]
  | key k => simp [apply, Command.key, Command.arg, arguments, Arg.bytes?]
  | readOnly b => simp [apply, Command.markReadOnly, arguments]

theorem args_foldl_apply (c : Command) (calls : List BuilderCall) :
    (calls.foldl BuilderCall.apply c).args.map Arg.bytes? =
      c.args.map Arg.bytes? ++ calls.flatMap BuilderCall.arguments := by
  induction calls generalizing c with
  | nil => simp
  | cons b calls ih => rw [List.foldl_cons, ih, b.args_apply, List.flatMap_cons, List.append_assoc]

theorem Recipe.args_command (p : Recipe) : p.command.args.map Arg.bytes? = p.arguments := by
  rw [command, args_foldl_apply, arguments]
  congr 1
  simp only [Command.ofName, List.map_map]
  rfl

end RespClient
