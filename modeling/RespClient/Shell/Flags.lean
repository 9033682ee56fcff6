import RespClient.Settings

namespace RespClient.Shell

/-- What the shell talks to. -/
inductive Mode where
  | direct
  | cluster
  | sentinel
  deriving DecidableEq

def Mode.name : Mode → String
  | direct => "direct"
  | cluster => "cluster"
  | sentinel => "sentinel"

def Mode.ofName? (s : String) : Option Mode :=
  [Mode.direct, .cluster, .sentinel].find? fun m => m.name == s

inductive Flag where
  | help
  | mode
  | host
  | port
  | seeds
  | sentinels
  | masterName
  | role
  | replicas
  | config
  deriving DecidableEq

def Flag.ofLong? : String → Option Flag
  | "help" => some help
  | "mode" => some mode
  | "host" => some host
  | "port" => some port
  | "seeds" => some seeds
  | "sentinels" => some sentinels
  | "master-name" => some masterName
  | "role" => some role
  | "replicas" => some replicas
  | "config" => some config
  | _ => none

def Flag.ofShort? : Char → Option Flag
  | 'h' => some host
  | 'p' => some port
  | _ => none

/-- Why a command line is not run. -/
inductive UsageError where
  | displayHelp
  /-- A value is missing, or is not one of the possible ones. -/
  | invalidValue
  | valueValidation
  /-- A flag that is given once is given twice. -/
  | argumentConflict
  | tooManyValues
  deriving DecidableEq

structure Flags where
  mode : Option Mode := none
  host : Option String := none
  port : Option Nat := none
  seeds : List String := []
  sentinels : List String := []
  masterName : Option String := none
  role : Option Role := none
  replicas : Option ReplicaPolicy := none
  config : Option String := none
  command : List String := []
  deriving DecidableEq

/-- A value for a flag that is given at most once. -/
def once {α : Type} (old : Option α) (value : Except UsageError α) : Except UsageError (Option α) :=
  match old with
  | some _ => .error .argumentConflict
  | none => value.map some

/-- A port may carry a sign. -/
def portValue (s : String) : Except UsageError Nat :=
  match Text.Numeral.int64? s.toList with
  | some n => if 0 ≤ n ∧ n ≤ 65535 then .ok n.toNat else .error .valueValidation
  | none => .error .valueValidation

def validated {α : Type} : Except ClientError α → Except UsageError α
  | .ok a => .ok a
  | .error _ => .error .valueValidation

def Flags.set (f : Flags) (flag : Flag) (value : String) : Except UsageError Flags :=
  match flag with
  | .help => .error .displayHelp
  | .mode =>
    return { f with
      mode := ← once f.mode ((Mode.ofName? value).elim (.error .invalidValue) .ok) }
  | .host => return { f with host := ← once f.host (.ok value) }
  | .port => return { f with port := ← once f.port (portValue value) }
  | .seeds => return { f with seeds := f.seeds ++ value.splitOn "," }
  | .sentinels => return { f with sentinels := f.sentinels ++ value.splitOn "," }
  | .masterName => return { f with masterName := ← once f.masterName (.ok value) }
  | .role => return { f with role := ← once f.role (validated (Role.ofText value)) }
  | .replicas => return { f with replicas := ← once f.replicas (validated (ReplicaPolicy.ofText value)) }
  | .config =>
    return { f with
      config := ← once f.config (if value.isEmpty then .error .invalidValue else .ok value) }

/-- A flag that was read and has not taken effect: it awaits its value, or has it. -/
inductive Pending where
  | none
  | awaiting (flag : Flag)
  | given (flag : Flag) (value : String)

/-- A flag takes effect when the next one begins, or at the end. -/
def Pending.settle (p : Pending) (f : Flags) : Except UsageError Flags :=
  match p with
  | none => .ok f
  | awaiting _ => .error .invalidValue
  | given flag value => f.set flag value

/-- A word of the command line. -/
inductive Word where
  | escape
  | flag (name : Flag) (value : Option String)
  | plain

/-- A word that begins like a flag but names none is plain; so is a group of short flags with any
other character in it. -/
def Word.ofString (s : String) : Word :=
  match s.toList with
  | ['-', '-'] => .escape
  | '-' :: '-' :: cs =>
    let name := cs.takeWhile (· != '=')
    let value :=
      match cs.dropWhile (· != '=') with
      | [] => none
      | _ :: value => some (String.ofList value)
    match Flag.ofLong? (String.ofList name) with
    | some g => .flag g value
    | none => .plain
  | '-' :: c :: cs =>
    match Flag.ofShort? c with
    | some g =>
      if cs.all fun d => (Flag.ofShort? d).isSome then
        .flag g (if cs.isEmpty then none else some (String.ofList cs))
      else .plain
    | none => .plain
  | _ => .plain

/-- The first word that is neither a flag nor a flag's value begins the command, and everything after it belongs
to the command. -/
def Flags.read (p : Pending) (f : Flags) : List String → Except UsageError Flags
  | [] => p.settle f
  | s :: rest =>
    match Word.ofString s with
    | .escape => return { ← p.settle f with command := rest }
    | .flag .help (some _) => .error .tooManyValues
    | .flag .help none => do
      let f ← p.settle f
      f.set .help ""
    | .flag g (some value) => do
      let f ← p.settle f
      let f ← f.set g value
      Flags.read .none f rest
    | .flag g none => do
      let f ← p.settle f
      Flags.read (.awaiting g) f rest
    | .plain =>
      match p with
      | .awaiting g => Flags.read (.given g s) f rest
      | p => return { ← p.settle f with command := s :: rest }

def Flags.ofArgs (args : List String) : Except UsageError Flags := Flags.read .none {} args

end RespClient.Shell
