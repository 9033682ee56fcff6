namespace RespClient.Text

/-- Alphabetical order, by code points. -/
def precedes (a b : String) : Bool := a.toList.lex b.toList fun c d => c < d

/-- Names in alphabetical order, each once. -/
structure NameTable where
  names : Array String
  ascending : names.toList.Pairwise fun a b => precedes a b

/-- Whether a name is among the `size` names from `base` on. While there are several, the middle one
decides which of the halves can hold it. -/
def bisect (names : Array String) (name : String) (base size : Nat) : Bool :=
  if size ≤ 1 then names[base]? = some name
  else
    let middle := base + size / 2
    let base := if names[middle]?.any (precedes name) then base else middle
    bisect names name base (size - size / 2)
termination_by size

namespace NameTable

def contains (t : NameTable) (name : String) : Bool := bisect t.names name 0 t.names.size

end NameTable

end RespClient.Text
