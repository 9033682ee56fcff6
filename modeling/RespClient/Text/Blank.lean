namespace RespClient.Text

/-- Blank in ASCII: space, tab, line feed, form feed and carriage return. -/
def isAsciiBlank (c : Char) : Bool :=
  c = ' ' || c = '\t' || c = '\n' || c = '\x0c' || c = '\r'

/-- The characters with the Unicode property White_Space. -/
def isBlank (c : Char) : Bool :=
  let n := c.toNat
  (0x09 ≤ n && n ≤ 0x0D) || n = 0x20 || n = 0x85 || n = 0xA0 || n = 0x1680 ||
    (0x2000 ≤ n && n ≤ 0x200A) || n = 0x2028 || n = 0x2029 || n = 0x202F || n = 0x205F || n = 0x3000

/-- The maximal runs of characters that are not blank. -/
def wordsBy (blank : Char → Bool) : List Char → List (List Char)
  | [] => []
  | c :: cs =>
    if blank c then wordsBy blank cs
    else
      match cs with
      | [] => [[c]]
      | d :: _ =>
        if blank d then [c] :: wordsBy blank cs
        else
          match wordsBy blank cs with
          | [] => [[c]]
          | w :: ws => (c :: w) :: ws

/-- The words of a text, cut at ASCII blanks. -/
def words (s : String) : List String := (wordsBy isAsciiBlank s.toList).map String.ofList

/-- The text without the blanks at its ends. -/
def trim (s : String) : String :=
  String.ofList ((s.toList.dropWhile isBlank).reverse.dropWhile isBlank).reverse

/-- Letters A to Z in upper case, all else unchanged. -/
def upper (s : String) : String := s.map Char.toUpper

/-- Letters A to Z in lower case, all else unchanged. -/
def lower (s : String) : String := s.map Char.toLower

end RespClient.Text
