import AutonomyLab.Json.Encode

/-!
# Writing JSON without escapes for other alphabets

`json.dumps` with `ensure_ascii=False`: only quotes, backslashes and control characters
are escaped.
-/

namespace Json

/-- `ESCAPE`. -/
def escapedControl (c : Char) : List Char :=
  if c = quote ∨ c = backslash then [backslash, c]
  else match c.toNat with
    | 8 => [backslash, 'b']
    | 9 => [backslash, 't']
    | 10 => [backslash, 'n']
    | 12 => [backslash, 'f']
    | 13 => [backslash, 'r']
    | n => if n < 32 then unicodeEscape n else [c]

def dumpsStringUnicode (s : String) : String :=
  String.ofList (quote :: s.toList.flatMap escapedControl ++ [quote])

section
variable (reprFloat : ℚ → String) (L : Layout)

/-- The members of an object between its braces, in the order they were put in. -/
def dumpsFieldsUnicode (fs : List (String × String)) : String :=
  L.item.intercalate (fs.map fun p => dumpsStringUnicode p.1 ++ L.key ++ p.2)

mutual

/-- `json.dumps` with `ensure_ascii=False`. -/
def dumpsUnicode : Json → String
  | .null => "null"
  | .bool b => if b then "true" else "false"
  | .int n => toString n
  | .float q => reprFloat q
  | .str s => dumpsStringUnicode s
  | .arr xs => "[" ++ L.item.intercalate (dumpsItemsUnicode xs) ++ "]"
  | .obj fs => "\x7b" ++ dumpsFieldsUnicode L (dumpsMembersUnicode fs) ++ "\x7d"

def dumpsItemsUnicode : List Json → List String
  | [] => []
  | x :: xs => dumpsUnicode x :: dumpsItemsUnicode xs

def dumpsMembersUnicode : List (String × Json) → List (String × String)
  | [] => []
  | (k, v) :: fs => (k, dumpsUnicode v) :: dumpsMembersUnicode fs

end

end

end Json
