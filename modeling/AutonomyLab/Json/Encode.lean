import Mathlib.Data.List.Sort
import Mathlib.Data.Nat.Digits.Defs
import AutonomyLab.Json.Value

/-!
# Writing JSON as Python does

`json.dumps` with `ensure_ascii`: every character outside printable ASCII is
written as an escape, so the text is the same in every encoding.

* `Layout` — the separators, and whether members are sorted by name.
* `dumps` — the text of a value.  How a float is written is the business of the
  platform and a parameter here.
-/

namespace Json

/-- `separators` and `sort_keys`. -/
structure Layout where
  item : String := ", "
  key : String := ": "
  sortKeys : Bool := false

/-- `separators=(',', ':')` and `sort_keys=True`. -/
def Layout.compact : Layout := ⟨",", ":", true⟩

def backslash : Char := Char.ofNat 92

def quote : Char := Char.ofNat 34

/-- Four hexadecimal digits. -/
def hex4 (n : ℕ) : List Char :=
  let digits := (Nat.toDigits 16 n)
  List.replicate (4 - digits.length) '0' ++ digits

/-- One UTF-16 unit as an escape. -/
def unicodeEscape (n : ℕ) : List Char := backslash :: 'u' :: hex4 n

/-- `ESCAPE_ASCII`. -/
def escaped (c : Char) : List Char :=
  if c = quote ∨ c = backslash then [backslash, c]
  else match c.toNat with
    | 8 => [backslash, 'b']
    | 9 => [backslash, 't']
    | 10 => [backslash, 'n']
    | 12 => [backslash, 'f']
    | 13 => [backslash, 'r']
    | n =>
        if 32 ≤ n ∧ n ≤ 126 then [c]
        else if n < 65536 then unicodeEscape n
        else
          let v := n - 65536
          unicodeEscape (55296 + v / 1024) ++ unicodeEscape (56320 + v % 1024)

def dumpsString (s : String) : String :=
  String.ofList (quote :: s.toList.flatMap escaped ++ [quote])

section
variable (reprFloat : ℚ → String) (L : Layout)

/-- The members of an object between its braces. -/
def dumpsFields (fs : List (String × String)) : String :=
  L.item.intercalate ((if L.sortKeys then fs.insertionSort fun p q => p.1 ≤ q.1 else fs).map
    fun p => dumpsString p.1 ++ L.key ++ p.2)

mutual

/-- `json.dumps`. -/
def dumps : Json → String
  | .null => "null"
  | .bool b => if b then "true" else "false"
  | .int n => toString n
  | .float q => reprFloat q
  | .str s => dumpsString s
  | .arr xs => "[" ++ L.item.intercalate (dumpsItems xs) ++ "]"
  | .obj fs => "\x7b" ++ dumpsFields L (dumpsMembers fs) ++ "\x7d"

def dumpsItems : List Json → List String
  | [] => []
  | x :: xs => dumps x :: dumpsItems xs

def dumpsMembers : List (String × Json) → List (String × String)
  | [] => []
  | (k, v) :: fs => (k, dumps v) :: dumpsMembers fs

end

end

end Json
