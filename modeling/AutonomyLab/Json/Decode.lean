import AutonomyLab.Json.Encode

/-!
# Reading JSON as Python does

`json.loads` on text: a scanner for values, and the dictionaries it makes of what it
scanned.  Values that have no place in `Json` (`NaN`, the infinities, and strings with
half of a surrogate pair) are not read.

* `scanValue` — a value at the head of a text, and what is left of the text.
* `collapse` — of members of one name the last counts, at the place of the first.
* `loads` — the value of a whole text.
* `scanString_dumps`, `scanNumber_int` — strings and integers that were written read back.
-/

namespace Json

/-! ## Characters -/

def lbrace : Char := Char.ofNat 123

def rbrace : Char := Char.ofNat 125

/-- `WHITESPACE`. -/
def isWhitespace (c : Char) : Bool := [32, 9, 10, 13].contains c.toNat

def skipWs (cs : List Char) : List Char := cs.dropWhile isWhitespace

def hexValue? (c : Char) : Option ℕ :=
  let n := c.toNat
  if 48 ≤ n ∧ n ≤ 57 then some (n - 48)
  else if 97 ≤ n ∧ n ≤ 102 then some (n - 87)
  else if 65 ≤ n ∧ n ≤ 70 then some (n - 55)
  else none

/-! ## Strings -/

/-- `_decode_uXXXX`. -/
def scanHex4 : List Char → Option (ℕ × List Char)
  | a :: b :: c :: d :: rest => do
      let a ← hexValue? a
      let b ← hexValue? b
      let c ← hexValue? c
      let d ← hexValue? d
      return (((a * 16 + b) * 16 + c) * 16 + d, rest)
  | _ => none

/-- `BACKSLASH`. -/
def simpleEscape? (c : Char) : Option Char :=
  if c = quote ∨ c = backslash ∨ c = '/' then some c
  else match c with
    | 'b' => some (Char.ofNat 8)
    | 'f' => some (Char.ofNat 12)
    | 'n' => some (Char.ofNat 10)
    | 'r' => some (Char.ofNat 13)
    | 't' => some (Char.ofNat 9)
    | _ => none

/-- The unit that follows a high surrogate. -/
def scanLow : List Char → Option (ℕ × List Char)
  | b :: u :: rest => do
      guard (b = backslash ∧ u = 'u')
      let (low, rest) ← scanHex4 rest
      guard (56320 ≤ low ∧ low ≤ 57343)
      return (low, rest)
  | _ => none

/-- The character an escape stands for, after the backslash. -/
def scanEscape : List Char → Option (Char × List Char)
  | [] => none
  | c :: rest =>
      if c = 'u' then do
        let (unit, rest) ← scanHex4 rest
        if 55296 ≤ unit ∧ unit ≤ 56319 then
          let (low, rest) ← scanLow rest
          return (Char.ofNat (65536 + (unit - 55296) * 1024 + (low - 56320)), rest)
        else if 56320 ≤ unit ∧ unit ≤ 57343 then none
        else return (Char.ofNat unit, rest)
      else (simpleEscape? c).map fun e => (e, rest)

/-- `scanstring`, after the opening quote; control characters are refused. -/
def scanString : ℕ → List Char → Option (List Char × List Char)
  | 0, _ | _, [] => none
  | n + 1, c :: rest =>
      if c = quote then some ([], rest)
      else if c = backslash then do
        let (e, rest) ← scanEscape rest
        let (cs, rest) ← scanString n rest
        return (e :: cs, rest)
      else if c.toNat < 32 then none
      else do
        let (cs, rest) ← scanString n rest
        return (c :: cs, rest)

/-! ## Numbers -/

/-- `-?`. -/
def scanSign : List Char → List Char × List Char
  | [] => ([], [])
  | c :: rest => if c = '-' then ([c], rest) else ([], c :: rest)

/-- `0|[1-9][0-9]*`. -/
def scanInt : List Char → Option (List Char × List Char)
  | [] => none
  | c :: rest =>
      if c = '0' then some ([c], rest)
      else if c.isDigit then
        some (c :: rest.takeWhile Char.isDigit, rest.dropWhile Char.isDigit)
      else none

/-- `[0-9]+` after what introduces it, or nothing. -/
def scanDigits (lead : List Char) (all rest : List Char) : List Char × List Char :=
  if rest.takeWhile Char.isDigit = [] then ([], all)
  else (lead ++ rest.takeWhile Char.isDigit, rest.dropWhile Char.isDigit)

/-- `(\.[0-9]+)?`. -/
def scanFraction : List Char → List Char × List Char
  | [] => ([], [])
  | c :: rest => if c = '.' then scanDigits [c] (c :: rest) rest else ([], c :: rest)

/-- `([eE][-+]?[0-9]+)?`. -/
def scanExponent : List Char → List Char × List Char
  | [] => ([], [])
  | c :: rest =>
      if c = 'e' ∨ c = 'E' then match rest with
        | [] => ([], [c])
        | s :: rest' =>
            if s = '-' ∨ s = '+' then scanDigits [c, s] (c :: rest) rest'
            else scanDigits [c] (c :: rest) rest
      else ([], c :: rest)

section
variable (parseFloat : String → Option ℚ)

/-- `NUMBER_RE`, and the number it matched. -/
def scanNumber (cs : List Char) : Option (Json × List Char) := do
  let (sign, rest) := scanSign cs
  let (digits, rest) ← scanInt rest
  let (fraction, rest) := scanFraction rest
  let (exponent, rest) := scanExponent rest
  if fraction = [] ∧ exponent = [] then
    let n : ℤ := Nat.ofDigitChars 10 digits 0
    return (.int (if sign = [] then n else -n), rest)
  else
    let q ← parseFloat (String.ofList (sign ++ digits ++ fraction ++ exponent))
    return (.float q, rest)

/-! ## Values -/

/-- A literal. -/
def scanWord (word : String) (value : Json) (cs : List Char) : Option (Json × List Char) :=
  if word.toList.isPrefixOf cs then some (value, cs.drop word.length) else none

mutual

/-- `scan_once`: the value at the head of a text. -/
def scanValue : ℕ → List Char → Option (Json × List Char)
  | 0, _ | _, [] => none
  | n + 1, c :: rest =>
      if c = quote then do
        let (cs, rest) ← scanString (rest.length + 1) rest
        return (.str (String.ofList cs), rest)
      else if c = lbrace then match skipWs rest with
        | [] => none
        | d :: rest' =>
            if d = rbrace then some (.obj [], rest')
            else (scanMembers n (d :: rest')).map fun r => (.obj r.1, r.2)
      else if c = '[' then match skipWs rest with
        | [] => none
        | d :: rest' =>
            if d = ']' then some (.arr [], rest')
            else (scanItems n (d :: rest')).map fun r => (.arr r.1, r.2)
      else if c = 'n' then scanWord "null" .null (c :: rest)
      else if c = 't' then scanWord "true" (.bool true) (c :: rest)
      else if c = 'f' then scanWord "false" (.bool false) (c :: rest)
      else scanNumber parseFloat (c :: rest)

/-- `JSONArray`, from an entry to the bracket. -/
def scanItems : ℕ → List Char → Option (List Json × List Char)
  | 0, _ => none
  | n + 1, cs => do
      let (v, rest) ← scanValue n cs
      match skipWs rest with
      | [] => none
      | d :: rest =>
          if d = ']' then return ([v], rest)
          else do
            guard (d = ',')
            let (vs, rest) ← scanItems n (skipWs rest)
            return (v :: vs, rest)

/-- `JSONObject`, from a member to the brace. -/
def scanMembers : ℕ → List Char → Option (List (String × Json) × List Char)
  | 0, _ | _, [] => none
  | n + 1, c :: rest => do
      guard (c = quote)
      let (k, rest) ← scanString (rest.length + 1) rest
      match skipWs rest with
      | [] => none
      | d :: rest => do
          guard (d = ':')
          let (v, rest) ← scanValue n (skipWs rest)
          match skipWs rest with
          | [] => none
          | d :: rest =>
              if d = rbrace then return ([(String.ofList k, v)], rest)
              else do
                guard (d = ',')
                let (fs, rest) ← scanMembers n (skipWs rest)
                return ((String.ofList k, v) :: fs, rest)

end

end

/-- Members are put into a dictionary one after the other. -/
def dictOf (fs : List (String × Json)) : List (String × Json) :=
  fs.foldl (fun acc p => setField p.1 p.2 acc) []

mutual

/-- The dictionaries of a value that was scanned. -/
def collapse : Json → Json
  | .arr xs => .arr (collapseItems xs)
  | .obj fs => .obj (dictOf (collapseMembers fs))
  | v => v

def collapseItems : List Json → List Json
  | [] => []
  | x :: xs => collapse x :: collapseItems xs

def collapseMembers : List (String × Json) → List (String × Json)
  | [] => []
  | (k, v) :: fs => (k, collapse v) :: collapseMembers fs

end

/-- A whole text, between white space. -/
def scan (parseFloat : String → Option ℚ) (text : List Char) : Option Json := do
  let (v, rest) ← scanValue parseFloat (2 * text.length + 2) (skipWs text)
  guard (skipWs rest = [])
  return v

/-- `json.loads`. -/
def loads (parseFloat : String → Option ℚ) (text : List Char) : Option Json :=
  (scan parseFloat text).map collapse

/-! ## Strings read back -/

theorem hexValue?_digitChar : ∀ d < 16, hexValue? (Nat.digitChar d) = some d := by decide

theorem hex4_eq {n : ℕ} (h : n < 65536) : hex4 n =
    [Nat.digitChar (n / 4096), Nat.digitChar (n / 256 % 16), Nat.digitChar (n / 16 % 16),
      Nat.digitChar (n % 16)] := by
  have hzero : Nat.digitChar 0 = '0' := rfl
  have hstep : ∀ m, 16 ≤ m → Nat.toDigits 16 m = Nat.toDigits 16 (m / 16) ++ [Nat.digitChar (m % 16)] :=
    fun m hm => Nat.toDigits_of_base_le (by decide) hm
  have hlast : ∀ m, m < 16 → Nat.toDigits 16 m = [Nat.digitChar m] :=
    fun m hm => Nat.toDigits_of_lt_base hm
  have h₁ : n / 16 / 16 = n / 256 := by omega
  have h₂ : n / 256 / 16 = n / 4096 := by omega
  unfold hex4
  by_cases h16 : n < 16
  · rw [hlast n h16]
    simp [show n / 4096 = 0 by omega, show n / 256 = 0 by omega, show n / 16 = 0 by omega,
      show n % 16 = n by omega, hzero]
  · rw [hstep n (by omega)]
    by_cases h256 : n / 16 < 16
    · rw [hlast _ h256]
      simp [show n / 4096 = 0 by omega, show n / 256 = 0 by omega, show n / 16 % 16 = n / 16 by omega,
        hzero]
    · rw [hstep (n / 16) (by omega), h₁]
      by_cases h4096 : n / 256 < 16
      · rw [hlast _ h4096]
        simp [show n / 4096 = 0 by omega, show n / 256 % 16 = n / 256 by omega, hzero]
      · rw [hstep (n / 256) (by omega), h₂, hlast _ (by omega)]
        simp

theorem scanHex4_hex4 {n : ℕ} (h : n < 65536) (rest : List Char) :
    scanHex4 (hex4 n ++ rest) = some (n, rest) := by
  rw [hex4_eq h]
  simp only [List.cons_append, List.nil_append, scanHex4,
    hexValue?_digitChar (n / 4096) (by omega), hexValue?_digitChar (n / 256 % 16) (by omega),
    hexValue?_digitChar (n / 16 % 16) (by omega), hexValue?_digitChar (n % 16) (by omega),
    Option.bind_eq_bind, Option.bind_some, Option.pure_def, Option.some.injEq, Prod.mk.injEq,
    and_true]
  omega

theorem scanEscape_unicode {n : ℕ} (h : n < 55296 ∨ 57343 < n ∧ n < 65536) (rest : List Char) :
    scanEscape ('u' :: (hex4 n ++ rest)) = some (Char.ofNat n, rest) := by
  rw [scanEscape, if_pos rfl, scanHex4_hex4 (by omega)]
  simp only [Option.bind_eq_bind, Option.bind_some]
  rw [if_neg (by omega), if_neg (by omega)]
  rfl

theorem scanEscape_pair {v : ℕ} (h : v < 1048576) (rest : List Char) :
    scanEscape ('u' :: (hex4 (55296 + v / 1024) ++ (unicodeEscape (56320 + v % 1024) ++ rest))) =
      some (Char.ofNat (65536 + v), rest) := by
  rw [scanEscape, if_pos rfl, scanHex4_hex4 (by omega)]
  simp only [Option.bind_eq_bind, Option.bind_some]
  rw [if_pos (by omega)]
  have hlow : scanLow (unicodeEscape (56320 + v % 1024) ++ rest) = some (56320 + v % 1024, rest) := by
    rw [unicodeEscape, List.cons_append, List.cons_append, scanLow, scanHex4_hex4 (by omega)]
    have : 56320 ≤ 56320 + v % 1024 ∧ 56320 + v % 1024 ≤ 57343 := by omega
    simp [guard, this]
  rw [hlow]
  have hv : 65536 + (55296 + v / 1024 - 55296) * 1024 + (56320 + v % 1024 - 56320) = 65536 + v := by
    omega
  simp only [Option.bind_some, hv]
  rfl

theorem toNat_lt (c : Char) : c.toNat < 55296 ∨ 57343 < c.toNat ∧ c.toNat < 1114112 := c.valid

theorem scanString_cons {c : Char} (hq : c ≠ quote) (hb : c ≠ backslash) (h : 32 ≤ c.toNat) (n : ℕ)
    (rest : List Char) : scanString (n + 1) (c :: rest) =
      (scanString n rest).map fun r => (c :: r.1, r.2) := by
  rw [scanString, if_neg hq, if_neg hb, if_neg (by omega)]
  cases scanString n rest <;> rfl

theorem scanString_escape {e : Char} {rest rest' : List Char} (h : scanEscape rest = some (e, rest'))
    (n : ℕ) : scanString (n + 1) (backslash :: rest) =
      (scanString n rest').map fun r => (e :: r.1, r.2) := by
  have hq : backslash ≠ quote := by decide
  rw [scanString, if_neg hq, if_pos rfl, h]
  simp only [Option.bind_eq_bind, Option.bind_some]
  cases scanString n rest' <;> rfl

/-- A character that was written reads back. -/
theorem scanString_escaped (c : Char) (n : ℕ) (rest : List Char) :
    scanString (n + 1) (escaped c ++ rest) =
      (scanString n rest).map fun r => (c :: r.1, r.2) := by
  have hc : Char.ofNat c.toNat = c := Char.ofNat_toNat c
  have hv := toNat_lt c
  unfold escaped
  split
  · rename_i h
    refine scanString_escape ?_ n
    have hu : c ≠ 'u' := by rintro rfl; revert h; decide
    have hs : simpleEscape? c = some c := if_pos (by tauto)
    change scanEscape (c :: rest) = _
    rw [scanEscape, if_neg hu, hs, Option.map_some]
  · rename_i h
    rw [not_or] at h
    split
    · rename_i hn
      rw [← hc, hn]
      exact scanString_escape rfl n
    · rename_i hn
      rw [← hc, hn]
      exact scanString_escape rfl n
    · rename_i hn
      rw [← hc, hn]
      exact scanString_escape rfl n
    · rename_i hn
      rw [← hc, hn]
      exact scanString_escape rfl n
    · rename_i hn
      rw [← hc, hn]
      exact scanString_escape rfl n
    · dsimp only
      split
      · rename_i hn
        exact scanString_cons h.1 h.2 hn.1 n rest
      · split
        · rename_i hn
          have hone := scanEscape_unicode (n := c.toNat) (by omega) rest
          rw [hc] at hone
          rw [unicodeEscape, List.cons_append, List.cons_append]
          exact scanString_escape hone n
        · rename_i hn
          have hlt : c.toNat - 65536 < 1048576 := by omega
          have hpair := scanEscape_pair hlt rest
          rw [show 65536 + (c.toNat - 65536) = c.toNat by omega, hc] at hpair
          rw [List.append_assoc, unicodeEscape, List.cons_append, List.cons_append]
          exact scanString_escape hpair n

/-- **A string that was written reads back.** -/
theorem scanString_dumps (cs rest : List Char) {n : ℕ} (h : cs.length < n) :
    scanString n (cs.flatMap escaped ++ quote :: rest) = some (cs, rest) := by
  induction cs generalizing n with
  | nil =>
      obtain ⟨n, rfl⟩ : ∃ m, n = m + 1 := ⟨n - 1, by simp at h; omega⟩
      rw [List.flatMap_nil, List.nil_append, scanString, if_pos rfl]
  | cons c cs ih =>
      rw [List.length_cons] at h
      obtain ⟨n, rfl⟩ : ∃ m, n = m + 1 := ⟨n - 1, by omega⟩
      rw [List.flatMap_cons, List.append_assoc, scanString_escaped, ih (by omega)]
      rfl

theorem length_le_flatMap (cs : List Char) : cs.length ≤ (cs.flatMap escaped).length := by
  induction cs with
  | nil => simp
  | cons c cs ih =>
      have h : 1 ≤ (escaped c).length := by
        unfold escaped
        split
        · simp
        · split <;> try simp
          split
          · simp
          · split
            · exact Nat.le_add_left 1 _
            · rw [unicodeEscape, List.cons_append]
              exact Nat.le_add_left 1 _
      rw [List.flatMap_cons, List.length_cons, List.length_append]
      omega

/-! ## Numbers read back -/

/-- What follows a number does not continue it. -/
def Stops (rest : List Char) : Prop :=
  ∀ c ∈ rest.head?, c.isDigit = false ∧ c ≠ '.' ∧ c ≠ 'e' ∧ c ≠ 'E'

theorem stops_nil : Stops [] := by
  intro c hc
  cases hc

theorem stops_cons {c : Char} {rest : List Char}
    (h : c.isDigit = false ∧ c ≠ '.' ∧ c ≠ 'e' ∧ c ≠ 'E') : Stops (c :: rest) := by
  rintro _ ⟨⟩
  exact h

theorem Stops.scanFraction {rest : List Char} (h : Stops rest) : scanFraction rest = ([], rest) := by
  cases rest with
  | nil => rfl
  | cons c rest => rw [Json.scanFraction, if_neg (h c rfl).2.1]

theorem Stops.scanExponent {rest : List Char} (h : Stops rest) : scanExponent rest = ([], rest) := by
  cases rest with
  | nil => rfl
  | cons c rest =>
      have hc := h c rfl
      unfold Json.scanExponent
      exact if_neg (by tauto)

/-- A positive number is written without a leading zero. -/
theorem head_toDigits {m : ℕ} (h : 0 < m) : ∃ d ds, Nat.toDigits 10 m = d :: ds ∧ d ≠ '0' := by
  induction m using Nat.strong_induction_on with
  | _ m ih =>
      by_cases hm : m < 10
      · refine ⟨_, _, Nat.toDigits_of_lt_base hm, ?_⟩
        rw [Ne, Nat.digitChar_eq_zero]
        omega
      · obtain ⟨d, ds, hd, hne⟩ := ih (m / 10) (by omega) (by omega)
        refine ⟨d, ds ++ [Nat.digitChar (m % 10)], ?_, hne⟩
        rw [Nat.toDigits_of_base_le (by decide) (by omega), hd, List.cons_append]

/-- The digits of a number are all there is of it. -/
theorem span_digits {ds rest : List Char} (hds : ∀ c ∈ ds, c.isDigit = true)
    (h : ∀ c ∈ rest.head?, c.isDigit = false) :
    (ds ++ rest).takeWhile Char.isDigit = ds ∧ (ds ++ rest).dropWhile Char.isDigit = rest := by
  rw [List.takeWhile_append_of_pos hds, List.dropWhile_append_of_pos hds]
  cases rest with
  | nil => simp
  | cons c rest =>
      have hc : ¬ c.isDigit = true := by simp [h c rfl]
      rw [List.takeWhile_cons_of_neg hc, List.dropWhile_cons_of_neg hc, List.append_nil]
      exact ⟨rfl, rfl⟩

theorem isDigit_of_mem {m : ℕ} {c : Char} (h : c ∈ Nat.toDigits 10 m) : c.isDigit = true :=
  Nat.isDigit_of_mem_toDigits (by decide) (by decide) h

theorem scanInt_toDigits (m : ℕ) {rest : List Char}
    (h : ∀ c ∈ rest.head?, c.isDigit = false) :
    scanInt (Nat.toDigits 10 m ++ rest) = some (Nat.toDigits 10 m, rest) := by
  rcases Nat.eq_zero_or_pos m with rfl | hm
  · rfl
  · obtain ⟨d, ds, hd, hne⟩ := head_toDigits hm
    have hdigit : d.isDigit = true := isDigit_of_mem (m := m) (hd ▸ List.mem_cons_self)
    have hds : ∀ c ∈ ds, c.isDigit = true := fun c hc =>
      isDigit_of_mem (m := m) (hd ▸ List.mem_cons_of_mem d hc)
    rw [hd, List.cons_append, scanInt, if_neg hne, if_pos hdigit, (span_digits hds h).1,
      (span_digits hds h).2]

theorem scanSign_digit {c : Char} (h : c.isDigit = true) (rest : List Char) :
    scanSign (c :: rest) = ([], c :: rest) := by
  have hne : c ≠ '-' := by
    rintro rfl
    revert h
    decide
  rw [scanSign, if_neg hne]

theorem toDigits_cons (m : ℕ) : ∃ d ds, Nat.toDigits 10 m = d :: ds ∧ d.isDigit = true := by
  cases h : Nat.toDigits 10 m with
  | nil => exact absurd h Nat.toDigits_ne_nil
  | cons d ds =>
      have hd : d ∈ Nat.toDigits 10 m := h ▸ List.mem_cons_self
      exact ⟨d, ds, rfl, isDigit_of_mem hd⟩

variable {parseFloat : String → Option ℚ}

theorem toList_int (n : ℤ) :
    (toString n).toList = (if n < 0 then ['-'] else []) ++ Nat.toDigits 10 n.natAbs := by
  cases n with
  | ofNat m =>
      have hneg : ¬ Int.ofNat m < 0 := Int.not_lt.2 (Int.natCast_nonneg m)
      rw [if_neg hneg, List.nil_append]
      exact Nat.toList_repr
  | negSucc m =>
      rw [if_pos (Int.negSucc_lt_zero m)]
      change ("-" ++ Nat.repr (m + 1)).toList = _
      rw [String.toList_append, Nat.toList_repr]
      rfl

theorem scanSign_int (n : ℤ) (rest : List Char) : scanSign ((toString n).toList ++ rest) =
    (if n < 0 then ['-'] else [], Nat.toDigits 10 n.natAbs ++ rest) := by
  rw [toList_int]
  split
  · rw [List.cons_append, List.nil_append, List.cons_append, scanSign, if_pos rfl]
  · obtain ⟨d, ds, hd, hdigit⟩ := toDigits_cons n.natAbs
    rw [List.nil_append, hd, List.cons_append, scanSign_digit hdigit]

/-- The number its sign and its digits stand for. -/
theorem signed_natAbs (n : ℤ) :
    (if (if n < 0 then ['-'] else []) = [] then (n.natAbs : ℤ) else -n.natAbs) = n := by
  by_cases hn : n < 0
  · rw [if_pos hn, if_neg (List.cons_ne_nil _ _)]
    omega
  · rw [if_neg hn, if_pos rfl]
    omega

/-- **An integer that was written reads back.** -/
theorem scanNumber_int (n : ℤ) {rest : List Char} (h : Stops rest) :
    scanNumber parseFloat ((toString n).toList ++ rest) = some (.int n, rest) := by
  have hdigits := scanInt_toDigits n.natAbs fun c hc => (h c hc).1
  rw [scanNumber, scanSign_int]
  simp only [Option.bind_eq_bind, hdigits, Option.bind_some, h.scanFraction, h.scanExponent,
    and_self, if_true, Option.pure_def, Nat.ofDigitChars_ten_toDigits, signed_natAbs]

/-- How the platform writes floats, and how it reads them back. -/
def FloatText (reprFloat : ℚ → String) (parseFloat : String → Option ℚ) : Prop :=
  ∀ q rest, Stops rest →
    scanNumber parseFloat ((reprFloat q).toList ++ rest) = some (.float q, rest)

theorem head_of_scanNumber {cs rest : List Char} {v : Json}
    (h : scanNumber parseFloat cs = some (v, rest)) :
    ∃ c cs', cs = c :: cs' ∧ (c = '-' ∨ c.isDigit = true) := by
  cases cs with
  | nil => cases h
  | cons c cs =>
      refine ⟨c, cs, rfl, ?_⟩
      by_contra hn
      rw [not_or] at hn
      have hz : c ≠ '0' := by
        rintro rfl
        exact hn.2 rfl
      rw [scanNumber, scanSign, if_neg hn.1] at h
      simp [scanInt, hz, hn.2] at h

end Json
