import AutonomyLab.Json.Decode

/-!
# What was written reads back

The scanner undoes the writer.  Sorting the members of objects while they are written is
the same as writing a value whose members have been sorted (`ordered`), so what reads back
is that value.

* `scanValue_chars` — a value reads back as far as its text goes.
* `scan_dumps` — a whole text that was written scans to the ordered value.
* `ordered_of_dumps_eq` — so values with the same text are the same up to the order of
  their members.
* `loads_dumps` — and `loads` reads back a value in which no name stands twice.
-/

namespace Json

variable {reprFloat : ℚ → String} {parseFloat : String → Option ℚ} {L : Layout}

/-! ## Values read back -/

theorem dumpsItems_eq (xs : List Json) :
    dumpsItems reprFloat L xs = xs.map (dumps reprFloat L) := by
  induction xs with
  | nil => rfl
  | cons x xs ih => rw [dumpsItems, ih, List.map_cons]

theorem dumpsMembers_eq (fs : List (String × Json)) :
    dumpsMembers reprFloat L fs = fs.map fun p => (p.1, dumps reprFloat L p.2) := by
  induction fs with
  | nil => rfl
  | cons p fs ih =>
      obtain ⟨k, v⟩ := p
      rw [dumpsMembers, ih, List.map_cons]

/-- The layout separates with white space after a comma and a colon. -/
structure Layout.Valid (L : Layout) : Prop where
  item : ∃ ws, L.item.toList = ',' :: ws ∧ ∀ c ∈ ws, isWhitespace c = true
  key : ∃ ws, L.key.toList = ':' :: ws ∧ ∀ c ∈ ws, isWhitespace c = true

/-- The separators of `json.dumps` as it comes. -/
theorem Layout.valid_spaced (sortKeys : Bool) : Layout.Valid ⟨", ", ": ", sortKeys⟩ where
  item := by
    change ∃ ws, ", ".toList = ',' :: ws ∧ _
    exact ⟨[' '], rfl, List.all_eq_true.1 (by decide)⟩
  key := by
    change ∃ ws, ": ".toList = ':' :: ws ∧ _
    exact ⟨[' '], rfl, List.all_eq_true.1 (by decide)⟩

theorem skipWs_append {ws rest : List Char} (h : ∀ c ∈ ws, isWhitespace c = true) :
    skipWs (ws ++ rest) = skipWs rest := List.dropWhile_append_of_pos h

theorem skipWs_cons {c : Char} (h : isWhitespace c = false) (rest : List Char) :
    skipWs (c :: rest) = c :: rest := List.dropWhile_cons_of_neg (by simp [h])

/-- The text of a value, without sorting. -/
def chars (reprFloat : ℚ → String) (L : Layout) (v : Json) : List Char :=
  (dumps reprFloat L v).toList

/-- The text of a member. -/
def memberChars (reprFloat : ℚ → String) (L : Layout) (p : String × Json) : List Char :=
  quote :: (p.1.toList.flatMap escaped ++ quote :: (L.key.toList ++ chars reprFloat L p.2))

theorem toList_dumpsString (s : String) :
    (dumpsString s).toList = quote :: (s.toList.flatMap escaped ++ [quote]) := by
  rw [dumpsString, String.toList_ofList, List.cons_append]

theorem chars_arr (xs : List Json) : chars reprFloat L (.arr xs) =
    '[' :: (L.item.toList.intercalate (xs.map (chars reprFloat L)) ++ [']']) := by
  have hmap : (xs.map (dumps reprFloat L)).map String.toList = xs.map (chars reprFloat L) := by
    rw [List.map_map]
    rfl
  rw [chars, dumps, dumpsItems_eq, String.toList_append, String.toList_append,
    String.toList_intercalate, hmap]
  rfl

theorem chars_obj (hs : L.sortKeys = false) (fs : List (String × Json)) :
    chars reprFloat L (.obj fs) =
      lbrace :: (L.item.toList.intercalate (fs.map (memberChars reprFloat L)) ++ [rbrace]) := by
  have hmap : ((fs.map fun p => (p.1, dumps reprFloat L p.2)).map
      fun p => dumpsString p.1 ++ L.key ++ p.2).map String.toList =
        fs.map (memberChars reprFloat L) := by
    rw [List.map_map, List.map_map]
    refine List.map_congr_left fun p _ => ?_
    simp [memberChars, chars, toList_dumpsString]
  rw [chars, dumps, dumpsMembers_eq, dumpsFields, hs, String.toList_append, String.toList_append,
    String.toList_intercalate, if_neg Bool.false_ne_true, hmap]
  rfl

mutual

/-- The fuel it takes to scan a value. -/
def need : Json → ℕ
  | .arr xs => needItems xs + 1
  | .obj fs => needMembers fs + 1
  | _ => 1

def needItems : List Json → ℕ
  | [] => 0
  | x :: xs => max (need x) (needItems xs) + 1

def needMembers : List (String × Json) → ℕ
  | [] => 0
  | (_, v) :: fs => max (need v) (needMembers fs) + 1

end

/-- A value starts with a character of its own. -/
theorem chars_head (hf : FloatText reprFloat parseFloat) (hs : L.sortKeys = false) (v : Json) :
    ∃ c cs, chars reprFloat L v = c :: cs ∧ isWhitespace c = false ∧ c ≠ ']' := by
  have hnumber : ∀ c : Char, c = '-' ∨ c.isDigit = true → isWhitespace c = false ∧ c ≠ ']' := by
    rintro c (rfl | hc)
    · decide
    · have h : 48 ≤ c.toNat ∧ c.toNat ≤ 57 := Char.isDigit_iff_toNat.1 hc
      refine ⟨?_, ?_⟩
      · rw [isWhitespace, List.contains_eq_mem, decide_eq_false_iff_not]
        simp only [List.mem_cons, List.not_mem_nil, or_false]
        omega
      · rintro rfl
        revert hc
        decide
  cases v with
  | null => exact ⟨'n', ['u', 'l', 'l'], by rw [chars, dumps]; rfl, by decide⟩
  | bool b => cases b with
      | false => exact ⟨'f', ['a', 'l', 's', 'e'], by rw [chars, dumps]; rfl, by decide⟩
      | true => exact ⟨'t', ['r', 'u', 'e'], by rw [chars, dumps]; rfl, by decide⟩
  | int n =>
      have hscan : scanNumber parseFloat ((toString n).toList ++ []) = some (.int n, []) :=
        scanNumber_int n stops_nil
      obtain ⟨c, cs, hcs, hc⟩ := head_of_scanNumber hscan
      rw [List.append_nil] at hcs
      exact ⟨c, cs, hcs, hnumber c hc⟩
  | float q =>
      obtain ⟨c, cs, hcs, hc⟩ := head_of_scanNumber (hf q [] stops_nil)
      rw [List.append_nil] at hcs
      exact ⟨c, cs, hcs, hnumber c hc⟩
  | str s => exact ⟨quote, _, toList_dumpsString s, by decide⟩
  | arr xs => exact ⟨'[', _, chars_arr xs, by decide⟩
  | obj fs => exact ⟨lbrace, _, chars_obj hs fs, by decide⟩

/-- A delimiter ends a number. -/
theorem stops_delimiter {c : Char} (h : c = ',' ∨ c = ']' ∨ c = rbrace) (rest : List Char) :
    Stops (c :: rest) := by
  refine stops_cons ?_
  rcases h with rfl | rfl | rfl <;> decide

theorem stops_append {cs rest : List Char} (h : Stops cs) (hne : cs ≠ []) : Stops (cs ++ rest) := by
  cases cs with
  | nil => exact absurd rfl hne
  | cons c cs => exact stops_cons (h c rfl)

/-- Several texts start with what the first of them starts with. -/
theorem intercalate_head {sep t : List Char} {c : Char} {cs : List Char} (h : t = c :: cs)
    (ts : List (List Char)) (rest : List Char) :
    ∃ tail, sep.intercalate (t :: ts) ++ rest = c :: tail := by
  subst h
  cases ts with
  | nil => exact ⟨_, by rw [List.intercalate_singleton, List.cons_append]⟩
  | cons u us =>
      exact ⟨_, by rw [List.intercalate_cons_cons, List.cons_append, List.cons_append,
        List.cons_append]⟩

theorem skipWs_intercalate {sep t : List Char} {ts : List (List Char)} {rest : List Char}
    (h : ∃ c cs, t = c :: cs ∧ isWhitespace c = false) :
    skipWs (sep.intercalate (t :: ts) ++ rest) = sep.intercalate (t :: ts) ++ rest := by
  obtain ⟨c, cs, ht, hc⟩ := h
  obtain ⟨tail, htail⟩ := intercalate_head ht ts rest
  rw [htail, skipWs_cons hc]

theorem scanValue_number {cs rest : List Char} {v : Json}
    (h : scanNumber parseFloat cs = some (v, rest)) (n : ℕ) :
    scanValue parseFloat (n + 1) cs = some (v, rest) := by
  obtain ⟨c, cs', rfl, hc⟩ := head_of_scanNumber h
  have hne : ∀ d : Char, (d ≠ '-' ∧ d.isDigit = false) → c ≠ d := by
    rintro d ⟨hd, hd'⟩ rfl
    rcases hc with hc | hc
    · exact hd hc
    · rw [hc] at hd'
      cases hd'
  rw [scanValue, if_neg (hne quote (by decide)), if_neg (hne lbrace (by decide)),
    if_neg (hne '[' (by decide)), if_neg (hne 'n' (by decide)), if_neg (hne 't' (by decide)),
    if_neg (hne 'f' (by decide)), h]

section
variable (hf : FloatText reprFloat parseFloat) (hL : L.Valid) (hs : L.sortKeys = false)
include hf hL hs

/-- Entries read back where each of them does. -/
theorem scanItems_chars {xs : List Json} (hne : xs ≠ []) {n : ℕ} {rest : List Char}
    (hx : ∀ x ∈ xs, ∀ m rest, need x ≤ m → Stops rest →
      scanValue parseFloat m (chars reprFloat L x ++ rest) = some (x, rest))
    (hn : needItems xs ≤ n) :
    scanItems parseFloat n
      (L.item.toList.intercalate (xs.map (chars reprFloat L)) ++ ']' :: rest) = some (xs, rest) := by
  induction xs generalizing n with
  | nil => exact absurd rfl hne
  | cons x xs ih =>
      rw [needItems] at hn
      obtain ⟨n, rfl⟩ : ∃ m, n = m + 1 := ⟨n - 1, by omega⟩
      have hxm := hx x List.mem_cons_self
      cases xs with
      | nil =>
          rw [List.map_cons, List.map_nil, List.intercalate_singleton, scanItems,
            hxm n _ (by omega) (stops_delimiter (by simp) rest)]
          simp [skipWs_cons (show isWhitespace ']' = false by decide)]
      | cons y ys =>
          obtain ⟨ws, hitem, hws⟩ := hL.item
          obtain ⟨c, cs, hcs, hc, -⟩ := chars_head hf hs y
          have hrest := @ih (by simp) n (fun z hz => hx z (List.mem_cons_of_mem x hz)) (by omega)
          rw [List.map_cons] at hrest
          rw [List.map_cons, List.map_cons, List.intercalate_cons_cons, List.append_assoc,
            List.append_assoc, scanItems]
          nth_rewrite 1 [hitem]
          rw [List.cons_append, hxm n _ (by omega) (stops_delimiter (by simp) _)]
          simp [skipWs_cons (show isWhitespace ',' = false by decide), skipWs_append hws,
            skipWs_intercalate ⟨c, cs, hcs, hc⟩, hrest]
/-- Members read back where the value of each does. -/
theorem scanMembers_chars {fs : List (String × Json)} (hne : fs ≠ []) {n : ℕ} {rest : List Char}
    (hx : ∀ p ∈ fs, ∀ m rest, need p.2 ≤ m → Stops rest →
      scanValue parseFloat m (chars reprFloat L p.2 ++ rest) = some (p.2, rest))
    (hn : needMembers fs ≤ n) :
    scanMembers parseFloat n
      (L.item.toList.intercalate (fs.map (memberChars reprFloat L)) ++ rbrace :: rest) =
        some (fs, rest) := by
  obtain ⟨wk, hkey, hwk⟩ := hL.key
  induction fs generalizing n with
  | nil => exact absurd rfl hne
  | cons p fs ih =>
      obtain ⟨k, v⟩ := p
      rw [needMembers] at hn
      obtain ⟨n, rfl⟩ : ∃ m, n = m + 1 := ⟨n - 1, by omega⟩
      have hle : need v ≤ n := by omega
      obtain ⟨d, ds, hds, hd, -⟩ := chars_head hf hs v
      -- one member, up to what follows its value
      have hmember : ∀ (tail : List Char) (d : Char) (after : List Char), Stops tail →
          skipWs tail = d :: after →
          scanMembers parseFloat (n + 1) (memberChars reprFloat L (k, v) ++ tail) =
            if d = rbrace then some ([(k, v)], after)
            else if d = ',' then
              (scanMembers parseFloat n (skipWs after)).map fun r => ((k, v) :: r.1, r.2)
            else none := by
        intro tail d after htail hafter
        have hcs : skipWs (chars reprFloat L v ++ tail) = chars reprFloat L v ++ tail := by
          rw [hds, List.cons_append, skipWs_cons hd]
        have hv : scanValue parseFloat n (chars reprFloat L v ++ tail) = some (v, tail) :=
          hx (k, v) List.mem_cons_self n tail hle htail
        have hlen := length_le_flatMap k.toList
        rw [memberChars, List.cons_append, List.append_assoc, List.cons_append, List.append_assoc,
          scanMembers]
        simp only [guard, if_true, Option.pure_def, Option.bind_eq_bind, Option.bind_some]
        rw [scanString_dumps _ _ (by rw [List.length_append]; omega)]
        simp only [hkey, List.cons_append, Option.bind_some,
          skipWs_cons (show isWhitespace ':' = false by decide), if_true, skipWs_append hwk, hcs, hv,
          String.ofList_toList, hafter]
        split
        · rfl
        · split
          · rename_i h
            subst h
            cases scanMembers parseFloat n (skipWs after) <;> rfl
          · rfl
      cases fs with
      | nil =>
          rw [List.map_cons, List.map_nil, List.intercalate_singleton,
            hmember _ rbrace rest (stops_delimiter (by simp) rest) (skipWs_cons (by decide) _), if_pos rfl]
      | cons q fs =>
          obtain ⟨ws, hitem, hws⟩ := hL.item
          have hhead : ∃ c cs, memberChars reprFloat L q = c :: cs ∧ isWhitespace c = false :=
            ⟨quote, _, rfl, by decide⟩
          have hrest := @ih (by simp) n (fun z hz => hx z (List.mem_cons_of_mem _ hz)) (by omega)
          rw [List.map_cons] at hrest
          rw [List.map_cons, List.map_cons, List.intercalate_cons_cons, List.append_assoc,
            List.append_assoc]
          nth_rewrite 1 [hitem]
          rw [List.cons_append, hmember _ ',' _ (stops_delimiter (by simp) _) (skipWs_cons (by decide) _)]
          simp [skipWs_append hws, skipWs_intercalate hhead, hrest, show ',' ≠ rbrace by decide]

/-- **A value reads back**, as far as its text goes. -/
theorem scanValue_chars (v : Json) {n : ℕ} {rest : List Char} (hn : need v ≤ n)
    (hr : Stops rest) :
    scanValue parseFloat n (chars reprFloat L v ++ rest) = some (v, rest) := by
  induction v using Json.induct generalizing n rest with
  | null =>
      obtain ⟨n, rfl⟩ : ∃ m, n = m + 1 := ⟨n - 1, by simp only [need] at hn; omega⟩
      rw [chars, dumps]
      rfl
  | bool b =>
      obtain ⟨n, rfl⟩ : ∃ m, n = m + 1 := ⟨n - 1, by simp only [need] at hn; omega⟩
      rw [chars, dumps]
      cases b <;> rfl
  | int m =>
      obtain ⟨n, rfl⟩ : ∃ m, n = m + 1 := ⟨n - 1, by simp only [need] at hn; omega⟩
      rw [chars, dumps]
      exact scanValue_number (scanNumber_int m hr) n
  | float q =>
      obtain ⟨n, rfl⟩ : ∃ m, n = m + 1 := ⟨n - 1, by simp only [need] at hn; omega⟩
      rw [chars, dumps]
      exact scanValue_number (hf q rest hr) n
  | str s =>
      obtain ⟨n, rfl⟩ : ∃ m, n = m + 1 := ⟨n - 1, by simp only [need] at hn; omega⟩
      have hlen := length_le_flatMap s.toList
      rw [chars, dumps, toList_dumpsString, List.cons_append, List.append_assoc, List.cons_append,
        List.nil_append, scanValue, if_pos rfl,
        scanString_dumps _ _ (by rw [List.length_append]; omega)]
      simp
  | arr xs ih =>
      obtain ⟨n, rfl⟩ : ∃ m, n = m + 1 := ⟨n - 1, by rw [need] at hn; omega⟩
      rw [need] at hn
      have hlb : '[' ≠ quote ∧ '[' ≠ lbrace := by decide
      rw [chars_arr, List.cons_append, List.append_assoc, List.cons_append, List.nil_append,
        scanValue, if_neg hlb.1, if_neg hlb.2, if_pos rfl]
      cases xs with
      | nil => simp [skipWs_cons (show isWhitespace ']' = false by decide)]
      | cons x xs =>
          obtain ⟨c, cs, hcs, hc, hne⟩ := chars_head hf hs x
          have hitems := @scanItems_chars _ _ _ hf hL hs _ (List.cons_ne_nil x xs) n rest
            (fun y hy m rest hm hr => ih y hy hm hr) (Nat.le_of_succ_le_succ hn)
          obtain ⟨tail, htail⟩ := intercalate_head hcs (xs.map (chars reprFloat L)) (']' :: rest)
          rw [List.map_cons, htail] at hitems
          rw [List.map_cons, htail, skipWs_cons hc]
          simp [hne, hitems]
  | obj fs ih =>
      obtain ⟨n, rfl⟩ : ∃ m, n = m + 1 := ⟨n - 1, by rw [need] at hn; omega⟩
      rw [need] at hn
      have hlb : lbrace ≠ quote := by decide
      rw [chars_obj hs, List.cons_append, List.append_assoc, List.cons_append, List.nil_append,
        scanValue, if_neg hlb, if_pos rfl]
      cases fs with
      | nil => simp [skipWs_cons (show isWhitespace rbrace = false by decide)]
      | cons p fs =>
          have hmembers := @scanMembers_chars _ _ _ hf hL hs _ (List.cons_ne_nil p fs) n rest
            (fun q hq m rest hm hr => ih q hq hm hr) (Nat.le_of_succ_le_succ hn)
          have hhead : memberChars reprFloat L p = quote :: _ := rfl
          obtain ⟨tail, htail⟩ := intercalate_head hhead (fs.map (memberChars reprFloat L))
            (rbrace :: rest)
          rw [List.map_cons, htail] at hmembers
          rw [List.map_cons, htail, skipWs_cons (by decide)]
          simp [show quote ≠ rbrace by decide, hmembers]
end

/-! ## Whole texts -/

mutual

/-- The value in the order in which it is written. -/
def ordered (L : Layout) : Json → Json
  | .arr xs => .arr (orderedItems L xs)
  | .obj fs => .obj (if L.sortKeys then
      (orderedMembers L fs).insertionSort fun p q => p.1 ≤ q.1 else orderedMembers L fs)
  | v => v

def orderedItems (L : Layout) : List Json → List Json
  | [] => []
  | x :: xs => ordered L x :: orderedItems L xs

def orderedMembers (L : Layout) : List (String × Json) → List (String × Json)
  | [] => []
  | (k, v) :: fs => (k, ordered L v) :: orderedMembers L fs

end

theorem orderedItems_eq (xs : List Json) : orderedItems L xs = xs.map (ordered L) := by
  induction xs with
  | nil => rfl
  | cons x xs ih => rw [orderedItems, ih, List.map_cons]

theorem orderedMembers_eq (fs : List (String × Json)) :
    orderedMembers L fs = fs.map fun p => (p.1, ordered L p.2) := by
  induction fs with
  | nil => rfl
  | cons p fs ih => rw [orderedMembers, ih, List.map_cons]

/-- Only a string is written as one. -/
theorem ordered_eq_str {v : Json} {s : String} : ordered L v = .str s ↔ v = .str s := by
  cases v <;> simp [ordered]

/-- The separators of a layout. -/
def Layout.unsorted (L : Layout) : Layout := { L with sortKeys := false }

theorem Layout.Valid.unsorted (h : L.Valid) : L.unsorted.Valid := ⟨h.item, h.key⟩

/-- Sorting while writing is writing what was sorted. -/
theorem dumps_ordered (v : Json) :
    dumps reprFloat L v = dumps reprFloat L.unsorted (ordered L v) := by
  induction v using Json.induct with
  | arr xs ih =>
      rw [dumps, ordered, dumps, dumpsItems_eq, dumpsItems_eq, orderedItems_eq, List.map_map,
        List.map_congr_left fun x hx => ih x hx]
      rfl
  | obj fs ih =>
      have hmembers : (fs.map fun p => (p.1, ordered L p.2)).map
          (fun p => (p.1, dumps reprFloat L.unsorted p.2)) =
            fs.map fun p => (p.1, dumps reprFloat L p.2) := by
        rw [List.map_map]
        exact List.map_congr_left fun p hp => by rw [ih p hp]; rfl
      have hunsorted : L.unsorted.sortKeys = false := rfl
      rw [dumps, ordered, dumps, dumpsMembers_eq, dumpsMembers_eq, orderedMembers_eq, dumpsFields,
        dumpsFields, hunsorted, if_neg Bool.false_ne_true]
      split
      · rw [List.map_insertionSort (fun p q : String × Json => p.1 ≤ q.1)
          (fun p q : String × String => p.1 ≤ q.1) _ _ fun _ _ _ _ => Iff.rfl, hmembers]
        rfl
      · rw [hmembers]
        rfl
  | null => rfl
  | bool b => rfl
  | int n => rfl
  | float q => rfl
  | str s => rfl

/-- Several texts are as long as they are, and more. -/
theorem length_intercalate_cons {sep t : List Char} (ts : List (List Char)) (h : ts ≠ []) :
    (sep.intercalate (t :: ts)).length =
      t.length + sep.length + (sep.intercalate ts).length := by
  rw [List.intercalate_cons_of_ne_nil h, List.length_append, List.length_append]

theorem needItems_le (hL : L.Valid) {xs : List Json}
    (h : ∀ x ∈ xs, need x ≤ (chars reprFloat L x).length) :
    needItems xs ≤ (L.item.toList.intercalate (xs.map (chars reprFloat L))).length + 1 := by
  obtain ⟨ws, hitem, -⟩ := hL.item
  have hpos : 1 ≤ L.item.toList.length := by rw [hitem]; simp
  induction xs with
  | nil => simp [needItems]
  | cons x xs ih =>
      have hx := h x List.mem_cons_self
      rw [needItems, List.map_cons]
      cases xs with
      | nil =>
          rw [List.map_nil, List.intercalate_singleton, needItems]
          omega
      | cons y ys =>
          have hxs := ih fun z hz => h z (List.mem_cons_of_mem x hz)
          rw [length_intercalate_cons _ (by simp)]
          omega

theorem needMembers_le (hL : L.Valid) {fs : List (String × Json)}
    (h : ∀ p ∈ fs, need p.2 ≤ (chars reprFloat L p.2).length) :
    needMembers fs ≤
      (L.item.toList.intercalate (fs.map (memberChars reprFloat L))).length + 1 := by
  obtain ⟨ws, hitem, -⟩ := hL.item
  have hpos : 1 ≤ L.item.toList.length := by rw [hitem]; simp
  induction fs with
  | nil => simp [needMembers]
  | cons p fs ih =>
      obtain ⟨k, v⟩ := p
      have hv : need v ≤ (chars reprFloat L v).length := h (k, v) List.mem_cons_self
      have hp : (chars reprFloat L v).length ≤ (memberChars reprFloat L (k, v)).length := by
        simp only [memberChars, List.length_cons, List.length_append]
        omega
      rw [needMembers, List.map_cons]
      cases fs with
      | nil =>
          rw [List.map_nil, List.intercalate_singleton, needMembers]
          omega
      | cons q fs =>
          have hfs := ih fun z hz => h z (List.mem_cons_of_mem _ hz)
          rw [length_intercalate_cons _ (by simp)]
          omega

/-- The fuel it takes to scan a value is at most what there is to scan. -/
theorem need_le_length (hf : FloatText reprFloat parseFloat) (hL : L.Valid)
    (hs : L.sortKeys = false) (v : Json) : need v ≤ (chars reprFloat L v).length := by
  have hpos : ∀ w, 1 ≤ (chars reprFloat L w).length := by
    intro w
    obtain ⟨c, cs, hcs, -⟩ := chars_head hf hs w
    rw [hcs, List.length_cons]
    omega
  induction v using Json.induct with
  | arr xs ih =>
      have h := needItems_le hL ih
      rw [need, chars_arr, List.length_cons, List.length_append, List.length_singleton]
      omega
  | obj fs ih =>
      have h := needMembers_le hL ih
      rw [need, chars_obj hs, List.length_cons, List.length_append, List.length_singleton]
      omega
  | null => exact hpos .null
  | bool b => exact hpos (.bool b)
  | int n => exact hpos (.int n)
  | float q => exact hpos (.float q)
  | str s => exact hpos (.str s)

/-- A number ends where white space begins. -/
theorem stops_of_isWhitespace {ws : List Char} (h : ∀ c ∈ ws, isWhitespace c = true) : Stops ws := by
  have hchar : ∀ c, isWhitespace c = true → c.isDigit = false ∧ c ≠ '.' ∧ c ≠ 'e' ∧ c ≠ 'E' := by
    intro c hc
    have hval : c.toNat = 32 ∨ c.toNat = 9 ∨ c.toNat = 10 ∨ c.toNat = 13 := by
      simpa [isWhitespace] using hc
    rw [← Char.ofNat_toNat c]
    rcases hval with h | h | h | h <;> rw [h] <;> decide
  cases ws with
  | nil => exact stops_nil
  | cons c ws => exact stops_cons (hchar c (h c List.mem_cons_self))

/-- **A text that was written scans** to the value in the order in which it was written; white
space may follow it. -/
theorem scan_dumps_append (hf : FloatText reprFloat parseFloat) (hL : L.Valid) (v : Json)
    {ws : List Char} (hws : ∀ c ∈ ws, isWhitespace c = true) :
    scan parseFloat ((dumps reprFloat L v).toList ++ ws) = some (ordered L v) := by
  have hs : L.unsorted.sortKeys = false := rfl
  have htext : (dumps reprFloat L v).toList = chars reprFloat L.unsorted (ordered L v) := by
    rw [dumps_ordered]
    rfl
  have hneed := need_le_length hf hL.unsorted hs (ordered L v)
  obtain ⟨c, cs, hcs, hc, -⟩ := chars_head hf hs (ordered L v)
  have hscan := scanValue_chars hf hL.unsorted hs (ordered L v)
    (show need (ordered L v) ≤ 2 * (chars reprFloat L.unsorted (ordered L v) ++ ws).length + 2 by
      rw [List.length_append]
      omega)
    (stops_of_isWhitespace hws)
  have hrest : skipWs ws = [] := by
    have h : skipWs (ws ++ []) = skipWs [] := skipWs_append hws
    rwa [List.append_nil] at h
  rw [htext, scan]
  nth_rewrite 2 [hcs]
  rw [List.cons_append, skipWs_cons hc, ← List.cons_append, ← hcs, hscan]
  simp [hrest]

theorem scan_dumps (hf : FloatText reprFloat parseFloat) (hL : L.Valid) (v : Json) :
    scan parseFloat (dumps reprFloat L v).toList = some (ordered L v) := by
  have hws : ∀ c ∈ ([] : List Char), isWhitespace c = true := fun _ hc => absurd hc List.not_mem_nil
  have h := scan_dumps_append hf hL v hws
  rwa [List.append_nil] at h

/-- **Values with the same text are the same**, up to the order of their members. -/
theorem ordered_of_dumps_eq (hf : FloatText reprFloat parseFloat) (hL : L.Valid) {v w : Json}
    (h : dumps reprFloat L v = dumps reprFloat L w) : ordered L v = ordered L w := by
  have hv := scan_dumps hf hL v
  rw [h, scan_dumps hf hL w] at hv
  exact (Option.some.inj hv).symm

/-! ## Dictionaries -/

mutual

/-- No name stands twice in an object, as in a dictionary. -/
def Distinct : Json → Prop
  | .arr xs => DistinctItems xs
  | .obj fs => (fs.map Prod.fst).Nodup ∧ DistinctMembers fs
  | _ => True

def DistinctItems : List Json → Prop
  | [] => True
  | x :: xs => Distinct x ∧ DistinctItems xs

def DistinctMembers : List (String × Json) → Prop
  | [] => True
  | (_, v) :: fs => Distinct v ∧ DistinctMembers fs

end

theorem distinctItems_iff {xs : List Json} : DistinctItems xs ↔ ∀ x ∈ xs, Distinct x := by
  induction xs with
  | nil => simp [DistinctItems]
  | cons x xs ih => rw [DistinctItems, ih, List.forall_mem_cons]

theorem distinctMembers_iff {fs : List (String × Json)} :
    DistinctMembers fs ↔ ∀ p ∈ fs, Distinct p.2 := by
  induction fs with
  | nil => simp [DistinctMembers]
  | cons p fs ih => rw [DistinctMembers, ih, List.forall_mem_cons]

theorem collapseItems_eq (xs : List Json) : collapseItems xs = xs.map collapse := by
  induction xs with
  | nil => rfl
  | cons x xs ih => rw [collapseItems, ih, List.map_cons]

theorem collapseMembers_eq (fs : List (String × Json)) :
    collapseMembers fs = fs.map fun p => (p.1, collapse p.2) := by
  induction fs with
  | nil => rfl
  | cons p fs ih => rw [collapseMembers, ih, List.map_cons]

theorem lookup_eq_none_of_not_mem {α β : Type} [BEq α] [LawfulBEq α] {k : α} {fs : List (α × β)}
    (h : k ∉ fs.map Prod.fst) : fs.lookup k = none := by
  rw [List.lookup_eq_none_iff]
  intro p hp
  rw [bne_iff_ne]
  rintro rfl
  exact h (List.mem_map_of_mem hp)

section
variable {α β γ : Type} [DecidableEq α] [BEq α] [LawfulBEq α]

/-- Where no name stands twice, the member of a name is the one that stands there. -/
theorem lookup_eq_some_iff {k : α} {v : β} {fs : List (α × β)}
    (h : (fs.map Prod.fst).Nodup) : fs.lookup k = some v ↔ (k, v) ∈ fs := by
  induction fs with
  | nil => simp
  | cons p fs ih =>
      obtain ⟨l, w⟩ := p
      rw [List.map_cons, List.nodup_cons] at h
      rw [lookup_cons_eq, List.mem_cons, Prod.mk.injEq]
      by_cases hl : l = k
      · subst hl
        rw [if_pos rfl, Option.some.injEq]
        constructor
        · rintro rfl
          exact .inl ⟨rfl, rfl⟩
        · rintro (⟨-, rfl⟩ | hmem)
          · rfl
          · exact absurd (List.mem_map_of_mem hmem) h.1
      · rw [if_neg hl, ih h.2]
        exact ⟨.inr, fun h => h.resolve_left fun hk => hl hk.1.symm⟩

theorem lookup_perm {fs gs : List (α × β)} (hp : fs.Perm gs)
    (h : (fs.map Prod.fst).Nodup) (k : α) : fs.lookup k = gs.lookup k := by
  have hg : (gs.map Prod.fst).Nodup := (hp.map Prod.fst).nodup_iff.1 h
  refine Option.ext fun v => ?_
  rw [lookup_eq_some_iff h, lookup_eq_some_iff hg, hp.mem_iff]

theorem lookup_map {f : β → γ} (k : α) (fs : List (α × β)) :
    (fs.map fun p => (p.1, f p.2)).lookup k = (fs.lookup k).map f := by
  induction fs with
  | nil => rfl
  | cons p fs ih =>
      obtain ⟨l, w⟩ := p
      rw [List.map_cons, lookup_cons_eq, lookup_cons_eq, ih]
      by_cases hl : l = k <;> simp [hl]

end

/-- The members of a dictionary are put into it as they are. -/
theorem foldl_setField {acc fs : List (String × Json)}
    (h : ((acc ++ fs).map Prod.fst).Nodup) :
    fs.foldl (fun acc p => setField p.1 p.2 acc) acc = acc ++ fs := by
  induction fs generalizing acc with
  | nil => rw [List.foldl_nil, List.append_nil]
  | cons p fs ih =>
      have happ : acc ++ p :: fs = (acc ++ [p]) ++ fs := by simp
      have hp : p.1 ∉ acc.map Prod.fst := by
        rw [List.map_append, List.map_cons] at h
        exact fun hm => List.disjoint_of_nodup_append h hm List.mem_cons_self
      rw [List.foldl_cons, setField_of_absent (lookup_eq_none_of_not_mem hp), happ]
      rw [happ] at h
      exact ih h

theorem dictOf_of_nodup {fs : List (String × Json)} (h : (fs.map Prod.fst).Nodup) :
    dictOf fs = fs := by
  rw [dictOf, foldl_setField (by simpa using h), List.nil_append]

theorem map_fst_map {α β γ : Type} {f : β → γ} (fs : List (α × β)) :
    (fs.map fun p => (p.1, f p.2)).map Prod.fst = fs.map Prod.fst := by
  rw [List.map_map]
  rfl

theorem collapse_of_distinct {v : Json} (h : Distinct v) : collapse v = v := by
  induction v using Json.induct with
  | arr xs ih =>
      rw [Distinct, distinctItems_iff] at h
      rw [collapse, collapseItems_eq, List.map_congr_left fun x hx => ih x hx (h x hx),
        List.map_id']
  | obj fs ih =>
      rw [Distinct, distinctMembers_iff] at h
      have hmap : (fs.map fun p => (p.1, collapse p.2)) = fs := by
        refine (List.map_congr_left fun p hp => ?_).trans (List.map_id fs)
        rw [ih p hp (h.2 p hp)]
        rfl
      rw [collapse, collapseMembers_eq, hmap, dictOf_of_nodup h.1]
  | null => rfl
  | bool b => rfl
  | int n => rfl
  | float q => rfl
  | str s => rfl

theorem nodup_setField {k : String} {v : Json} {fs : List (String × Json)}
    (h : (fs.map Prod.fst).Nodup) : ((setField k v fs).map Prod.fst).Nodup := by
  by_cases hk : k ∈ fs.map Prod.fst
  · have hsame : (setField k v fs).map Prod.fst = fs.map Prod.fst := by
      clear h
      induction fs with
      | nil => simp at hk
      | cons p fs ih =>
          obtain ⟨l, w⟩ := p
          by_cases hl : l = k
          · simp [setField, hl]
          · rw [setField, if_neg hl, List.map_cons, List.map_cons, ih]
            simpa [Ne.symm hl] using hk
    rw [hsame]
    exact h
  · rw [setField_of_absent (lookup_eq_none_of_not_mem hk), List.map_append, List.map_cons,
      List.map_nil]
    exact List.nodup_append.2 ⟨h, by simp, by rintro a ha b hb rfl; simp_all⟩

/-- Everything `dictOf` puts together is among what it was given. -/
theorem mem_foldl_setField {q : String × Json} {acc fs : List (String × Json)}
    (h : q ∈ fs.foldl (fun acc p => setField p.1 p.2 acc) acc) : q ∈ acc ∨ q ∈ fs := by
  have hset : ∀ {k v} {gs : List (String × Json)}, q ∈ setField k v gs → q = (k, v) ∨ q ∈ gs := by
    intro k v gs hq
    induction gs with
    | nil => simpa [setField] using hq
    | cons p gs ih =>
        obtain ⟨l, w⟩ := p
        rw [setField] at hq
        split at hq
        · rcases List.mem_cons.1 hq with hq | hq
          · exact .inl hq
          · exact .inr (List.mem_cons_of_mem _ hq)
        · rcases List.mem_cons.1 hq with hq | hq
          · exact .inr (hq ▸ List.mem_cons_self)
          · exact (ih hq).imp id (List.mem_cons_of_mem _)
  induction fs generalizing acc with
  | nil => exact .inl h
  | cons p fs ih =>
      rcases ih h with h | h
      · rcases hset h with rfl | h
        · exact .inr List.mem_cons_self
        · exact .inl h
      · exact .inr (List.mem_cons_of_mem _ h)

theorem nodup_dictOf (fs : List (String × Json)) : ((dictOf fs).map Prod.fst).Nodup := by
  suffices ∀ acc : List (String × Json), (acc.map Prod.fst).Nodup →
      ((fs.foldl (fun acc p => setField p.1 p.2 acc) acc).map Prod.fst).Nodup from this [] .nil
  induction fs with
  | nil => exact fun _ h => h
  | cons p fs ih => exact fun acc h => ih _ (nodup_setField h)

/-- **What was read has no name twice.** -/
theorem distinct_collapse (v : Json) : Distinct (collapse v) := by
  induction v using Json.induct with
  | arr xs ih =>
      rw [collapse, collapseItems_eq, Distinct, distinctItems_iff]
      intro y hy
      obtain ⟨x, hx, rfl⟩ := List.mem_map.1 hy
      exact ih x hx
  | obj fs ih =>
      rw [collapse, collapseMembers_eq, Distinct, distinctMembers_iff]
      refine ⟨nodup_dictOf _, fun q hq => ?_⟩
      rcases mem_foldl_setField hq with hq | hq
      · cases hq
      · obtain ⟨p, hp, rfl⟩ := List.mem_map.1 hq
        exact ih p hp
  | null => trivial
  | bool b => trivial
  | int n => trivial
  | float q => trivial
  | str s => trivial

theorem distinct_ordered {v : Json} (h : Distinct v) : Distinct (ordered L v) := by
  induction v using Json.induct with
  | arr xs ih =>
      rw [Distinct, distinctItems_iff] at h
      rw [ordered, orderedItems_eq, Distinct, distinctItems_iff]
      intro y hy
      obtain ⟨x, hx, rfl⟩ := List.mem_map.1 hy
      exact ih x hx (h x hx)
  | obj fs ih =>
      rw [Distinct, distinctMembers_iff] at h
      have hmap : ∀ p ∈ fs.map fun p => (p.1, ordered L p.2), Distinct p.2 := by
        intro q hq
        obtain ⟨p, hp, rfl⟩ := List.mem_map.1 hq
        exact ih p hp (h.2 p hp)
      have hnodup : ((fs.map fun p => (p.1, ordered L p.2)).map Prod.fst).Nodup := by
        rw [map_fst_map]
        exact h.1
      rw [ordered, orderedMembers_eq, Distinct, distinctMembers_iff]
      split
      · have hperm := List.perm_insertionSort (fun p q : String × Json => p.1 ≤ q.1)
          (fs.map fun p => (p.1, ordered L p.2))
        exact ⟨((hperm.map Prod.fst).nodup_iff).2 hnodup, fun p hp => hmap p (hperm.mem_iff.1 hp)⟩
      · exact ⟨hnodup, hmap⟩
  | null => trivial
  | bool b => trivial
  | int n => trivial
  | float q => trivial
  | str s => trivial

/-- A layout that does not sort writes what there is. -/
theorem ordered_of_unsorted (hs : L.sortKeys = false) (v : Json) : ordered L v = v := by
  induction v using Json.induct with
  | arr xs ih => rw [ordered, orderedItems_eq, List.map_congr_left fun x hx => ih x hx, List.map_id']
  | obj fs ih =>
      rw [ordered, orderedMembers_eq, hs, if_neg Bool.false_ne_true]
      congr
      refine (List.map_congr_left fun p hp => ?_).trans (List.map_id fs)
      rw [ih p hp]
      rfl
  | null => rfl
  | bool b => rfl
  | int n => rfl
  | float q => rfl
  | str s => rfl

/-- What was written reads back as what a dictionary keeps of it. -/
theorem loads_dumps_collapse (hf : FloatText reprFloat parseFloat) (hL : L.Valid) (v : Json) :
    loads parseFloat (dumps reprFloat L v).toList = some (collapse (ordered L v)) := by
  rw [loads, scan_dumps hf hL, Option.map_some]

/-- **What was written reads back**, with its members in the order in which they were
written. -/
theorem loads_dumps (hf : FloatText reprFloat parseFloat) (hL : L.Valid) {v : Json}
    (h : Distinct v) : loads parseFloat (dumps reprFloat L v).toList = some (ordered L v) := by
  rw [loads_dumps_collapse hf hL, collapse_of_distinct (distinct_ordered h)]

/-- White space may follow what was written. -/
theorem loads_dumps_append (hf : FloatText reprFloat parseFloat) (hL : L.Valid) {v : Json}
    (h : Distinct v) {ws : List Char} (hws : ∀ c ∈ ws, isWhitespace c = true) :
    loads parseFloat ((dumps reprFloat L v).toList ++ ws) = some (ordered L v) := by
  rw [loads, scan_dumps_append hf hL v hws, Option.map_some,
    collapse_of_distinct (distinct_ordered h)]

theorem distinct_of_loads {text : List Char} {v : Json} (h : loads parseFloat text = some v) :
    Distinct v := by
  obtain ⟨w, -, rfl⟩ := Option.map_eq_some_iff.1 h
  exact distinct_collapse w

/-- The members of a dictionary in the order in which they are written. -/
theorem lookup_ordered {fs : List (String × Json)} (h : (fs.map Prod.fst).Nodup) :
    ∃ gs, ordered L (.obj fs) = .obj gs ∧ (gs.map Prod.fst).Nodup ∧
      ∀ k, gs.lookup k = (fs.lookup k).map (ordered L) := by
  have hnodup : ((fs.map fun p => (p.1, ordered L p.2)).map Prod.fst).Nodup := by
    rw [map_fst_map]
    exact h
  obtain ⟨gs, hgs, hperm⟩ : ∃ gs, ordered L (.obj fs) = .obj gs ∧
      gs.Perm (fs.map fun p => (p.1, ordered L p.2)) := by
    rw [ordered, orderedMembers_eq]
    split
    · exact ⟨_, rfl, List.perm_insertionSort _ _⟩
    · exact ⟨_, rfl, .refl _⟩
  have hgs' : (gs.map Prod.fst).Nodup := ((hperm.map Prod.fst).nodup_iff).2 hnodup
  refine ⟨gs, hgs, hgs', fun k => ?_⟩
  rw [lookup_perm hperm hgs', lookup_map]

/-- The members of a dictionary that was written and read back. -/
theorem lookup_collapse_ordered {fs : List (String × Json)} (h : (fs.map Prod.fst).Nodup) :
    ∃ gs, collapse (ordered L (.obj fs)) = .obj gs ∧
      ∀ k, gs.lookup k = (fs.lookup k).map fun v => collapse (ordered L v) := by
  obtain ⟨ms, hms, hnodup, hlookup⟩ := lookup_ordered (L := L) h
  refine ⟨ms.map fun p => (p.1, collapse p.2), ?_, fun k => ?_⟩
  · rw [hms, collapse, collapseMembers_eq, dictOf_of_nodup (by rw [map_fst_map]; exact hnodup)]
  · rw [lookup_map, hlookup, Option.map_map]
    rfl

/-! ## A way of writing floats that reads back -/

/-- A number as its numerator and, in the place of the exponent, its denominator. -/
def fractionText (q : ℚ) : String := toString q.num ++ "e" ++ toString q.den

def parseFraction (text : String) : Option ℚ := do
  let (sign, rest) := scanSign text.toList
  let (num, rest) ← scanInt rest
  let (den, _) ← scanInt (rest.drop 1)
  let n : ℤ := Nat.ofDigitChars 10 num 0
  return mkRat (if sign = [] then n else -n) (Nat.ofDigitChars 10 den 0)

theorem toList_fractionText (q : ℚ) : (fractionText q).toList =
    (toString q.num).toList ++ 'e' :: Nat.toDigits 10 q.den := by
  have hden : (toString q.den).toList = Nat.toDigits 10 q.den := Nat.toList_repr
  rw [fractionText, String.toList_append, String.toList_append, hden, List.append_assoc]
  rfl

theorem parseFraction_fractionText (q : ℚ) : parseFraction (fractionText q) = some q := by
  have hnum : scanInt (Nat.toDigits 10 q.num.natAbs ++ 'e' :: Nat.toDigits 10 q.den) = some _ :=
    scanInt_toDigits _ fun c hc => by cases hc; decide
  have hden := @scanInt_toDigits q.den [] fun c hc => nomatch hc
  rw [List.append_nil] at hden
  rw [parseFraction, toList_fractionText, scanSign_int]
  simp only [hnum, Option.bind_eq_bind, Option.bind_some, List.drop_succ_cons, List.drop_zero, hden,
    Nat.ofDigitChars_ten_toDigits, signed_natAbs, Rat.mkRat_self, Option.pure_def]

theorem floatText_fraction : FloatText fractionText parseFraction := by
  intro q rest h
  have hnum : scanInt (Nat.toDigits 10 q.num.natAbs ++ 'e' :: (Nat.toDigits 10 q.den ++ rest)) =
      some _ := scanInt_toDigits _ fun c hc => by cases hc; decide
  have hfraction : scanFraction ('e' :: (Nat.toDigits 10 q.den ++ rest)) =
      ([], 'e' :: (Nat.toDigits 10 q.den ++ rest)) := rfl
  have hexponent : scanExponent ('e' :: (Nat.toDigits 10 q.den ++ rest)) =
      ('e' :: Nat.toDigits 10 q.den, rest) := by
    obtain ⟨d, ds, hd, hdigit⟩ := toDigits_cons q.den
    have hsign : ¬ (d = '-' ∨ d = '+') := by
      rintro (rfl | rfl) <;> revert hdigit <;> decide
    have hspan := span_digits (fun c hc => isDigit_of_mem (m := q.den) hc) fun c hc => (h c hc).1
    rw [hd, List.cons_append] at hspan ⊢
    rw [scanExponent, if_pos (.inl rfl), if_neg hsign, scanDigits, hspan.1, hspan.2,
      if_neg (List.cons_ne_nil d ds)]
    rfl
  have htext : String.ofList ((if q.num < 0 then ['-'] else []) ++ Nat.toDigits 10 q.num.natAbs ++ [] ++
      'e' :: Nat.toDigits 10 q.den) = fractionText q := by
    refine String.toList_injective ?_
    rw [String.toList_ofList, toList_fractionText, toList_int, List.append_nil]
  rw [toList_fractionText, List.append_assoc, List.cons_append, scanNumber, scanSign_int]
  simp only [hnum, Option.bind_eq_bind, Option.bind_some, hfraction, hexponent, htext]
  simp [parseFraction_fractionText]

end Json
