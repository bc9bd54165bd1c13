import AutonomyLab.Json.RoundTrip

/-!
# Texts in ASCII

With `ensure_ascii` a text consists of the printable characters of ASCII, whatever the
value, so that it is its own encoding and fits on one line.

* `printable_dumps` — the characters of a text.
* `encode` — UTF-8; `mem_encode` — the bytes of a printable text.
-/

namespace Json

/-- The printable characters of ASCII. -/
def Printable (cs : List Char) : Prop := ∀ c ∈ cs, 32 ≤ c.toNat ∧ c.toNat ≤ 126

/-- Whether a list of characters is printable is decided character by character. -/
theorem printable_of_all {cs : List Char}
    (h : (cs.all fun c => decide (32 ≤ c.toNat ∧ c.toNat ≤ 126)) = true) : Printable cs :=
  fun c hc => of_decide_eq_true (List.all_eq_true.1 h c hc)

theorem printable_nil : Printable [] := by
  intro c hc
  cases hc

theorem printable_cons {c : Char} {cs : List Char} :
    Printable (c :: cs) ↔ (32 ≤ c.toNat ∧ c.toNat ≤ 126) ∧ Printable cs := List.forall_mem_cons

theorem printable_append {cs ds : List Char} :
    Printable (cs ++ ds) ↔ Printable cs ∧ Printable ds := List.forall_mem_append

theorem printable_flatMap {α : Type} {f : α → List Char} {xs : List α}
    (h : ∀ x ∈ xs, Printable (f x)) : Printable (xs.flatMap f) := by
  intro c hc
  obtain ⟨x, hx, hcx⟩ := List.mem_flatMap.1 hc
  exact h x hx c hcx

theorem printable_intercalate {sep : List Char} {ts : List (List Char)} (hsep : Printable sep)
    (h : ∀ t ∈ ts, Printable t) : Printable (sep.intercalate ts) := by
  induction ts with
  | nil => exact printable_nil
  | cons t ts ih =>
      have ht : Printable t := h t List.mem_cons_self
      have hts := ih fun u hu => h u (List.mem_cons_of_mem t hu)
      by_cases hne : ts = []
      · subst hne
        rw [List.intercalate_singleton]
        exact ht
      · rw [List.intercalate_cons_of_ne_nil hne]
        exact printable_append.2 ⟨printable_append.2 ⟨ht, hsep⟩, hts⟩

theorem printable_of_isDigit {c : Char} (h : c.isDigit = true) : 32 ≤ c.toNat ∧ c.toNat ≤ 126 := by
  have hc : 48 ≤ c.toNat ∧ c.toNat ≤ 57 := Char.isDigit_iff_toNat.1 h
  omega

theorem printable_digitChar : ∀ d < 16, 32 ≤ (Nat.digitChar d).toNat ∧ (Nat.digitChar d).toNat ≤ 126 := by
  decide

theorem printable_unicodeEscape {n : ℕ} (h : n < 65536) : Printable (unicodeEscape n) := by
  rw [unicodeEscape, hex4_eq h]
  simp only [printable_cons]
  exact ⟨by decide, by decide, printable_digitChar _ (by omega), printable_digitChar _ (by omega),
    printable_digitChar _ (by omega), printable_digitChar _ (by omega), printable_nil⟩

theorem printable_escaped (c : Char) : Printable (escaped c) := by
  have hv := toNat_lt c
  unfold escaped
  split
  · rename_i h
    rw [printable_cons, printable_cons]
    refine ⟨by decide, ?_, printable_nil⟩
    rcases h with rfl | rfl <;> decide
  · split
    · exact printable_of_all (by decide)
    · exact printable_of_all (by decide)
    · exact printable_of_all (by decide)
    · exact printable_of_all (by decide)
    · exact printable_of_all (by decide)
    · dsimp only
      split
      · rename_i hn
        exact printable_cons.2 ⟨hn, printable_nil⟩
      · split
        · exact printable_unicodeEscape (by omega)
        · exact printable_append.2
            ⟨printable_unicodeEscape (by omega), printable_unicodeEscape (by omega)⟩

theorem printable_dumpsString (s : String) : Printable (dumpsString s).toList := by
  rw [toList_dumpsString, printable_cons, printable_append]
  refine ⟨by decide, printable_flatMap fun c _ => printable_escaped c, ?_⟩
  exact printable_cons.2 ⟨by decide, printable_nil⟩

theorem printable_int (n : ℤ) : Printable (toString n).toList := by
  rw [toList_int, printable_append]
  constructor
  · split
    · exact printable_cons.2 ⟨by decide, printable_nil⟩
    · exact printable_nil
  · exact fun c hc => printable_of_isDigit (isDigit_of_mem hc)

variable {reprFloat : ℚ → String} {L : Layout}

/-- A layout whose separators are printable. -/
structure Layout.Ascii (L : Layout) : Prop where
  item : Printable L.item.toList
  key : Printable L.key.toList

theorem printable_chars (hf : ∀ q, Printable (reprFloat q).toList) (hL : L.Ascii)
    (hs : L.sortKeys = false) (v : Json) : Printable (chars reprFloat L v) := by
  induction v using Json.induct with
  | null => rw [chars, dumps]; exact printable_of_all (by decide)
  | bool b => cases b <;> (rw [chars, dumps]; exact printable_of_all (by decide))
  | int n => exact printable_int n
  | float q => exact hf q
  | str s => exact printable_dumpsString s
  | arr xs ih =>
      rw [chars_arr, printable_cons, printable_append]
      refine ⟨by decide, printable_intercalate hL.item ?_, printable_cons.2 ⟨by decide, printable_nil⟩⟩
      exact fun t ht => by
        obtain ⟨x, hx, rfl⟩ := List.mem_map.1 ht
        exact ih x hx
  | obj fs ih =>
      rw [chars_obj hs, printable_cons, printable_append]
      refine ⟨by decide, printable_intercalate hL.item ?_, printable_cons.2 ⟨by decide, printable_nil⟩⟩
      intro t ht
      obtain ⟨p, hp, rfl⟩ := List.mem_map.1 ht
      rw [memberChars, printable_cons, printable_append, printable_cons, printable_append]
      exact ⟨by decide, printable_flatMap fun c _ => printable_escaped c, by decide, hL.key, ih p hp⟩

/-- **A text consists of the printable characters of ASCII.** -/
theorem printable_dumps (hf : ∀ q, Printable (reprFloat q).toList) (hL : L.Ascii) (v : Json) :
    Printable (dumps reprFloat L v).toList := by
  rw [dumps_ordered]
  have hunsorted : L.unsorted.Ascii := ⟨hL.item, hL.key⟩
  exact printable_chars hf hunsorted rfl _

/-! ## Bytes -/

/-- `text.encode()`. -/
def encode (text : List Char) : List UInt8 := text.flatMap String.utf8EncodeChar

/-- The bytes of a printable text are printable. -/
theorem mem_encode {text : List Char} (h : Printable text) {b : UInt8} (hb : b ∈ encode text) :
    32 ≤ b.toNat := by
  obtain ⟨c, hc, hbc⟩ := List.mem_flatMap.1 hb
  have hcp := h c hc
  have hcv : c.val.toNat ≤ 127 := by
    change c.toNat ≤ 127
    omega
  rw [String.utf8EncodeChar, if_pos hcv, List.mem_singleton] at hbc
  rw [hbc]
  change 32 ≤ (UInt8.ofNat c.toNat).toNat
  rw [UInt8.toNat_ofNat']
  omega

/-- A printable text is read back from its bytes. -/
theorem map_encode {text : List Char} (h : Printable text) :
    (encode text).map (fun b => Char.ofNat b.toNat) = text := by
  induction text with
  | nil => rfl
  | cons c text ih =>
      obtain ⟨hc, htext⟩ := printable_cons.1 h
      have hsingle : String.utf8EncodeChar c = [UInt8.ofNat c.toNat] := by
        have hcv : c.val.toNat ≤ 127 := by
          change c.toNat ≤ 127
          omega
        rw [String.utf8EncodeChar, if_pos hcv]
        rfl
      have hback : Char.ofNat (UInt8.ofNat c.toNat).toNat = c := by
        rw [UInt8.toNat_ofNat', Nat.mod_eq_of_lt (by omega), Char.ofNat_toNat]
      rw [encode, List.flatMap_cons, hsingle, List.singleton_append, List.map_cons, hback]
      exact congrArg (c :: ·) (ih htext)

/-! ## Floats -/

theorem printable_fractionText (q : ℚ) : Printable (fractionText q).toList := by
  rw [toList_fractionText, printable_append, printable_cons]
  refine ⟨printable_int q.num, by decide, ?_⟩
  exact fun c hc => printable_of_isDigit (isDigit_of_mem hc)

end Json
