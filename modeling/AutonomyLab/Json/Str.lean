import Mathlib.Data.List.Chain
import AutonomyLab.Json.Decode

/-!
# Strings with lone surrogates

A string of Python is a sequence of code points, and an escape in a JSON text may put a lone
surrogate there, which no text in UTF-8 has.

* `Str` — the strings that `json.loads` returns: two surrogates that make up a character are
  never left apart.
* `escapedPoint` — `ESCAPE_ASCII` for any code point; a code point beyond the first plane is
  written as its two `units`.
* `escapedStr_inj` — a string can be read off its escapes, whatever comes after them.
-/

namespace Json

abbrev High (p : ℕ) : Prop := 55296 ≤ p ∧ p ≤ 56319

abbrev Low (p : ℕ) : Prop := 56320 ≤ p ∧ p ≤ 57343

/-- A string, by its code points. -/
@[ext] structure Str where
  points : List ℕ
  valid : ∀ p ∈ points, p < 1114112
  /-- A high surrogate is not followed by a low one: they would have been one character. -/
  unpaired : points.IsChain fun p q => ¬(High p ∧ Low q)
  deriving DecidableEq

namespace Str

def empty : Str := ⟨[], nofun, .nil⟩

instance : Inhabited Str := ⟨empty⟩

/-- `s[:n]` and other beginnings of a string. -/
def initial (s : Str) {ps : List ℕ} (h : ps <+: s.points) : Str :=
  ⟨ps, fun p hp => s.valid p (h.subset hp), s.unpaired.prefix h⟩

theorem isChain_toNat (cs : List Char) :
    (cs.map Char.toNat).IsChain fun p q => ¬(High p ∧ Low q) := by
  refine List.Pairwise.isChain (List.pairwise_map.2 (List.pairwise_of_forall fun c d hpair => ?_))
  have hc : c.toNat < 55296 ∨ 57343 < c.toNat ∧ c.toNat < 1114112 := c.valid
  have hhigh := hpair.1
  omega

/-- A string without surrogates. -/
def ofString (s : String) : Str where
  points := s.toList.map Char.toNat
  valid p hp := by
    obtain ⟨c, -, rfl⟩ := List.mem_map.1 hp
    have hc : c.toNat < 55296 ∨ 57343 < c.toNat ∧ c.toNat < 1114112 := c.valid
    omega
  unpaired := isChain_toNat s.toList

end Str

/-! ## Escapes -/

/-- `ESCAPE_DCT`. -/
def escapeDct : List (ℕ × Char) :=
  [(92, backslash), (34, quote), (8, 'b'), (12, 'f'), (10, 'n'), (13, 'r'), (9, 't')]

/-- `ESCAPE_ASCII`, for a code point. -/
def escapedPoint (p : ℕ) : List Char :=
  match escapeDct.lookup p with
  | some e => [backslash, e]
  | none =>
      if 32 ≤ p ∧ p ≤ 126 then [Char.ofNat p]
      else if p < 65536 then unicodeEscape p
      else unicodeEscape (55296 + (p - 65536) / 1024) ++ unicodeEscape (56320 + (p - 65536) % 1024)

/-- A code point has a short escape, or is written as it is or with its number. -/
theorem escapedPoint_cases (p : ℕ) : p ∈ [92, 34, 8, 12, 10, 13, 9] ∨
    p ∉ [92, 34, 8, 12, 10, 13, 9] ∧ escapedPoint p =
      if 32 ≤ p ∧ p ≤ 126 then [Char.ofNat p]
      else if p < 65536 then unicodeEscape p
      else unicodeEscape (55296 + (p - 65536) / 1024) ++
        unicodeEscape (56320 + (p - 65536) % 1024) := by
  by_cases hmem : p ∈ [92, 34, 8, 12, 10, 13, 9]
  · exact .inl hmem
  · right
    have hnone : escapeDct.lookup p = none := by
      refine List.lookup_eq_none_iff.2 fun q hq => ?_
      have hkey : q.1 ∈ [92, 34, 8, 12, 10, 13, 9] := List.mem_map_of_mem (f := Prod.fst) hq
      rw [bne_iff_ne]
      rintro rfl
      exact hmem hkey
    exact ⟨hmem, by rw [escapedPoint, hnone]⟩

/-- On the characters of a text in UTF-8 it is what it was. -/
theorem escaped_eq (c : Char) : escaped c = escapedPoint c.toNat := by
  rcases escapedPoint_cases c.toNat with hmem | ⟨hmem, heq⟩
  · obtain ⟨n, hn⟩ : ∃ n, c.toNat = n := ⟨_, rfl⟩
    have hc : c = Char.ofNat n := by rw [← hn, Char.ofNat_toNat]
    rw [hn] at hmem ⊢
    subst hc
    simp only [List.mem_cons, List.not_mem_nil, or_false] at hmem
    rcases hmem with rfl | rfl | rfl | rfl | rfl | rfl | rfl <;> rfl
  · simp only [List.mem_cons, List.not_mem_nil, or_false, not_or] at hmem
    obtain ⟨h92, h34, h8, h12, h10, h13, h9⟩ := hmem
    have hquote : c ≠ quote := by
      rintro rfl
      exact h34 rfl
    have hbackslash : c ≠ backslash := by
      rintro rfl
      exact h92 rfl
    rw [heq, escaped, if_neg (not_or.2 ⟨hquote, hbackslash⟩), Char.ofNat_toNat]
    split
    any_goals contradiction
    rfl

/-- The UTF-16 units of a code point. -/
def units (p : ℕ) : List ℕ :=
  if p < 65536 then [p] else [55296 + (p - 65536) / 1024, 56320 + (p - 65536) % 1024]

theorem units_lt {p : ℕ} (h : p < 1114112) : ∀ u ∈ units p, u < 65536 := by
  unfold units
  split
  · intro u hu
    rw [List.mem_singleton] at hu
    omega
  · intro u hu
    simp only [List.mem_cons, List.not_mem_nil, or_false] at hu
    rcases hu with hu | hu <;> omega

/-- A code point that is written with its number. -/
theorem escapedPoint_unicode {p : ℕ} (h : 126 < p) : escapedPoint p =
    if p < 65536 then unicodeEscape p
    else unicodeEscape (55296 + (p - 65536) / 1024) ++
      unicodeEscape (56320 + (p - 65536) % 1024) := by
  rcases escapedPoint_cases p with hmem | ⟨-, heq⟩
  · simp only [List.mem_cons, List.not_mem_nil, or_false] at hmem
    omega
  · rw [heq, if_neg (by omega)]

/-- **A code point is written as its units.** -/
theorem escapedPoint_units {p : ℕ} (h : p < 1114112) :
    escapedPoint p = (units p).flatMap escapedPoint := by
  unfold units
  split
  · rw [List.flatMap_singleton]
  · next hp =>
      have hhigh : 55296 + (p - 65536) / 1024 < 65536 := by omega
      have hlow : 56320 + (p - 65536) % 1024 < 65536 := by omega
      rw [List.flatMap_cons, List.flatMap_singleton, escapedPoint_unicode (by omega), if_neg hp,
        @escapedPoint_unicode (55296 + (p - 65536) / 1024) (by omega), if_pos hhigh,
        @escapedPoint_unicode (56320 + (p - 65536) % 1024) (by omega), if_pos hlow]

/-- The first unit of the rest of a string. -/
def scanUnit : List Char → Option (ℕ × List Char)
  | [] => none
  | c :: rest =>
      if c = quote then none
      else if c = backslash then match rest with
        | [] => none
        | e :: rest =>
            if e = 'u' then scanHex4 rest else (simpleEscape? e).map fun c => (c.toNat, rest)
      else some (c.toNat, rest)

/-- **A unit can be read off its escape.** -/
theorem scanUnit_escaped {u : ℕ} (h : u < 65536) (rest : List Char) :
    scanUnit (escapedPoint u ++ rest) = some (u, rest) := by
  rcases escapedPoint_cases u with hmem | ⟨hmem, heq⟩
  · simp only [List.mem_cons, List.not_mem_nil, or_false] at hmem
    rcases hmem with rfl | rfl | rfl | rfl | rfl | rfl | rfl <;> rfl
  · simp only [List.mem_cons, List.not_mem_nil, or_false, not_or] at hmem
    rw [heq]
    split
    · next hprint =>
        have hvalid : (Char.ofNat u).toNat = u := by
          have hascii : ∀ n < 127, (Char.ofNat n).toNat = n := by decide
          exact hascii u (by omega)
        have hquote : Char.ofNat u ≠ quote := by
          intro hc
          exact hmem.2.1 (hvalid.symm.trans (congrArg Char.toNat hc))
        have hbackslash : Char.ofNat u ≠ backslash := by
          intro hc
          exact hmem.1 (hvalid.symm.trans (congrArg Char.toNat hc))
        change (if Char.ofNat u = quote then none else if Char.ofNat u = backslash then _ else
          some ((Char.ofNat u).toNat, rest)) = _
        rw [if_neg hquote, if_neg hbackslash, hvalid]
    · exact scanHex4_hex4 h rest

theorem escapedPoint_append_inj {u v : ℕ} (hu : u < 65536) (hv : v < 65536) {r s : List Char}
    (h : escapedPoint u ++ r = escapedPoint v ++ s) : u = v ∧ r = s := by
  have hscan := scanUnit_escaped hu r
  rw [h, scanUnit_escaped hv s] at hscan
  cases hscan
  exact ⟨rfl, rfl⟩

theorem escapedPoint_ne_quote {u : ℕ} (hu : u < 65536) (r s : List Char) :
    escapedPoint u ++ r ≠ quote :: s := by
  intro h
  have hscan := scanUnit_escaped hu r
  rw [h] at hscan
  cases hscan

/-- Units can be read up to the quote that ends the string. -/
theorem escapedUnits_inj {us vs : List ℕ} (hus : ∀ u ∈ us, u < 65536) (hvs : ∀ v ∈ vs, v < 65536)
    {r s : List Char} (h : us.flatMap escapedPoint ++ quote :: r =
      vs.flatMap escapedPoint ++ quote :: s) : us = vs ∧ r = s := by
  induction us generalizing vs with
  | nil =>
      cases vs with
      | nil => exact ⟨rfl, List.tail_eq_of_cons_eq h⟩
      | cons v vs =>
          rw [List.flatMap_nil, List.nil_append, List.flatMap_cons, List.append_assoc] at h
          exact absurd h.symm (escapedPoint_ne_quote (hvs v List.mem_cons_self) _ _)
  | cons u us ih =>
      rw [List.flatMap_cons, List.append_assoc] at h
      cases vs with
      | nil =>
          rw [List.flatMap_nil, List.nil_append] at h
          exact absurd h (escapedPoint_ne_quote (hus u List.mem_cons_self) _ _)
      | cons v vs =>
          rw [List.flatMap_cons, List.append_assoc] at h
          obtain ⟨rfl, hrest⟩ := escapedPoint_append_inj (hus u List.mem_cons_self)
            (hvs v List.mem_cons_self) h
          obtain ⟨rfl, rfl⟩ := ih (fun w hw => hus w (List.mem_cons_of_mem u hw))
            (fun w hw => hvs w (List.mem_cons_of_mem u hw)) hrest
          exact ⟨rfl, rfl⟩

/-! ## Strings -/

/-- After a high surrogate of its own a string does not go on with a low unit. -/
theorem ne_flatMap_units {q : ℕ} {qs : List ℕ} (hvalid : ∀ p ∈ qs, p < 1114112)
    (hchain : (q :: qs).IsChain fun p q => ¬(High p ∧ Low q)) (hq : High q) {u : ℕ} (hu : Low u)
    (r : List ℕ) : u :: r ≠ qs.flatMap units := by
  intro h
  cases qs with
  | nil => cases h
  | cons p qs =>
      have hp := hvalid p List.mem_cons_self
      rw [List.flatMap_cons, units] at h
      split at h
      · obtain ⟨rfl, -⟩ := List.cons_eq_cons.1 h
        exact (List.isChain_cons_cons.1 hchain).1 ⟨hq, hu⟩
      · obtain ⟨hhead, -⟩ := List.cons_eq_cons.1 h
        omega

/-- **The units of a string are those of no other.** -/
theorem flatMap_units_inj {ps qs : List ℕ} (hps : ∀ p ∈ ps, p < 1114112)
    (hqs : ∀ q ∈ qs, q < 1114112) (hp : ps.IsChain fun p q => ¬(High p ∧ Low q))
    (hq : qs.IsChain fun p q => ¬(High p ∧ Low q))
    (h : ps.flatMap units = qs.flatMap units) : ps = qs := by
  have hne : ∀ p r, units p ++ r ≠ [] := by
    intro p r
    unfold units
    split <;> exact List.cons_ne_nil _ _
  induction ps generalizing qs with
  | nil =>
      cases qs with
      | nil => rfl
      | cons q qs => exact absurd h.symm (hne q _)
  | cons p ps ih =>
      cases qs with
      | nil => exact absurd h (hne p _)
      | cons q qs =>
          have hpv := hps p List.mem_cons_self
          have hqv := hqs q List.mem_cons_self
          have hps' : ∀ x ∈ ps, x < 1114112 := fun x hx => hps x (List.mem_cons_of_mem p hx)
          have hqs' : ∀ x ∈ qs, x < 1114112 := fun x hx => hqs x (List.mem_cons_of_mem q hx)
          have hrest : ps.flatMap units = qs.flatMap units → ps = qs :=
            ih hps' hqs' hp.of_cons hq.of_cons
          rw [List.flatMap_cons, List.flatMap_cons, units, units] at h
          split at h
          · split at h
            · obtain ⟨rfl, htail⟩ := List.cons_eq_cons.1 h
              rw [hrest htail]
            · obtain ⟨hhead, h⟩ := List.cons_eq_cons.1 h
              exact absurd h.symm (ne_flatMap_units hps' hp (by omega) (by omega) _)
          · split at h
            · obtain ⟨hhead, h⟩ := List.cons_eq_cons.1 h
              exact absurd h (ne_flatMap_units hqs' hq (by omega) (by omega) _)
            · obtain ⟨hhigh, h⟩ := List.cons_eq_cons.1 h
              obtain ⟨hlow, h⟩ := List.cons_eq_cons.1 h
              have hsame : p = q := by omega
              rw [hsame, hrest h]

/-- The escapes of a string. -/
def Str.escaped (s : Str) : List Char := s.points.flatMap escapedPoint

theorem Str.escaped_eq_units (s : Str) :
    s.escaped = (s.points.flatMap units).flatMap escapedPoint := by
  rw [Str.escaped, List.flatMap_assoc]
  exact List.flatMap_congr fun p hp => escapedPoint_units (s.valid p hp)

/-- **A string can be read off its escapes**, up to the quote that ends it. -/
theorem escapedStr_inj {s t : Str} {r r' : List Char}
    (h : s.escaped ++ quote :: r = t.escaped ++ quote :: r') : s = t ∧ r = r' := by
  have hunits : ∀ x : Str, ∀ u ∈ x.points.flatMap units, u < 65536 := by
    intro x u hu
    obtain ⟨p, hp, hup⟩ := List.mem_flatMap.1 hu
    exact units_lt (x.valid p hp) u hup
  rw [Str.escaped_eq_units, Str.escaped_eq_units] at h
  obtain ⟨hsame, hr⟩ := escapedUnits_inj (hunits s) (hunits t) h
  exact ⟨Str.ext (flatMap_units_inj s.valid t.valid s.unpaired t.unpaired hsame), hr⟩

end Json
