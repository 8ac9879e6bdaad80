import FuzzLedger.Json.Lexeme
import FuzzLedger.Json.Value
import Mathlib

/-!
# The strings and numbers of a JSON text are read

A string may use any escape for any of its characters: a letter, four hexadecimal digits, or eight
for a pair of surrogates (`DenotesChars`).  A surrogate on its own is no character and denotes
nothing.  A whole number of 64 bits (`IsWord`) is written plainly; every other number has a fraction
or an exponent (`Real`), and is left open here as to its value.

* `stringBody_of_denotes` — a string is read as what it denotes.
* `readNumber_intChars` — a whole number is read, up to what cannot go on it (`NumberEnds`).
* `Real.readNumber_chars` — any other number is read too, and never as a whole one.
-/

set_option autoImplicit false

namespace FuzzLedger.Json

/-! ## Strings -/

/-- A character that may stand in a line: no control character, so no line break. -/
def Printable (c : Char) : Prop := 0x20 ≤ c.toNat

instance (c : Char) : Decidable (Printable c) := inferInstanceAs (Decidable (0x20 ≤ c.toNat))

/-- Four hexadecimal digits and their number. -/
inductive UnitDigits : List Char → Nat → Prop where
  | mk {a b c d : Char} {i j k l : Nat} (ha : Text.hexValue? a = some i)
      (hb : Text.hexValue? b = some j) (hc : Text.hexValue? c = some k)
      (hd : Text.hexValue? d = some l) : UnitDigits [a, b, c, d] (((i * 16 + j) * 16 + k) * 16 + l)

/-- The characters between the quotes of a string, and the string. -/
inductive DenotesChars : List Char → List Char → Prop where
  | nil : DenotesChars [] []
  | plain {c : Char} {chars s : List Char} (hquote : c ≠ '"') (hbackslash : c ≠ '\\')
      (hprintable : Printable c) (h : DenotesChars chars s) : DenotesChars (c :: chars) (c :: s)
  | letter {letter c : Char} {chars s : List Char} (hletter : escapeValue? letter = some c)
      (h : DenotesChars chars s) : DenotesChars ('\\' :: letter :: chars) (c :: s)
  | unit {digits : List Char} {c : Char} {chars s : List Char}
      (hdigits : UnitDigits digits c.toNat) (h : DenotesChars chars s) :
      DenotesChars ('\\' :: 'u' :: (digits ++ chars)) (c :: s)
  /-- A character beyond 16 bits, by two code units. -/
  | pair {digits digits' : List Char} {high low : Nat} {c : Char} {chars s : List Char}
      (hdigits : UnitDigits digits (0xD800 + high)) (hdigits' : UnitDigits digits' (0xDC00 + low))
      (hhigh : high < 0x400) (hlow : low < 0x400) (hc : c.toNat = 0x10000 + high * 0x400 + low)
      (h : DenotesChars chars s) :
      DenotesChars ('\\' :: 'u' :: (digits ++ '\\' :: 'u' :: (digits' ++ chars))) (c :: s)

theorem codeUnit_of_unitDigits {digits : List Char} {n : Nat} (h : UnitDigits digits n)
    (rest : List Char) : codeUnit (digits ++ rest) = .ok (n, rest) := by
  cases h with
  | mk ha hb hc hd => simp only [List.cons_append, List.nil_append, codeUnit, ha, hb, hc, hd]

/-- The escape of a code unit is read in one step. -/
theorem stringBody_unit {digits : List Char} {n : Nat} (h : UnitDigits digits n) (steps : Nat)
    (p : Partial) (rest : List Char) :
    stringBody (steps + 1) p ('\\' :: 'u' :: (digits ++ rest)) =
      stringBody steps (p.pushUnit n) rest := by
  have hescape : escapeValue? 'u' = none := by decide
  simp only [stringBody, Char.reduceEq, if_false, if_true, hescape, codeUnit_of_unitDigits h]

/-- A character is never a surrogate. -/
theorem not_surrogate (c : Char) :
    isHighSurrogate c.toNat = false ∧ isLowSurrogate c.toNat = false := by
  have hvalid : c.toNat < 0xD800 ∨ 0xDFFF < c.toNat ∧ c.toNat < 0x110000 := c.valid
  unfold isHighSurrogate isLowSurrogate
  simp only [Bool.and_eq_false_iff, decide_eq_false_iff_not]
  omega

/-- **A string is read as what it denotes**, up to its closing quote. -/
theorem stringBody_of_denotes {chars s : List Char} (h : DenotesChars chars s) :
    ∀ (steps : Nat) (read rest : List Char), chars.length < steps →
      stringBody steps ⟨read, none, false⟩ (chars ++ '"' :: rest) =
        .done (some (String.ofList (read.reverse ++ s))) rest := by
  induction h with
  | nil =>
    intro steps read rest hsteps
    obtain ⟨steps, rfl⟩ : ∃ n, steps = n + 1 := ⟨steps - 1, by omega⟩
    simp [stringBody, Partial.finish, Partial.spoilt]
  | @plain c chars s hquote hbackslash hprintable _ ih =>
    intro steps read rest hsteps
    rw [List.length_cons] at hsteps
    obtain ⟨steps, rfl⟩ : ∃ n, steps = n + 1 := ⟨steps - 1, by omega⟩
    have hrest := ih steps (c :: read) rest (by omega)
    have hnot : ¬ c.toNat < 0x20 := Nat.not_lt.2 hprintable
    rw [List.reverse_cons, List.append_assoc, List.singleton_append] at hrest
    simp only [List.cons_append, stringBody, if_neg hquote, if_neg hbackslash, if_neg hnot,
      Partial.push, Partial.spoilt, Option.isSome_none, Bool.or_self, hrest]
  | @letter letter c chars s hletter _ ih =>
    intro steps read rest hsteps
    simp only [List.length_cons] at hsteps
    obtain ⟨steps, rfl⟩ : ∃ n, steps = n + 1 := ⟨steps - 1, by omega⟩
    have hrest := ih steps (c :: read) rest (by omega)
    rw [List.reverse_cons, List.append_assoc, List.singleton_append] at hrest
    simp only [List.cons_append, stringBody, Char.reduceEq, if_false, if_true, hletter,
      Partial.push, Partial.spoilt, Option.isSome_none, Bool.or_self, hrest]
  | @unit digits c chars s hdigits _ ih =>
    intro steps read rest hsteps
    simp only [List.length_cons, List.length_append] at hsteps
    obtain ⟨steps, rfl⟩ : ∃ n, steps = n + 1 := ⟨steps - 1, by omega⟩
    have hrest := ih steps (c :: read) rest (by omega)
    obtain ⟨hhigh, hlow⟩ := not_surrogate c
    rw [List.reverse_cons, List.append_assoc, List.singleton_append] at hrest
    have hpush : Partial.pushUnit ⟨read, none, false⟩ c.toNat = ⟨c :: read, none, false⟩ := by
      simp only [Partial.pushUnit, hhigh, hlow, Bool.false_eq_true, if_false, Char.ofNat_toNat]
    simp only [List.cons_append, List.append_assoc]
    rw [stringBody_unit hdigits, hpush, hrest]
  | @pair digits digits' high low c chars s hdigits hdigits' hhigh hlow hc _ ih =>
    intro steps read rest hsteps
    simp only [List.length_cons, List.length_append] at hsteps
    obtain ⟨steps, rfl⟩ : ∃ n, steps = n + 2 := ⟨steps - 2, by omega⟩
    have hrest := ih steps (c :: read) rest (by omega)
    rw [List.reverse_cons, List.append_assoc, List.singleton_append] at hrest
    have hfirst : Partial.pushUnit ⟨read, none, false⟩ (0xD800 + high) =
        ⟨read, some (0xD800 + high), false⟩ := by
      have hsurrogate : isHighSurrogate (0xD800 + high) = true := by
        simp [isHighSurrogate]
        omega
      simp only [Partial.pushUnit, hsurrogate, if_true]
    have hsecond : Partial.pushUnit ⟨read, some (0xD800 + high), false⟩ (0xDC00 + low) =
        ⟨c :: read, none, false⟩ := by
      have hsurrogate : isLowSurrogate (0xDC00 + low) = true := by
        simp [isLowSurrogate]
        omega
      have hvalue : (0xD800 + high - 0xD800) * 0x400 + (0xDC00 + low - 0xDC00) + 0x10000 =
          c.toNat := by omega
      simp only [Partial.pushUnit, hsurrogate, if_true, hvalue, Char.ofNat_toNat]
    simp only [List.cons_append, List.append_assoc]
    rw [stringBody_unit hdigits, hfirst, stringBody_unit hdigits', hsecond, hrest]

/-! ## Numbers -/

/-- What follows cannot go on a number. -/
def NumberEnds (rest : List Char) : Prop :=
  ∀ c ∈ rest.head?, isDigit c = false ∧ c ≠ '.' ∧ c ≠ 'e' ∧ c ≠ 'E'

theorem NumberEnds.nil : NumberEnds [] := by
  intro c hc
  cases hc

theorem NumberEnds.cons {c : Char} (h : isDigit c = false ∧ c ≠ '.' ∧ c ≠ 'e' ∧ c ≠ 'E')
    (rest : List Char) : NumberEnds (c :: rest) := by
  intro d hd
  cases hd
  exact h

theorem isDigit_of_mem_toDigits {n : Nat} {c : Char} (h : c ∈ Nat.toDigits 10 n) :
    isDigit c = true := by
  have hdigit := Nat.isDigit_of_mem_toDigits (by decide) (by decide) h
  simp only [Char.isDigit, Bool.and_eq_true, decide_eq_true_eq] at hdigit
  simp only [isDigit, Bool.and_eq_true, decide_eq_true_eq]
  exact hdigit

theorem digitNat_digitChar {d : Nat} (h : d < 10) : digitNat d.digitChar = d := by
  have hall : ∀ d, d < 10 → digitNat d.digitChar = d := by decide
  exact hall d h

/-- At least one digit. -/
def IsDigits (digits : List Char) : Prop := digits ≠ [] ∧ ∀ c ∈ digits, isDigit c = true

theorem isDigits_toDigits (n : Nat) : IsDigits (Nat.toDigits 10 n) :=
  ⟨Nat.toDigits_ne_nil, fun _ => isDigit_of_mem_toDigits⟩

theorem span_digits {digits rest : List Char} (h : IsDigits digits)
    (hrest : ∀ c ∈ rest.head?, isDigit c = false) :
    (digits ++ rest).span isDigit = (digits, rest) := by
  rw [List.span_eq_takeWhile_dropWhile, List.takeWhile_append_of_pos h.2,
    List.dropWhile_append_of_pos h.2]
  cases rest with
  | nil => simp
  | cons c rest => simp [hrest c rfl]

/-- The digits of a number that is not too large add up to it. -/
theorem foldl_pushWhole_toDigits (n : Nat) (h : n ≤ maxSignificand) :
    (Nat.toDigits 10 n).foldl Mantissa.pushWhole {} = { significand := n } := by
  have hlast {m d : Nat} (hd : d < 10) (hle : m * 10 + d ≤ maxSignificand) :
      Mantissa.pushWhole { significand := m } d.digitChar = { significand := m * 10 + d } := by
    simp only [Mantissa.pushWhole, digitNat_digitChar hd, Bool.false_eq_true, false_or,
      if_neg (Nat.not_lt_of_le hle)]
  induction n using Nat.strongRecOn with
  | ind n ih =>
    rw [Nat.toDigits_eq_if (by decide)]
    split
    · rename_i hlt
      have hpush := hlast (m := 0) hlt (by omega)
      rw [Nat.zero_mul, Nat.zero_add] at hpush
      exact hpush
    · have hdiv : n / 10 * 10 + n % 10 = n := by omega
      have hpush := hlast (m := n / 10) (d := n % 10) (by omega) (by omega)
      rw [List.foldl_append, ih (n / 10) (by omega) (by omega), List.foldl_cons, List.foldl_nil,
        hpush, hdiv]

/-- Only zero is written with a leading zero. -/
theorem head?_toDigits_ne {n : Nat} (h : 0 < n) : (Nat.toDigits 10 n).head? ≠ some '0' := by
  have hdigit : ∀ d, d < 10 → d.digitChar = '0' → d = 0 := by decide
  induction n using Nat.strongRecOn with
  | ind n ih =>
    rw [Nat.toDigits_eq_if (by decide)]
    split
    · rename_i hlt
      intro hhead
      have := hdigit n hlt (Option.some.inj hhead)
      omega
    · have hne : Nat.toDigits 10 (n / 10) ≠ [] := Nat.toDigits_ne_nil
      rw [List.head?_append_of_ne_nil _ hne]
      exact ih (n / 10) (by omega) (by omega)

theorem readAfterWhole_of_numberEnds (negative : Bool) (m : Mantissa) {rest : List Char}
    (hrest : NumberEnds rest) :
    readAfterWhole negative m rest = .done (wholeNumeral negative m) rest := by
  unfold readAfterWhole
  split
  · exact absurd rfl (hrest _ rfl).2.1
  · exact absurd rfl (hrest _ rfl).2.2.1
  · exact absurd rfl (hrest _ rfl).2.2.2
  · rfl

/-- The whole part of a number is read, whatever follows it. -/
theorem readMagnitude_append (negative : Bool) (n : Nat) {rest : List Char}
    (hrest : ∀ c ∈ rest.head?, isDigit c = false) :
    readMagnitude negative (Nat.toDigits 10 n ++ rest) =
      readAfterWhole negative ((Nat.toDigits 10 n).foldl Mantissa.pushWhole {}) rest := by
  simp only [readMagnitude, span_digits (isDigits_toDigits n) hrest]
  split
  · rename_i hnil
    exact absurd hnil Nat.toDigits_ne_nil
  · -- a zero followed by a digit is not how a number is written
    rename_i d ds hdigits
    rcases Nat.eq_zero_or_pos n with rfl | hpos
    · have hzero : Nat.toDigits 10 0 = ['0'] := by decide
      rw [hzero] at hdigits
      cases hdigits
    · exact absurd (by rw [hdigits]; rfl) (head?_toDigits_ne hpos)
  · rfl

theorem readMagnitude_toDigits (negative : Bool) {n : Nat} (h : n ≤ maxSignificand)
    {rest : List Char} (hrest : NumberEnds rest) :
    readMagnitude negative (Nat.toDigits 10 n ++ rest) =
      .done (wholeNumeral negative { significand := n }) rest := by
  rw [readMagnitude_append negative n fun c hc => (hrest c hc).1, foldl_pushWhole_toDigits n h]
  exact readAfterWhole_of_numberEnds negative _ hrest

/-- A number that begins with a digit has no sign. -/
theorem readNumber_toDigits (n : Nat) (rest : List Char) :
    readNumber (Nat.toDigits 10 n ++ rest) = readMagnitude false (Nat.toDigits 10 n ++ rest) := by
  unfold readNumber
  split
  · rename_i hminus
    cases hdigits : Nat.toDigits 10 n with
    | nil => exact absurd hdigits Nat.toDigits_ne_nil
    | cons c ds =>
      rw [hdigits] at hminus
      cases hminus
      have hdigit := isDigit_of_mem_toDigits (hdigits ▸ List.mem_cons_self)
      exact absurd hdigit (by decide)
  · rfl

/-- A number of 64 bits, signed or unsigned. -/
def IsWord (n : Int) : Prop := Int64.minValue.toInt ≤ n ∧ n < UInt64.size

/-- A number begins with its sign or a digit. -/
def StartsNumber (chars : List Char) : Prop :=
  ∃ c rest, chars = c :: rest ∧ (c = '-' ∨ isDigit c = true)

theorem startsNumber_toDigits (n : Nat) (rest : List Char) :
    StartsNumber (Nat.toDigits 10 n ++ rest) := by
  cases hdigits : Nat.toDigits 10 n with
  | nil => exact absurd hdigits Nat.toDigits_ne_nil
  | cons c ds =>
    exact ⟨c, ds ++ rest, rfl, .inr (isDigit_of_mem_toDigits (hdigits ▸ List.mem_cons_self))⟩

theorem startsNumber_intChars (n : Int) : StartsNumber (intChars n) := by
  unfold intChars
  split
  · exact ⟨'-', _, rfl, .inl rfl⟩
  · have hstart := startsNumber_toDigits n.natAbs []
    rwa [List.append_nil] at hstart

/-- **A written whole number of 64 bits is read back.** -/
theorem readNumber_intChars {n : Int} (h : IsWord n) {rest : List Char} (hrest : NumberEnds rest) :
    readNumber (intChars n ++ rest) = .done (some (.int n)) rest := by
  obtain ⟨hmin, hmax⟩ := h
  have hsize : (UInt64.size : Int) = 18446744073709551616 := by decide
  have hlow : Int64.minValue.toInt = -9223372036854775808 := by decide
  have hlimit : maxSignificand = 18446744073709551615 := by decide
  unfold intChars
  split
  · rename_i hneg
    have hpos : ¬ (n.natAbs = 0 ∨ Int64.minValue.toInt.natAbs < n.natAbs) := by omega
    have habs : -(n.natAbs : Int) = n := by omega
    simp only [List.cons_append, readNumber]
    rw [readMagnitude_toDigits true (by omega) hrest]
    simp only [wholeNumeral, Bool.false_eq_true, if_false, Bool.not_true, if_neg hpos, habs]
  · rename_i hnonneg
    have habs : (n.natAbs : Int) = n := by omega
    have hread := readMagnitude_toDigits false (n := n.natAbs) (by omega) hrest
    rw [readNumber_toDigits, hread]
    simp only [wholeNumeral, Bool.false_eq_true, if_false, Bool.not_false, if_true, habs]

/-! ## Numbers with a fraction or an exponent -/

/-- A point and digits. -/
def IsFraction (chars : List Char) : Prop := ∃ digits, IsDigits digits ∧ chars = '.' :: digits

/-- A letter, perhaps a sign, and digits. -/
def IsExponent (chars : List Char) : Prop :=
  ∃ mark sign digits, (mark = 'e' ∨ mark = 'E') ∧ (sign = [] ∨ sign = ['+'] ∨ sign = ['-']) ∧
    IsDigits digits ∧ chars = mark :: (sign ++ digits)

/-- A number that has a fraction, an exponent or both. -/
structure Real where
  negative : Bool
  whole : Nat
  fraction : List Char
  exponent : List Char
  isFraction : fraction = [] ∨ IsFraction fraction
  isExponent : exponent = [] ∨ IsExponent exponent
  marked : fraction ≠ [] ∨ exponent ≠ []

/-- How the number is written. -/
def Real.chars (x : Real) : List Char :=
  (if x.negative then ['-'] else []) ++ (Nat.toDigits 10 x.whole ++ (x.fraction ++ x.exponent))

/-- The double that is read for the number, if there is one. -/
def Real.value (x : Real) : Option Binary64 :=
  match readNumber x.chars with
  | .done (some (.float value)) _ => some value
  | _ => none

theorem isEmpty_digits {digits : List Char} (h : IsDigits digits) : digits.isEmpty = false := by
  rw [Bool.eq_false_iff, ne_eq, List.isEmpty_iff]
  exact h.1

/-- An exponent is read to its end. -/
theorem readExponent_append (negative : Bool) (m : Mantissa) {sign digits : List Char}
    (hsign : sign = [] ∨ sign = ['+'] ∨ sign = ['-']) (hdigits : IsDigits digits) :
    ∃ x : Option Binary64, ∀ rest, NumberEnds rest →
      readExponent negative m (sign ++ (digits ++ rest)) = .done (x.map .float) rest := by
  have hspan {rest : List Char} (hrest : NumberEnds rest) :
      (digits ++ rest).span isDigit = (digits, rest) :=
    span_digits hdigits fun c hc => (hrest c hc).1
  have hnonempty := isEmpty_digits hdigits
  let size : Int := digits.foldl (fun n c => 10 * n + digitNat c) 0
  rcases hsign with rfl | rfl | rfl
  · refine ⟨Binary64.ofDecimal? negative m.significand (m.exponent + size), fun rest hrest => ?_⟩
    have hspan := hspan hrest
    -- the first digit is no sign
    obtain ⟨d, ds, rfl⟩ := List.exists_cons_of_ne_nil hdigits.1
    have hd := hdigits.2 d List.mem_cons_self
    rw [List.cons_append] at hspan
    unfold readExponent
    split
    rename_i heq
    split at heq
    · rename_i hplus
      injection hplus with hplus
      exact absurd (hplus ▸ hd) (by decide)
    · rename_i hminus
      injection hminus with hminus
      exact absurd (hminus ▸ hd) (by decide)
    · cases heq
      simp only [List.nil_append, List.cons_append, hspan, hnonempty]
      rfl
  · refine ⟨Binary64.ofDecimal? negative m.significand (m.exponent + size), fun rest hrest => ?_⟩
    simp only [readExponent, List.cons_append, List.nil_append, hspan hrest, hnonempty]
    rfl
  · refine ⟨Binary64.ofDecimal? negative m.significand (m.exponent - size), fun rest hrest => ?_⟩
    simp only [readExponent, List.cons_append, List.nil_append, hspan hrest, hnonempty]
    rfl

/-- What follows the whole part is read to its end, and the number is not a whole one. -/
theorem readAfterWhole_append (x : Real) (m : Mantissa) :
    ∃ value : Option Binary64, ∀ rest, NumberEnds rest →
      readAfterWhole x.negative m (x.fraction ++ (x.exponent ++ rest)) =
        .done (value.map .float) rest := by
  obtain ⟨negative, whole, fraction, exponent, hfraction, hexponent, hmarked⟩ := x
  dsimp only at hfraction hexponent hmarked ⊢
  rcases hfraction with rfl | ⟨digits, hdigits, rfl⟩
  · rcases hexponent with rfl | ⟨mark, sign, digits, hmark, hsign, hdigits, rfl⟩
    · exact absurd hmarked (by simp)
    · obtain ⟨value, hvalue⟩ := readExponent_append negative m hsign hdigits
      refine ⟨value, fun rest hrest => ?_⟩
      rcases hmark with rfl | rfl <;>
        simp only [List.nil_append, List.cons_append, List.append_assoc, readAfterWhole,
          hvalue rest hrest]
  · have hnonempty := isEmpty_digits hdigits
    rcases hexponent with rfl | ⟨mark, sign, more, hmark, hsign, hmore, rfl⟩
    · refine ⟨Binary64.ofDecimal? negative (m.pushFraction digits).significand
        (m.pushFraction digits).exponent, fun rest hrest => ?_⟩
      have hspan : (digits ++ rest).span isDigit = (digits, rest) :=
        span_digits hdigits fun c hc => (hrest c hc).1
      simp only [List.nil_append, List.cons_append, readAfterWhole, hspan, hnonempty,
        Bool.false_eq_true, if_false]
      split
      · exact absurd rfl (hrest _ rfl).2.2.1
      · exact absurd rfl (hrest _ rfl).2.2.2
      · rfl
    · obtain ⟨value, hvalue⟩ := readExponent_append negative (m.pushFraction digits) hsign hmore
      refine ⟨value, fun rest hrest => ?_⟩
      have hspan : (digits ++ mark :: (sign ++ (more ++ rest))).span isDigit =
          (digits, mark :: (sign ++ (more ++ rest))) := by
        refine span_digits hdigits fun c hc => ?_
        cases hc
        rcases hmark with rfl | rfl <;> decide
      rcases hmark with rfl | rfl <;>
        simp only [List.cons_append, List.append_assoc, readAfterWhole, hspan, hnonempty,
          Bool.false_eq_true, if_false, hvalue rest hrest]

/-- What follows the whole part does not begin with a digit. -/
theorem isDigit_head_of_real (x : Real) (rest : List Char) :
    ∀ c ∈ (x.fraction ++ (x.exponent ++ rest)).head?, isDigit c = false := by
  obtain ⟨negative, whole, fraction, exponent, hfraction, hexponent, hmarked⟩ := x
  dsimp only at hfraction hexponent hmarked ⊢
  intro c hc
  rcases hfraction with rfl | ⟨digits, -, rfl⟩
  · rcases hexponent with rfl | ⟨mark, sign, digits, hmark, -, -, rfl⟩
    · exact absurd hmarked (by simp)
    · cases hc
      rcases hmark with rfl | rfl <;> decide
  · cases hc
    decide

theorem readNumber_append (x : Real) :
    ∃ value : Option Binary64, ∀ rest, NumberEnds rest →
      readNumber (x.chars ++ rest) = .done (value.map .float) rest := by
  obtain ⟨value, hvalue⟩ :=
    readAfterWhole_append x ((Nat.toDigits 10 x.whole).foldl Mantissa.pushWhole {})
  refine ⟨value, fun rest hrest => ?_⟩
  have hmagnitude := readMagnitude_append x.negative x.whole (isDigit_head_of_real x rest)
  rw [hvalue rest hrest] at hmagnitude
  unfold Real.chars
  cases hsign : x.negative with
  | true =>
    rw [hsign] at hmagnitude
    simp only [if_true, List.cons_append, List.nil_append, List.append_assoc, readNumber,
      hmagnitude]
  | false =>
    rw [hsign] at hmagnitude
    simp only [Bool.false_eq_true, if_false, List.nil_append, List.append_assoc,
      readNumber_toDigits, hmagnitude]

/-- **A number with a fraction or an exponent is read**, and never as a whole number. -/
theorem Real.readNumber_chars (x : Real) {rest : List Char} (hrest : NumberEnds rest) :
    readNumber (x.chars ++ rest) = .done (x.value.map .float) rest := by
  obtain ⟨value, hvalue⟩ := readNumber_append x
  have hself := hvalue [] .nil
  rw [List.append_nil] at hself
  have heq : x.value = value := by
    unfold Real.value
    rw [hself]
    cases value <;> rfl
  rw [heq, hvalue rest hrest]

theorem startsNumber_chars (x : Real) : StartsNumber x.chars := by
  unfold Real.chars
  split
  · exact ⟨'-', _, rfl, .inl rfl⟩
  · exact startsNumber_toDigits _ _

end FuzzLedger.Json
