import FuzzLedger.Timestamp.Text
import Mathlib

/-!
# Written times can be read

A batch keeps its submission time as the text of a clock reading (`Stamp.text`).
`Stamp.parse?_text` says that reading this text gives the reading back, so a time that the ledger
wrote itself is never unreadable.  `Timestamp.parse?_render` says the same of the normal form of any
timestamp, with its trimmed fraction and its offset.

The proofs go through the fields in the order in which the reader consults them:
`readDigits_paddedDigits` for the numbers of fixed width, `ofChars?_civilChars` for the date and the
time of day, `readFraction_milliseconds` and `readFraction_fractionChars` for the fraction,
`readOffset_offsetChars` for the offset.
-/

set_option autoImplicit false

namespace FuzzLedger

/-! ## Digits -/

theorem digitValue?_digitChar (n : Nat) : digitValue? (digitChar n) = some (n % 10) := by
  have hall : ∀ d, d < 10 → digitValue? (Char.ofNat (48 + d)) = some d := by decide
  exact hall (n % 10) (Nat.mod_lt _ (by omega))

theorem isSome_of_mem_paddedDigits :
    ∀ {width n : Nat} {c : Char}, c ∈ paddedDigits width n → (digitValue? c).isSome = true
  | 0, _, _, h => by cases h
  | width + 1, n, c, h => by
    rw [paddedDigits, List.mem_append, List.mem_singleton] at h
    rcases h with h | rfl
    · exact isSome_of_mem_paddedDigits h
    · rw [digitValue?_digitChar]; rfl

/-- Reading past a number of fixed width adds its digits to those read before. -/
theorem readDigits_append_paddedDigits (more value : Nat) :
    ∀ (width n : Nat) (rest : List Char),
      readDigits (width + more) value (paddedDigits width n ++ rest) =
        readDigits more (10 ^ width * value + n % 10 ^ width) rest
  | 0, n, rest => by simp [paddedDigits, Nat.mod_one]
  | width + 1, n, rest => by
    have hmore : width + 1 + more = width + (more + 1) := by omega
    have hvalue : 10 * (10 ^ width * value + n / 10 % 10 ^ width) + n % 10 =
        10 ^ (width + 1) * value + n % 10 ^ (width + 1) := by
      rw [Nat.pow_succ', Nat.mod_mul, Nat.mul_add, Nat.mul_assoc]
      omega
    rw [paddedDigits, List.append_assoc, List.singleton_append, hmore,
      readDigits_append_paddedDigits (more + 1) value width]
    simp only [readDigits, digitValue?_digitChar]
    rw [hvalue]

theorem readDigits_paddedDigits {width n : Nat} (h : n < 10 ^ width) (rest : List Char) :
    readDigits width 0 (paddedDigits width n ++ rest) = some (n, rest) := by
  have := readDigits_append_paddedDigits 0 0 width n rest
  simpa [readDigits, Nat.mod_eq_of_lt h] using this

/-- Digits are read up to the first character that is none. -/
theorem spanDigits_append {digits rest : List Char} {c : Char}
    (hdigits : ∀ d ∈ digits, (digitValue? d).isSome = true) (hc : digitValue? c = none) :
    spanDigits (digits ++ c :: rest) = (digits, c :: rest) := by
  rw [spanDigits, List.span_eq_takeWhile_dropWhile, List.takeWhile_append_of_pos hdigits,
    List.dropWhile_append_of_pos hdigits]
  simp [hc]

/-! ## The fields of a timestamp -/

/-- A reader that succeeds hands over to the next one. -/
theorem bind_of_eq_some {α β : Type} {x : Option α} {a : α} (h : x = some a) (f : α → Option β) :
    (x >>= f) = f a := by
  rw [h]
  rfl

theorem readSeparator_T (rest : List Char) : readSeparator ('T' :: rest) = some rest := rfl

theorem readChar_self (c : Char) (rest : List Char) : readChar c (c :: rest) = some rest := by
  simp [readChar]

/-- After the date and the time of day, the fraction and the offset are read. -/
theorem readFields_civilChars (t : Timestamp) (text : List Char) :
    readFields (t.civilChars ++ text) = (do
      let (nanosecond, text) ← readFraction text
      let offset ← readOffset text
      return ⟨t.year, t.month, t.day, t.hour, t.minute, t.second, nanosecond, offset⟩) := by
  obtain ⟨hyear, _, hmonth, _, hday, hhour, hminute, hsecond, _, _, _⟩ := t.inCalendar
  have hdays : daysIn t.year t.month ≤ 31 := by
    unfold daysIn
    split <;> first | omega | (split <;> omega)
  have h4 : t.year < 10 ^ 4 := by omega
  have h2 : ∀ {n : Nat}, n < 60 → n < 10 ^ 2 := by omega
  simp only [readFields, Timestamp.civilChars, List.append_assoc, List.cons_append]
  refine (bind_of_eq_some (readDigits_paddedDigits h4 _) _).trans ?_
  refine (bind_of_eq_some (readChar_self '-' _) _).trans ?_
  refine (bind_of_eq_some (readDigits_paddedDigits (h2 (by omega)) _) _).trans ?_
  refine (bind_of_eq_some (readChar_self '-' _) _).trans ?_
  refine (bind_of_eq_some (readDigits_paddedDigits (h2 (by omega)) _) _).trans ?_
  refine (bind_of_eq_some (readSeparator_T _) _).trans ?_
  refine (bind_of_eq_some (readDigits_paddedDigits (h2 (by omega)) _) _).trans ?_
  refine (bind_of_eq_some (readChar_self ':' _) _).trans ?_
  refine (bind_of_eq_some (readDigits_paddedDigits (h2 hminute) _) _).trans ?_
  refine (bind_of_eq_some (readChar_self ':' _) _).trans ?_
  exact bind_of_eq_some (readDigits_paddedDigits (h2 hsecond) _) _

namespace Timestamp

/-- After the date and the time of day, the fraction and the offset decide. -/
theorem ofChars?_civilChars (t : Timestamp) (text : List Char) :
    ofChars? (t.civilChars ++ text) = (do
      let (nanosecond, text) ← readFraction text
      let offset ← readOffset text
      ofFields? t.year t.month t.day t.hour t.minute t.second nanosecond offset) := by
  have hnot : t.second ≠ 60 := by
    have := t.inCalendar.second_lt
    omega
  rw [ofChars?, readFields_civilChars]
  simp only [ofTimeFields?, bind_assoc, pure_bind, if_neg hnot]

theorem ofFields?_self (t : Timestamp) :
    ofFields? t.year t.month t.day t.hour t.minute t.second t.nanosecond t.offset = some t := by
  rw [ofFields?, dif_pos t.inCalendar]

end Timestamp

/-- Three places of a fraction are milliseconds. -/
theorem readFraction_milliseconds {n : Nat} (h : n < 1000) :
    readFraction ('.' :: paddedDigits 3 n ++ ['Z']) = some (n * 1000000, ['Z']) := by
  have hspan : spanDigits (paddedDigits 3 n ++ ['Z']) = (paddedDigits 3 n, ['Z']) :=
    spanDigits_append (fun _ hd => isSome_of_mem_paddedDigits hd) (by decide)
  have hvalue : fractionValue (paddedDigits 3 n) = n * 1000000 := by
    have hzero : digitValue? '0' = some 0 := by decide
    simp only [fractionValue, paddedDigits, List.nil_append, List.cons_append, List.replicate,
      List.take, List.foldl, digitValue?_digitChar, hzero, Option.getD_some]
    omega
  have hcons : paddedDigits 3 n = digitChar (n / 10 / 10) :: [digitChar (n / 10), digitChar n] :=
    rfl
  rw [hcons] at hspan hvalue
  simp only [hcons, List.cons_append, List.nil_append, readFraction] at hspan ⊢
  rw [hspan]
  simp only [hvalue]

/-- **What the clock gave is read back from its stored text.** -/
theorem Stamp.parse?_text (now : Stamp) : Timestamp.parse? now.text = some now.time := by
  have hlt := now.time.inCalendar.nanosecond_lt
  have hwhole := now.whole
  have hnano : now.time.nanosecond / 1000000 * 1000000 = now.time.nanosecond := by omega
  have hfields := now.time.ofFields?_self
  rw [now.utc] at hfields
  rw [Timestamp.parse?, Stamp.text, String.toList_ofList, List.append_assoc,
    Timestamp.ofChars?_civilChars, readFraction_milliseconds (by omega)]
  refine (bind_of_eq_some rfl _).trans ?_
  rw [hnano]
  exact hfields

/-! ## The normal form -/

/-- The decimal digits of a number add up to it. -/
theorem foldl_paddedDigits (value : Nat) : ∀ width n : Nat,
    (paddedDigits width n).foldl (fun n c => 10 * n + (digitValue? c).getD 0) value =
      10 ^ width * value + n % 10 ^ width
  | 0, n => by simp [paddedDigits, Nat.mod_one]
  | width + 1, n => by
    rw [paddedDigits, List.foldl_append, foldl_paddedDigits value width, List.foldl_cons,
      List.foldl_nil, digitValue?_digitChar, Option.getD_some, Nat.pow_succ', Nat.mod_mul,
      Nat.mul_add, Nat.mul_assoc]
    omega

theorem length_paddedDigits : ∀ width n : Nat, (paddedDigits width n).length = width
  | 0, _ => rfl
  | width + 1, n => by
    rw [paddedDigits, List.length_append, length_paddedDigits width, List.length_singleton]

/-- A text is what stays when its trailing zeros are left out, and those zeros. -/
theorem eq_append_zeros (text : List Char) :
    ∃ k, text = (text.reverse.dropWhile (· = '0')).reverse ++ List.replicate k '0' := by
  have hsplit := List.takeWhile_append_dropWhile (p := (· = '0')) (l := text.reverse)
  have hzeros : text.reverse.takeWhile (· = '0') =
      List.replicate (text.reverse.takeWhile (· = '0')).length '0' :=
    List.eq_replicate_iff.2 ⟨rfl, fun c hc => by simpa using List.mem_takeWhile_imp hc⟩
  refine ⟨(text.reverse.takeWhile (· = '0')).length, ?_⟩
  rw [← List.reverse_replicate, ← hzeros, ← List.reverse_append, hsplit, List.reverse_reverse]

namespace Timestamp

theorem offsetChars_eq_cons (offset : Int) :
    ∃ c rest, offsetChars offset = c :: rest ∧ digitValue? c = none ∧ c ≠ '.' := by
  unfold offsetChars
  split
  · exact ⟨'Z', [], rfl, by decide, by decide⟩
  · split
    · exact ⟨'-', _, rfl, by decide, by decide⟩
    · exact ⟨'+', _, rfl, by decide, by decide⟩

/-- The fraction is read back, however many places it has. -/
theorem readFraction_fractionChars {n : Nat} (h : n < 1000000000) (offset : Int) :
    readFraction (fractionChars n ++ offsetChars offset) = some (n, offsetChars offset) := by
  obtain ⟨c, rest, hoffset, hc, hdot⟩ := offsetChars_eq_cons offset
  rw [hoffset]
  unfold fractionChars
  split
  · rename_i hzero
    rw [List.nil_append, readFraction, hzero]
    rintro rest ⟨⟩
    exact hdot rfl
  · rename_i hzero
    obtain ⟨k, hdigits⟩ := eq_append_zeros (paddedDigits 9 n)
    generalize (List.dropWhile (· = '0') (paddedDigits 9 n).reverse).reverse = kept at hdigits
    have hlength := length_paddedDigits 9 n
    have hvalue := foldl_paddedDigits 0 9 n
    rw [hdigits, List.length_append, List.length_replicate] at hlength
    have hfraction : fractionValue kept = n := by
      have htake : (kept ++ List.replicate 9 '0').take 9 = paddedDigits 9 n := by
        rw [hdigits, List.take_append, List.take_of_length_le (by omega), List.take_replicate,
          Nat.min_eq_left (by omega), show 9 - kept.length = k by omega]
      rw [fractionValue, htake, hvalue]
      omega
    have hkept : ∀ d ∈ kept, (digitValue? d).isSome = true := fun d hd =>
      isSome_of_mem_paddedDigits (hdigits ▸ List.mem_append_left _ hd)
    have hspan : spanDigits (kept ++ c :: rest) = (kept, c :: rest) := spanDigits_append hkept hc
    rw [List.cons_append, readFraction, hspan]
    cases kept with
    | nil => exact absurd hfraction.symm hzero
    | cons d ds => simp only [hfraction]

theorem readOffset_signed {sign : Char} (hsign : sign = '+' ∨ sign = '-') {hours minutes : Nat}
    (hhours : hours ≤ 23) (hminutes : minutes ≤ 59) :
    readOffset (sign :: paddedDigits 2 hours ++ ':' :: paddedDigits 2 minutes) =
      some (if sign = '-' then -((hours : Int) * 60 + minutes) else (hours : Int) * 60 + minutes) := by
  have hread := readDigits_paddedDigits (show minutes < 10 ^ 2 by omega) []
  rw [List.append_nil] at hread
  have hrange : hours ≤ 23 ∧ minutes ≤ 59 ∧ ([] : List Char) = [] := ⟨hhours, hminutes, rfl⟩
  rw [List.cons_append, readOffset, if_pos hsign]
  · refine (bind_of_eq_some (readDigits_paddedDigits (show hours < 10 ^ 2 by omega) _) _).trans ?_
    refine (bind_of_eq_some (readChar_self ':' _) _).trans ?_
    refine (bind_of_eq_some hread _).trans ?_
    exact if_pos hrange
  · rintro rfl
    exact absurd hsign (by decide)
  · rintro rfl
    exact absurd hsign (by decide)

/-- The offset is read back. -/
theorem readOffset_offsetChars {offset : Int} (hlow : -1440 < offset) (hhigh : offset < 1440) :
    readOffset (offsetChars offset) = some offset := by
  have hhours : offset.natAbs / 60 ≤ 23 := by omega
  have hminutes : offset.natAbs % 60 ≤ 59 := by omega
  have habs : ((offset.natAbs / 60 : Nat) : Int) * 60 + (offset.natAbs % 60 : Nat) =
      offset.natAbs := by omega
  unfold offsetChars
  split
  · rename_i hzero
    rw [hzero]
    rfl
  split
  · rename_i hneg
    rw [readOffset_signed (.inr rfl) hhours hminutes, if_pos rfl, habs]
    congr 1
    omega
  · rename_i hpos
    rw [readOffset_signed (.inl rfl) hhours hminutes, if_neg (by decide), habs]
    congr 1
    omega

/-- **Every timestamp is read back from its normal form.** -/
theorem parse?_render (t : Timestamp) : parse? t.render = some t := by
  obtain ⟨_, _, _, _, _, _, _, _, hnano, hlow, hhigh⟩ := t.inCalendar
  rw [parse?, render, String.toList_ofList, toChars, List.append_assoc, ofChars?_civilChars]
  refine (bind_of_eq_some (readFraction_fractionChars hnano t.offset) _).trans ?_
  refine (bind_of_eq_some (readOffset_offsetChars hlow hhigh) _).trans ?_
  exact t.ofFields?_self

end Timestamp
end FuzzLedger
