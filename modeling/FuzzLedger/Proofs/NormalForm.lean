import FuzzLedger.Command.Output
import FuzzLedger.Proofs.ReadForm

/-!
# Whatever time is read can be shown

Formatting refuses years, offsets and seconds that have no text (`ZonedTime.format`).  Reading goes
through the same wide ranges, but the numbers of a text do not fill them: four digits end with year
9999, an offset of hours and minutes stays below a day and has no seconds.

* `bounded_of_readFields` — the bounds that reading gives its numbers.
* `ZonedTime.parse?_eq` — so what is read in the wide ranges is a `Timestamp`, the same that
  `Timestamp.parse?` reads.
* `Timestamp.format_zoned` — formatting a timestamp gives its normal form, which by
  `Timestamp.parse?_render` is read as the timestamp again.
* `StoredBatch.time_is_shown` — hence a batch that can be read is shown with its time, and the text
  of the time is a normal form of the stored one.
-/

set_option autoImplicit false

namespace FuzzLedger

/-! ## The numbers in a text -/

theorem digitValue?_lt {c : Char} {d : Nat} (h : digitValue? c = some d) : d < 10 := by
  unfold digitValue? at h
  split at h
  · rename_i hdigit
    have hle : c.toNat ≤ '9'.toNat := hdigit.2
    have hnine : '9'.toNat = 57 := rfl
    cases h
    omega
  · cases h

/-- So many digits make no larger number. -/
theorem lt_of_readDigits : ∀ {width value n : Nat} {text rest : List Char},
    readDigits width value text = some (n, rest) → n < (value + 1) * 10 ^ width
  | 0, value, n, text, rest, h => by
    cases h
    omega
  | width + 1, value, n, [], rest, h => by cases h
  | width + 1, value, n, c :: text, rest, h => by
    simp only [readDigits] at h
    split at h
    · rename_i d hd
      have hlt := digitValue?_lt hd
      calc n < (10 * value + d + 1) * 10 ^ width := lt_of_readDigits h
        _ ≤ ((value + 1) * 10) * 10 ^ width := Nat.mul_le_mul_right _ (by omega)
        _ = (value + 1) * 10 ^ (width + 1) := by rw [Nat.pow_succ', Nat.mul_assoc]
    · cases h

/-- An offset is less than a day. -/
theorem bounded_of_readOffset {text : List Char} {offset : Int}
    (h : readOffset text = some offset) : -1440 < offset ∧ offset < 1440 := by
  unfold readOffset at h
  split at h
  · cases h
    decide
  · cases h
    decide
  · split at h
    · simp only [Option.bind_eq_bind, Option.bind_eq_some_iff] at h
      obtain ⟨⟨hours, rest⟩, -, rest', -, ⟨minutes, rest''⟩, -, h⟩ := h
      split at h
      · rename_i hrange
        obtain ⟨hhours, hminutes, -⟩ := hrange
        cases h
        split <;> omega
      · cases h
    · cases h
  · cases h

/-- What the numbers of a text keep to. -/
structure TimeFields.Bounded (f : TimeFields) : Prop where
  year_le : f.year ≤ 9999
  offset_gt : -1440 < f.offset
  offset_lt : f.offset < 1440

/-- **The numbers of a text are bounded**: the year by its four digits, the offset by its form. -/
theorem bounded_of_readFields {text : List Char} {f : TimeFields} (h : readFields text = some f) :
    f.Bounded := by
  unfold readFields at h
  obtain ⟨⟨year, _⟩, hyear, h⟩ := Option.bind_eq_some_iff.1 h
  -- between the year and the offset nothing else is asked for
  iterate 11 obtain ⟨_, -, h⟩ := Option.bind_eq_some_iff.1 h
  obtain ⟨offset, hoffset, h⟩ := Option.bind_eq_some_iff.1 h
  have hlt : year < (0 + 1) * 10 ^ 4 := lt_of_readDigits hyear
  obtain ⟨hlow, hhigh⟩ := bounded_of_readOffset hoffset
  cases h
  exact ⟨Nat.le_of_lt_succ hlt, hlow, hhigh⟩

/-! ## Reading in the wide ranges -/

theorem ofFields?_zoned {year : Nat} {offset : Int} (hyear : year ≤ 9999) (hlow : -1440 < offset)
    (hhigh : offset < 1440) (month day hour minute second nanosecond : Nat) :
    ZonedTime.ofFields? year month day hour minute second nanosecond (offset * 60) =
      (Timestamp.ofFields? year month day hour minute second nanosecond offset).map
        Timestamp.zoned := by
  by_cases h : InCalendar year month day hour minute second nanosecond offset
  · have hlibrary := Timestamp.inLibrary ⟨_, _, _, _, _, _, _, _, h⟩
    rw [ZonedTime.ofFields?, dif_pos hlibrary, Timestamp.ofFields?, dif_pos h]
    rfl
  · have hnot : ¬InLibrary year month day hour minute second nanosecond (offset * 60) := by
      rintro ⟨-, -, hmonth, hmonth', hday, hday', hhour, hminute, hsecond, hnanosecond, -, -⟩
      exact h ⟨hyear, hmonth, hmonth', hday, by simpa using hday', hhour, hminute, hsecond,
        hnanosecond, hlow, hhigh⟩
    rw [ZonedTime.ofFields?, dif_neg hnot, Timestamp.ofFields?, dif_neg h]
    rfl

/-- The last second of a minute ends a month in the wide ranges exactly if the minute does. -/
theorem endsMonth_zoned (t : Timestamp) (h : t.second = 59) : t.zoned.endsMonth = t.endsMonth := by
  obtain ⟨-, -, -, -, -, hhour, hminute, -, -, hlow, hhigh⟩ := t.inCalendar
  have hlast : ((t.hour * 60 + t.minute) * 60 + t.second - t.offset * 60 : Int) = 86399 ↔
      (t.hour * 60 + t.minute - t.offset : Int) = 1439 := by omega
  have hbefore : ((t.hour * 60 + t.minute) * 60 + t.second - t.offset * 60 : Int) = -1 ↔
      (t.hour * 60 + t.minute - t.offset : Int) = -1 := by omega
  -- with an offset below a day, neither the day after next nor the day before last is reached
  have hafter : ((t.hour * 60 + t.minute) * 60 + t.second - t.offset * 60 : Int) ≠ 172799 := by
    omega
  have hearlier : ((t.hour * 60 + t.minute) * 60 + t.second - t.offset * 60 : Int) ≠ -86401 := by
    omega
  have hyear : ((t.year : Int)).natAbs = t.year := Int.natAbs_natCast _
  simp only [ZonedTime.endsMonth, Timestamp.endsMonth, Timestamp.zoned, hlast, hbefore,
    hafter, hearlier, if_false, hyear]

theorem ofTimeFields?_zoned {f : TimeFields} (h : f.Bounded) :
    ZonedTime.ofTimeFields? f = (Timestamp.ofTimeFields? f).map Timestamp.zoned := by
  obtain ⟨hyear, hlow, hhigh⟩ := h
  simp only [ZonedTime.ofTimeFields?, Timestamp.ofTimeFields?, ofFields?_zoned hyear hlow hhigh]
  split
  · cases hstand : Timestamp.ofFields? f.year f.month f.day f.hour f.minute 59 999999999
        f.offset with
    | none => rfl
    | some stand =>
      have hsecond : stand.second = 59 := by
        unfold Timestamp.ofFields? at hstand
        split at hstand
        · cases hstand
          rfl
        · cases hstand
      simp only [Option.map_some, Option.bind_eq_bind, Option.bind_some, endsMonth_zoned _ hsecond]
      split <;> rfl
  · rfl

/-- **Reading in the wide ranges gives the same timestamps.** -/
theorem ZonedTime.parse?_eq (text : String) :
    parse? text = (Timestamp.parse? text).map Timestamp.zoned := by
  simp only [parse?, Timestamp.parse?, Timestamp.ofChars?]
  cases hfields : readFields text.toList with
  | none => rfl
  | some f => exact ofTimeFields?_zoned (bounded_of_readFields hfields)

/-! ## Formatting -/

namespace Timestamp

theorem toTimestamp_zoned (t : Timestamp) : t.zoned.toTimestamp = .ok t := by
  obtain ⟨hyear, -, -, -, -, -, -, -, -, hlow, hhigh⟩ := t.inCalendar
  have hyear : ¬((t.year : Int) < 0 ∨ 9999 < (t.year : Int)) := by omega
  have hhour : ¬23 < (t.offset * 60).natAbs / 3600 := by omega
  have hsecond : ¬(t.offset * 60).natAbs % 60 ≠ 0 := by omega
  have hoffset : t.offset * 60 / 60 = t.offset := by omega
  simp only [ZonedTime.toTimestamp, zoned, dif_neg hyear, dif_neg hhour, dif_neg hsecond,
    Int.toNat_natCast, hoffset]

/-- **Formatting a timestamp gives its normal form.** -/
theorem format_zoned (t : Timestamp) : t.zoned.format = .ok t.render := by
  rw [ZonedTime.format, t.toTimestamp_zoned]
  rfl

theorem shown_eq (t : Timestamp) : t.shown = t.render := by
  rw [shown, t.format_zoned]

/-- No timestamp is read from the empty text, so none has it for its normal form. -/
theorem render_ne_empty (t : Timestamp) : t.render ≠ "" := by
  intro hempty
  have hread := t.parse?_render
  rw [hempty] at hread
  cases hread

end Timestamp

/-- A batch is written as JSON with the text that formatting gives its time. -/
theorem Batch.serialize_eq (b : Batch) : b.serialize = .ok b.toJson := by
  rw [serialize, b.submittedAt.format_zoned]
  rfl

/-! ## Normal forms -/

/-- The text of the time that a text stands for. -/
def normalForm? (text : String) : Option String := do
  (← ZonedTime.parse? text).format.toOption

theorem normalForm?_eq (text : String) :
    normalForm? text = (Timestamp.parse? text).map Timestamp.render := by
  rw [normalForm?, ZonedTime.parse?_eq]
  cases Timestamp.parse? text with
  | none => rfl
  | some t =>
    show t.zoned.format.toOption = some t.render
    rw [t.format_zoned]
    rfl

theorem StoredBatch.parse?_of_read {b : StoredBatch} {batch : Batch} (h : b.read = .ok batch) :
    ∃ stored : String, b.submittedAt = stored ∧
      Timestamp.parse? stored = some batch.submittedAt := by
  obtain ⟨stored, rfl, htime⟩ := StoredBatch.read_eq_ok_iff.1 h
  exact ⟨stored, rfl, htime⟩

/-- **A batch that can be read is shown with its time.**  Its time is stored as a text.  What is
read from it, in the wide ranges of reading, is not refused by formatting; the text that this gives,
which is not empty, is what is shown and what the JSON of the batch has.  Read again, it gives the
same instant at the same offset, and formatting it once more changes nothing. -/
theorem StoredBatch.time_is_shown {b : StoredBatch} {batch : Batch} (h : b.read = .ok batch) :
    ∃ stored text : String, b.submittedAt = stored ∧ text ≠ "" ∧
      (∃ time, ZonedTime.parse? stored = some time ∧ time.format = .ok text) ∧
      batch.submittedAt.shown = text ∧
      batch.serialize = .ok (batch.jsonAt text) ∧ batch.toJson = batch.jsonAt text ∧
      (∃ again, Timestamp.parse? text = some again ∧
        again.instant = batch.submittedAt.instant ∧ again.offset = batch.submittedAt.offset) ∧
      normalForm? stored = some text ∧ normalForm? text = some text := by
  obtain ⟨stored, hstored, hread⟩ := parse?_of_read h
  refine ⟨stored, batch.submittedAt.render, hstored, batch.submittedAt.render_ne_empty,
    ⟨batch.submittedAt.zoned, ?_, batch.submittedAt.format_zoned⟩, batch.submittedAt.shown_eq,
    batch.serialize_eq, rfl, ⟨_, batch.submittedAt.parse?_render, rfl, rfl⟩, ?_, ?_⟩
  · rw [ZonedTime.parse?_eq, hread]
    rfl
  · rw [normalForm?_eq, hread]
    rfl
  · rw [normalForm?_eq, batch.submittedAt.parse?_render]
    rfl

/-- A batch whose time is a leap second with a fraction, in small letters and at an offset. -/
def leapBatch : StoredBatch := ⟨1, "fuzzer", 1, 1, "2017-01-01t05:29:60.25+05:30"⟩

/-- It is shown as the last nanosecond before. -/
theorem StoredBatch.time_is_shown_leap :
    ∃ batch, leapBatch.read = .ok batch ∧
      batch.submittedAt.shown = "2017-01-01T05:29:59.999999999+05:30" ∧
      normalForm? "2017-01-01t05:29:60.25+05:30" = some "2017-01-01T05:29:59.999999999+05:30" ∧
      normalForm? "2017-01-01T05:29:59.999999999+05:30" =
        some "2017-01-01T05:29:59.999999999+05:30" := by
  obtain ⟨batch, hread, htext⟩ : ∃ batch, leapBatch.read = .ok batch ∧
      batch.submittedAt.shown = "2017-01-01T05:29:59.999999999+05:30" := by
    refine ⟨⟨1, "fuzzer", 1, 1, ⟨2017, 1, 1, 5, 29, 59, 999999999, 330, by decide⟩⟩, ?_, ?_⟩
    · rfl
    · decide +kernel
  obtain ⟨stored, text, hstored, -, -, hshown, -, -, -, hnormal, hagain⟩ := time_is_shown hread
  obtain rfl : "2017-01-01t05:29:60.25+05:30" = stored := TextCell.text.inj hstored
  rw [htext] at hshown
  subst hshown
  exact ⟨batch, hread, htext, hnormal, hagain⟩

end FuzzLedger
