import Mathlib.Data.Int.ConditionallyCompleteOrder
import Mathlib.Data.List.Sort
import Mathlib.Order.Monotone.Basic
import Mathlib.Tactic.IntervalCases
import Mathlib.Tactic.Ring
import WorkflowEngine.FixedWidth.Numeral
import WorkflowEngine.Spec.Timestamps

/-! The texts of `isoformat` are in the order of the instants. -/

namespace WorkflowEngine

open FixedWidth

/-- The first day of a month, the months counted from year 0. -/
def monthStart (k : ℕ) : ℤ := daysFromCivil (k / 12 : ℕ) (k % 12 + 1 : ℕ) 1

theorem leap_days (year : ℕ) : (year / 4 - year / 100 + year / 400 : ℤ) =
    (year - 1) / 4 - (year - 1) / 100 + (year - 1) / 400 + if isLeap year then 1 else 0 := by
  by_cases h : isLeap year
  · rw [if_pos h]
    unfold isLeap at h
    omega
  · rw [if_neg h]
    unfold isLeap at h
    omega

theorem daysInMonth_february (year : ℕ) :
    (daysInMonth year 2 : ℤ) = 28 + if isLeap year then 1 else 0 := by
  by_cases h : isLeap year <;> simp [daysInMonth, h]

theorem monthStart_succ (k : ℕ) :
    monthStart (k + 1) = monthStart k + daysInMonth (k / 12) (k % 12 + 1) := by
  obtain ⟨year, month, hmonth, rfl⟩ : ∃ year month, month < 12 ∧ k = 12 * year + month :=
    ⟨k / 12, k % 12, Nat.mod_lt _ (by decide), (Nat.div_add_mod k 12).symm⟩
  have hyear : (12 * year + month) / 12 = year := by omega
  have hrest : (12 * year + month) % 12 = month := by omega
  rw [monthStart, monthStart, hyear, hrest]
  by_cases hlast : month = 11
  · have hyear' : (12 * year + month + 1) / 12 = year + 1 := by omega
    have hrest' : (12 * year + month + 1) % 12 = 0 := by omega
    rw [hyear', hrest']
    subst hlast
    simp [daysFromCivil, daysInMonth]
    omega
  · have hyear' : (12 * year + month + 1) / 12 = year := by omega
    have hrest' : (12 * year + month + 1) % 12 = month + 1 := by omega
    rw [hyear', hrest']
    by_cases hfebruary : month = 1
    · have hleap := leap_days year
      subst hfebruary
      rw [daysInMonth_february]
      generalize (if isLeap year then (1 : ℤ) else 0) = leap at hleap ⊢
      simp only [daysFromCivil]
      simp
      omega
    · interval_cases month <;> simp [daysFromCivil, daysInMonth] at hfebruary hlast ⊢ <;> omega

theorem daysInMonth_pos (year month : ℕ) : 0 < daysInMonth year month := by
  unfold daysInMonth
  repeat' split
  all_goals decide

theorem daysInMonth_le (year month : ℕ) : daysInMonth year month ≤ 31 := by
  unfold daysInMonth
  repeat' split
  all_goals decide

theorem monthStart_strictMono : StrictMono monthStart := by
  apply strictMono_nat_of_lt_succ
  intro k
  have hpos := daysInMonth_pos (k / 12) (k % 12 + 1)
  rw [monthStart_succ]
  omega

theorem daysFromCivil_eq {year month : ℕ} (day : ℕ) (h : 1 ≤ month ∧ month ≤ 12) :
    daysFromCivil year month day = monthStart (12 * year + (month - 1)) + day - 1 := by
  have hyear : (12 * year + (month - 1)) / 12 = year := by omega
  have hmonth : (12 * year + (month - 1)) % 12 + 1 = month := by omega
  rw [monthStart, hyear, hmonth]
  simp only [daysFromCivil]
  omega

namespace DateTime

variable (a b : DateTime)

/-- A day of an earlier month is before the days of a later one. -/
theorem days_lt_of_month_lt (h : 12 * a.year + (a.month - 1) < 12 * b.year + (b.month - 1)) :
    daysFromCivil a.year a.month a.day < daysFromCivil b.year b.month b.day := by
  have ha := a.month_range
  have hyear : (12 * a.year + (a.month - 1)) / 12 = a.year := by omega
  have hmonth : (12 * a.year + (a.month - 1)) % 12 + 1 = a.month := by omega
  have hnext := monthStart_succ (12 * a.year + (a.month - 1))
  rw [hyear, hmonth] at hnext
  have hle := monthStart_strictMono.monotone (Nat.succ_le_of_lt h)
  have hday := a.day_range
  have hday' := b.day_range
  rw [daysFromCivil_eq _ ha, daysFromCivil_eq _ b.month_range]
  simp only [Nat.succ_eq_add_one] at hle
  omega

theorem days_lt_iff : daysFromCivil a.year a.month a.day < daysFromCivil b.year b.month b.day ↔
    a.year < b.year ∨ a.year = b.year ∧
      (a.month < b.month ∨ a.month = b.month ∧ a.day < b.day) := by
  have ha := a.month_range
  have hb := b.month_range
  rcases lt_trichotomy (12 * a.year + (a.month - 1)) (12 * b.year + (b.month - 1)) with h | h | h
  · have hlt := days_lt_of_month_lt a b h
    exact iff_of_true hlt (by omega)
  · have hyear : a.year = b.year := by omega
    have hmonth : a.month = b.month := by omega
    rw [daysFromCivil_eq _ ha, daysFromCivil_eq _ hb, h]
    omega
  · have hlt := days_lt_of_month_lt b a h
    exact iff_of_false hlt.not_gt (by omega)

theorem days_eq_iff : daysFromCivil a.year a.month a.day = daysFromCivil b.year b.month b.day ↔
    a.year = b.year ∧ a.month = b.month ∧ a.day = b.day := by
  have hlt := days_lt_iff a b
  have hgt := days_lt_iff b a
  omega

theorem instant_eq : a.instant = (1000000 * (60 * (60 * (24 *
    daysFromCivil a.year a.month a.day + a.hour) + a.minute) + a.second) + a.microsecond : ℤ) := by
  rw [instant, seconds]
  ring

/-- A lexicographic comparison associates. -/
theorem lex_assoc {p q r s t : Prop} :
    (p ∨ q ∧ r) ∨ (q ∧ s) ∧ t ↔ p ∨ q ∧ (r ∨ s ∧ t) := by
  tauto

theorem instant_lt_iff : a.instant < b.instant ↔
    daysFromCivil a.year a.month a.day < daysFromCivil b.year b.month b.day ∨
    daysFromCivil a.year a.month a.day = daysFromCivil b.year b.month b.day ∧
      (a.hour < b.hour ∨ a.hour = b.hour ∧ (a.minute < b.minute ∨ a.minute = b.minute ∧
        (a.second < b.second ∨ a.second = b.second ∧ a.microsecond < b.microsecond))) := by
  have ha := And.intro a.hour_lt (And.intro a.minute_lt (And.intro a.second_lt a.microsecond_lt))
  have hb := And.intro b.hour_lt (And.intro b.minute_lt (And.intro b.second_lt b.microsecond_lt))
  rw [instant_eq, instant_eq, field_lt_iff (by omega) (by omega),
    field_lt_iff (by omega) (by omega),
    field_lt_iff (by omega) (by omega), field_lt_iff (by omega) (by omega),
    field_eq_iff (by omega) (by omega), field_eq_iff (by omega) (by omega),
    field_eq_iff (by omega) (by omega), field_eq_iff (by omega) (by omega),
    field_eq_iff (by omega) (by omega), field_eq_iff (by omega) (by omega)]
  simp only [Nat.cast_lt, Nat.cast_inj]
  rw [lex_assoc, lex_assoc, lex_assoc]

theorem instant_inj (h : a.instant = b.instant) : a = b := by
  have ha := And.intro a.hour_lt (And.intro a.minute_lt (And.intro a.second_lt a.microsecond_lt))
  have hb := And.intro b.hour_lt (And.intro b.minute_lt (And.intro b.second_lt b.microsecond_lt))
  rw [instant_eq, instant_eq, field_eq_iff (by omega) (by omega),
    field_eq_iff (by omega) (by omega),
    field_eq_iff (by omega) (by omega), field_eq_iff (by omega) (by omega), days_eq_iff] at h
  cases a
  cases b
  simp only [DateTime.mk.injEq, Nat.cast_inj] at h ⊢
  tauto

end DateTime

theorem collated_append (s t : String) : collated (s ++ t) = collated s ++ collated t := by
  simp [collated]

/-- The digit in ASCII. -/
def digitByte (d : ℕ) : ℕ := 48 + d

theorem digitByte_strictMonoOn : StrictMonoOn digitByte (Set.Iio 10) :=
  fun _ _ _ _ h => Nat.add_lt_add_left h 48

theorem collated_zeroPadded {width n : ℕ} (h : n < 10 ^ (width + 1)) :
    collated (zeroPadded (width + 1) n) = numeral 10 digitByte (width + 1) n := by
  have hdigit : ∀ d < 10, (String.utf8EncodeChar (Nat.digitChar d)).map UInt8.toNat =
      [digitByte d] := by decide
  rw [collated, zeroPadded, String.toList_ofList, Nat.toString_eq_repr, Nat.toList_repr,
    replicate_append_toDigits h, List.map_flatMap]
  exact flatMap_numeral (fun c => (String.utf8EncodeChar c).map UInt8.toNat) (by decide) hdigit _ _

namespace DateTime

variable (a b : DateTime)

/-- The bytes after the seconds. -/
def tail (microsecond : ℕ) : List ℕ :=
  (if microsecond = 0 then [] else 46 :: numeral 10 digitByte 6 microsecond) ++
    [43, 48, 48, 58, 48, 48]

/-- The offset sign is before the decimal point. -/
theorem tail_lt_iff {m n : ℕ} (hm : m < 1000000) (hn : n < 1000000) :
    tail m < tail n ↔ m < n := by
  unfold tail
  by_cases hm0 : m = 0 <;> by_cases hn0 : n = 0
  · simp [hm0, hn0]
  · rw [if_pos hm0, if_neg hn0]
    exact iff_of_true (List.cons_lt_cons_iff.2 (.inl (by decide))) (by omega)
  · rw [if_neg hm0, if_pos hn0]
    refine iff_of_false (fun h => ?_) (by omega)
    rcases List.cons_lt_cons_iff.1 h with h | ⟨h, -⟩ <;> omega
  · rw [if_neg hm0, if_neg hn0, List.cons_append, List.cons_append, List.cons_lt_cons_iff,
      numeral_append_lt_iff (by decide) digitByte_strictMonoOn hm hn]
    simp

theorem collated_isoformat (d : DateTime) : collated d.isoformat =
    numeral 10 digitByte 4 d.year ++ 45 :: (numeral 10 digitByte 2 d.month ++
      45 :: (numeral 10 digitByte 2 d.day ++ 84 :: (numeral 10 digitByte 2 d.hour ++
        58 :: (numeral 10 digitByte 2 d.minute ++ 58 :: (numeral 10 digitByte 2 d.second ++
          tail d.microsecond))))) := by
  have hmonth := d.month_range
  have hdays : daysInMonth d.year d.month ≤ 31 := daysInMonth_le _ _
  have hday := d.day_range
  have hyear := d.year_range
  have hhour := d.hour_lt
  have hminute := d.minute_lt
  have hsecond := d.second_lt
  have htail : collated (if d.microsecond = 0 then "" else "." ++ zeroPadded 6 d.microsecond) =
      if d.microsecond = 0 then [] else 46 :: numeral 10 digitByte 6 d.microsecond := by
    split
    · decide
    · rw [collated_append, collated_zeroPadded d.microsecond_lt]
      rfl
  have hdash : collated "-" = [45] := by decide
  have hcolon : collated ":" = [58] := by decide
  have hT : collated "T" = [84] := by decide
  have hoffset : collated "+00:00" = [43, 48, 48, 58, 48, 48] := by decide
  simp only [isoformat, collated_append, htail, hdash, hcolon, hT, hoffset]
  rw [collated_zeroPadded (by omega), collated_zeroPadded (by omega),
    collated_zeroPadded (by omega),
    collated_zeroPadded (by omega), collated_zeroPadded (by omega), collated_zeroPadded (by omega)]
  simp [tail]

theorem isoformat_lt_iff : collated a.isoformat < collated b.isoformat ↔ a.instant < b.instant := by
  have hten : 0 < 10 := by decide
  have hyear := And.intro a.year_range b.year_range
  have hmonth := And.intro a.month_range b.month_range
  have hday := And.intro a.day_range b.day_range
  have hdays := And.intro (daysInMonth_le a.year a.month) (daysInMonth_le b.year b.month)
  have hhour := And.intro a.hour_lt b.hour_lt
  have hminute := And.intro a.minute_lt b.minute_lt
  have hsecond := And.intro a.second_lt b.second_lt
  have hd := digitByte_strictMonoOn
  rw [instant_lt_iff, days_lt_iff, days_eq_iff, collated_isoformat, collated_isoformat,
    numeral_append_lt_iff hten hd (by omega) (by omega), List.cons_lt_cons_self,
    numeral_append_lt_iff hten hd (by omega) (by omega), List.cons_lt_cons_self,
    numeral_append_lt_iff hten hd (by omega) (by omega), List.cons_lt_cons_self,
    numeral_append_lt_iff hten hd (by omega) (by omega), List.cons_lt_cons_self,
    numeral_append_lt_iff hten hd (by omega) (by omega), List.cons_lt_cons_self,
    numeral_append_lt_iff hten hd (by omega) (by omega),
    tail_lt_iff a.microsecond_lt b.microsecond_lt]
  simp only [lex_assoc]

end DateTime

theorem StoredAs.lt_iff {t t' : Time} {text text' : String} (h : StoredAs t text)
    (h' : StoredAs t' text') : collated text < collated text' ↔ t < t' := by
  obtain ⟨a, rfl, rfl⟩ := h
  obtain ⟨b, rfl, rfl⟩ := h'
  exact a.isoformat_lt_iff b

theorem StoredAs.le_iff {t t' : Time} {text text' : String} (h : StoredAs t text)
    (h' : StoredAs t' text') : collated text ≤ collated text' ↔ t ≤ t' := by
  rw [← not_lt, ← not_lt, h'.lt_iff h]

namespace OutboxRow

theorem due_eq {t : Time} {now : String} (hnow : StoredAs t now) (row : OutboxRow) :
    row.due now = Db.due t row.record := by
  have hlease : row.leaseUntil.any (fun text => collated text < collated now) =
      row.record.leaseUntil.any (· < t) := by
    generalize row.record.leaseUntil = lease, row.leaseUntil = text, row.lease_stored = h
    cases h with
    | none => rfl
    | some h => exact decide_eq_decide.2 (h.lt_iff hnow)
  have havailable : decide (collated row.availableAt ≤ collated now) =
      decide (row.record.availableAt ≤ t) :=
    decide_eq_decide.2 (row.available_stored.le_iff hnow)
  rw [due, Db.due, hlease, havailable]

/-- What is selected by the texts is what is selected by the times. -/
theorem select_eq {t : Time} {now : String} (hnow : StoredAs t now) (rows : List OutboxRow)
    (limit : ℤ) : select rows now limit =
      (Db.oldest OutboxRecord.createdAt limit ((rows.map record).filter (Db.due t))).map
        OutboxRecord.outboxId := by
  have hfilter : (rows.map record).filter (Db.due t) = (rows.filter (due now)).map record := by
    rw [List.filter_map]
    congr 2
    funext row
    exact (due_eq hnow row).symm
  have hsorted := List.map_insertionSort
    (fun a b : OutboxRow => collated a.createdAt ≤ collated b.createdAt)
    (fun a b : OutboxRecord => a.createdAt ≤ b.createdAt) record (rows.filter (due now))
    fun a _ b _ => a.created_stored.le_iff b.created_stored
  rw [select, Db.oldest, hfilter, ← hsorted]
  split
  · rw [List.map_map]; rfl
  · rw [← List.map_take, List.map_map]; rfl

end OutboxRow

theorem isoformat_chronological :
    (∀ a b : DateTime, (collated a.isoformat < collated b.isoformat ↔ a.instant < b.instant) ∧
      (a.isoformat = b.isoformat ↔ a.instant = b.instant)) ∧
    (∀ (db : Db) (rows : List OutboxRow) (now : DateTime) (limit : ℤ),
      rows.map OutboxRow.record = db.outbox.rows →
        OutboxRow.select rows now.isoformat limit = db.dueIds now.instant limit) ∧
    ∀ {α : Type} (rows : List α) (text : α → String) (time : α → Time),
      (∀ row ∈ rows, StoredAs (time row) (text row)) →
      rows.insertionSort (fun a b => collated (text a) ≤ collated (text b)) =
          rows.insertionSort (fun a b => time a ≤ time b) ∧
        rows.insertionSort (fun a b => collated (text b) ≤ collated (text a)) =
          rows.insertionSort (fun a b => time b ≤ time a) := by
  refine ⟨fun a b => ⟨a.isoformat_lt_iff b, ?_, ?_⟩, ?_, ?_⟩
  · intro h
    have hab := a.isoformat_lt_iff b
    have hba := b.isoformat_lt_iff a
    rw [h] at hab hba
    exact le_antisymm (not_lt.1 fun hlt => lt_irrefl _ (hba.2 hlt))
      (not_lt.1 fun hlt => lt_irrefl _ (hab.2 hlt))
  · exact fun h => congrArg _ (a.instant_inj b h)
  · intro db rows now limit hrows
    rw [OutboxRow.select_eq ⟨now, rfl, rfl⟩, hrows]
    rfl
  · intro α rows text time h
    have hsort := List.map_insertionSort (fun a b => collated (text a) ≤ collated (text b))
      (fun a b => time a ≤ time b) id rows fun a ha b hb => (h a ha).le_iff (h b hb)
    have hsort' := List.map_insertionSort (fun a b => collated (text b) ≤ collated (text a))
      (fun a b => time b ≤ time a) id rows fun a ha b hb => (h b hb).le_iff (h a ha)
    rw [List.map_id, List.map_id] at hsort hsort'
    exact ⟨hsort, hsort'⟩

/-- Midnight on a leap day, and the given microsecond after it. -/
def leapDay (microsecond : Fin 1000000) : DateTime where
  year := 2024
  month := 2
  day := 29
  hour := 0
  minute := 0
  second := 0
  microsecond := microsecond
  year_range := by decide
  month_range := by decide
  day_range := by decide
  hour_lt := by decide
  minute_lt := by decide
  second_lt := by decide
  microsecond_lt := microsecond.2

/-- A record that is put into the outbox on the leap day. -/
def leapDayRow : OutboxRow where
  record := ⟨"OUT-1", "topic", "case", [], .pending, 0, (leapDay 0).instant, none, none, none,
    (leapDay 0).instant, (leapDay 0).instant⟩
  availableAt := (leapDay 0).isoformat
  leaseUntil := none
  createdAt := (leapDay 0).isoformat
  available_stored := ⟨leapDay 0, rfl, rfl⟩
  lease_stored := .none
  created_stored := ⟨leapDay 0, rfl, rfl⟩

theorem isoformat_chronological_leapDay :
    collated "2024-02-29T00:00:00+00:00" < collated "2024-02-29T00:00:00.000001+00:00" ∧
    OutboxRow.select [leapDayRow] "2024-02-29T00:00:00.000001+00:00" 10 = ["OUT-1"] := by
  have h := isoformat_chronological
  have htext : (leapDay 0).isoformat = "2024-02-29T00:00:00+00:00" := by decide +kernel
  have htext' : (leapDay 1).isoformat = "2024-02-29T00:00:00.000001+00:00" := by decide +kernel
  rw [← htext, ← htext']
  refine ⟨(h.1 (leapDay 0) (leapDay 1)).1.2 (by decide +kernel), ?_⟩
  have hselect := h.2.1 { Db.empty with outbox := ⟨[leapDayRow.record], fun _ => by simp⟩ }
    [leapDayRow] (leapDay 1) 10 rfl
  exact hselect.trans (by decide +kernel)

end WorkflowEngine
