import Mathlib.Data.List.Lex
import WorkflowEngine.Spec.Store

/-! Timestamps as they are stored: the texts of `_now()` in `TEXT` columns, and the queries that
compare them as texts. -/

namespace WorkflowEngine

/-- The days from the epoch to a date; the years are counted from March. -/
def daysFromCivil (year month day : ℤ) : ℤ :=
  let y := if month ≤ 2 then year - 1 else year
  let dayOfYear := (153 * (if 2 < month then month - 3 else month + 9) + 2) / 5 + day - 1
  365 * y + y / 4 - y / 100 + y / 400 + dayOfYear - 719468

example : daysFromCivil 2000 3 1 = 11017 := by decide +kernel

def isLeap (year : ℕ) : Prop := year % 4 = 0 ∧ (year % 100 ≠ 0 ∨ year % 400 = 0)

instance : DecidablePred isLeap := fun _ => inferInstanceAs (Decidable (_ ∧ _))

def daysInMonth (year month : ℕ) : ℕ :=
  if month = 2 then if isLeap year then 29 else 28
  else if month = 4 ∨ month = 6 ∨ month = 9 ∨ month = 11 then 30 else 31

/-- A `datetime` in UTC. -/
structure DateTime where
  year : ℕ
  month : ℕ
  day : ℕ
  hour : ℕ
  minute : ℕ
  second : ℕ
  microsecond : ℕ
  year_range : 1 ≤ year ∧ year ≤ 9999
  month_range : 1 ≤ month ∧ month ≤ 12
  day_range : 1 ≤ day ∧ day ≤ daysInMonth year month
  hour_lt : hour < 24
  minute_lt : minute < 60
  second_lt : second < 60
  microsecond_lt : microsecond < 1000000

/-- `"%0*d" % (width, n)` -/
def zeroPadded (width n : ℕ) : String :=
  let digits := (toString n).toList
  String.ofList (List.replicate (width - digits.length) '0' ++ digits)

namespace DateTime

def isoformat (d : DateTime) : String :=
  zeroPadded 4 d.year ++ "-" ++ zeroPadded 2 d.month ++ "-" ++ zeroPadded 2 d.day ++ "T" ++
    zeroPadded 2 d.hour ++ ":" ++ zeroPadded 2 d.minute ++ ":" ++ zeroPadded 2 d.second ++
    (if d.microsecond = 0 then "" else "." ++ zeroPadded 6 d.microsecond) ++ "+00:00"

def instant (d : DateTime) : Time :=
  seconds (24 * 60 * 60 * daysFromCivil d.year d.month d.day +
    60 * 60 * d.hour + 60 * d.minute + d.second) + d.microsecond

end DateTime

/-- What the column of a time holds. -/
def StoredAs (t : Time) (text : String) : Prop := ∃ d : DateTime, d.instant = t ∧ d.isoformat = text

/-- The bytes that SQLite compares: those of UTF-8. -/
def collated (text : String) : List ℕ := (text.toList.flatMap String.utf8EncodeChar).map UInt8.toNat

/-- A row of `core_outbox` with the texts of its times. -/
structure OutboxRow where
  record : OutboxRecord
  availableAt : String
  leaseUntil : Option String
  createdAt : String
  available_stored : StoredAs record.availableAt availableAt
  lease_stored : Option.Rel StoredAs record.leaseUntil leaseUntil
  created_stored : StoredAs record.createdAt createdAt

namespace OutboxRow

/-- The `WHERE` clause of `claim_outbox`, on the texts. -/
def due (now : String) (row : OutboxRow) : Bool :=
  decide (collated row.availableAt ≤ collated now) &&
    (decide (row.record.status = .pending) || decide (row.record.status = .failed) ||
      (decide (row.record.status = .leased) &&
        row.leaseUntil.any fun text => collated text < collated now))

/-- The rows that `claim_outbox` selects. -/
def select (rows : List OutboxRow) (now : String) (limit : ℤ) : List String :=
  let sorted := (rows.filter (due now)).insertionSort fun a b =>
    collated a.createdAt ≤ collated b.createdAt
  (if limit < 0 then sorted else sorted.take limit.toNat).map fun row => row.record.outboxId

end OutboxRow

end WorkflowEngine
