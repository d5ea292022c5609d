/-
Instants in universal time, to the nanosecond, and their texts. A second may read sixty: a leap
second is kept as it was written.
-/
import WorkItemQuery.Time.Date

namespace WorkItemQuery.Time

open WorkItemQuery.Number

/-- An instant in universal time. -/
structure Timestamp where
  date : Date
  hour : Fin 24
  minute : Fin 60
  second : Fin 61
  nanos : Fin 1000000000
deriving DecidableEq

namespace Timestamp

/-- The start of a day. -/
def ofDate (d : Date) : Timestamp := ⟨d, 0, 0, 0, 0⟩

/-- The instant that a clock `offset` minutes ahead of universal time shows as `local`. -/
def ofLocal? (here : Timestamp) (offset : Int) : Option Timestamp := do
  let minutes : Int := here.hour.val * 60 + here.minute.val - offset
  let date ←
    if minutes < 0 then here.date.prev?
    else if 1440 ≤ minutes then here.date.next?
    else some here.date
  let inDay := (minutes % 1440).toNat
  some { here with
    date
    hour := Fin.ofNat 24 (inDay / 60)
    minute := Fin.ofNat 60 (inDay % 60) }

/-- The same instant cut down to whole milliseconds. -/
def toMillis (t : Timestamp) : Timestamp :=
  { t with nanos := ⟨t.nanos.val / 1000000 * 1000000, by have := t.nanos.isLt; omega⟩ }

/-- The clock reading `HH:MM:SS`. -/
def clockChars (t : Timestamp) : List Char :=
  padded 2 t.hour.val ++ ':' :: padded 2 t.minute.val ++ ':' :: padded 2 t.second.val

/-- The fraction of the second in the fewest of zero, three, six or nine places that lose nothing. -/
def fractionChars (t : Timestamp) : List Char :=
  let n := t.nanos.val
  if n = 0 then []
  else if n % 1000000 = 0 then '.' :: padded 3 (n / 1000000)
  else if n % 1000 = 0 then '.' :: padded 6 (n / 1000)
  else '.' :: padded 9 n

/-- The fraction of the second in three places; what lies below a millisecond is left out. -/
def millisChars (t : Timestamp) : List Char :=
  '.' :: padded 3 (t.nanos.val / 1000000)

/-- The exact text, as in `2024-06-01T08:05:09.042Z`. -/
def text (t : Timestamp) : String :=
  String.ofList (t.date.chars ++ 'T' :: t.clockChars ++ t.fractionChars ++ ['Z'])

/-- The text inside statements, always with milliseconds. -/
def statementText (t : Timestamp) : String :=
  String.ofList (t.date.chars ++ 'T' :: t.clockChars ++ t.millisChars ++ ['Z'])

/-- The text for people, as in `2024-06-01 08:05:09 UTC`. -/
def displayText (t : Timestamp) : String :=
  String.ofList (t.date.chars ++ ' ' :: t.clockChars ++ t.fractionChars ++ " UTC".toList)

end Timestamp

end WorkItemQuery.Time
