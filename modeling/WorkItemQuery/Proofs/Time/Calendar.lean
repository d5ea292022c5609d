/-
Days of the calendar by number, and clocks away from universal time. Days are numbered without gaps in the order of the
calendar, one year after the other and one month after the other, so the day after has the next number and the day
before has the one before. What a clock shows is the instant moved by the offset of the clock; reading it undoes just
that, across days, months and years.
-/
import Mathlib.Algebra.BigOperators.Intervals
import Mathlib.Algebra.Order.BigOperators.Group.Finset
import WorkItemQuery.Proofs.Time.Rfc3339

namespace WorkItemQuery.Time

open WorkItemQuery.Number

/-! ## Days by number -/

/-- The days before a year, counted from the first day of year one. -/
def daysBeforeYear (year : Int) : Int := 365 * (year - 1) + (year - 1) / 4 - (year - 1) / 100 + (year - 1) / 400

/-- The days of a year before a month. -/
def daysBeforeMonth (year : Int) (month : Nat) : Nat := ∑ m ∈ Finset.Ico 1 month, daysIn year m

/-- The number of a day; the first day of year one has the number one. -/
def Date.number (d : Date) : Int := daysBeforeYear d.year + daysBeforeMonth d.year d.month + d.day

theorem daysBeforeMonth_one (year : Int) : daysBeforeMonth year 1 = 0 := by simp [daysBeforeMonth]

theorem daysBeforeMonth_succ (year : Int) {month : Nat} (h : 1 ≤ month) :
    daysBeforeMonth year (month + 1) = daysBeforeMonth year month + daysIn year month :=
  Finset.sum_Ico_succ_top h (daysIn year)

theorem daysBeforeMonth_mono (year : Int) {m n : Nat} (h : m ≤ n) : daysBeforeMonth year m ≤ daysBeforeMonth year n :=
  Finset.sum_le_sum_of_subset (Finset.Ico_subset_Ico_right h)

theorem daysBeforeMonth_thirteen (year : Int) : daysBeforeMonth year 13 = if isLeapYear year then 366 else 365 := by
  simp only [daysBeforeMonth, Finset.sum_Ico_succ_top, Nat.reduceLeDiff, Finset.Ico_self, Finset.sum_empty, daysIn]
  split <;> rfl

theorem isLeapYear_iff (year : Int) : isLeapYear year = true ↔ year % 4 = 0 ∧ (year % 100 ≠ 0 ∨ year % 400 = 0) := by
  simp [isLeapYear]

/-- A year is as long as its months. -/
theorem daysBeforeYear_succ (year : Int) :
    daysBeforeYear (year + 1) = daysBeforeYear year + daysBeforeMonth year 13 := by
  rw [daysBeforeMonth_thirteen]
  by_cases h : isLeapYear year = true
  · rw [if_pos h]
    rw [isLeapYear_iff] at h
    unfold daysBeforeYear
    omega
  · rw [if_neg h]
    rw [isLeapYear_iff] at h
    unfold daysBeforeYear
    omega

theorem daysBeforeYear_mono {y z : Int} (h : y ≤ z) : daysBeforeYear y ≤ daysBeforeYear z := by
  unfold daysBeforeYear
  omega

namespace Date

variable {d e : Date}

/-- A day is within its month. -/
theorem number_in_month (d : Date) : daysBeforeYear d.year + daysBeforeMonth d.year d.month < d.number ∧
    d.number ≤ daysBeforeYear d.year + daysBeforeMonth d.year (d.month + 1) := by
  obtain ⟨-, ⟨hmonth, -⟩, hday, hlast⟩ := d.valid
  rw [daysBeforeMonth_succ d.year hmonth, number]
  omega

/-- A day is within its year. -/
theorem number_in_year (d : Date) : daysBeforeYear d.year < d.number ∧ d.number ≤ daysBeforeYear (d.year + 1) := by
  have hmonth := d.number_in_month
  have hlast : daysBeforeMonth d.year (d.month + 1) ≤ daysBeforeMonth d.year 13 :=
    daysBeforeMonth_mono d.year (Nat.succ_le_succ d.valid.2.1.2)
  rw [daysBeforeYear_succ]
  omega

theorem year_le (h : d.number ≤ e.number) : d.year ≤ e.year := by
  by_contra hlt
  have hd := d.number_in_year
  have he := e.number_in_year
  have hmono := daysBeforeYear_mono (y := e.year + 1) (z := d.year) (by omega)
  omega

theorem month_le (hyear : d.year = e.year) (h : d.number ≤ e.number) : d.month ≤ e.month := by
  by_contra hlt
  have hd := d.number_in_month
  have he := e.number_in_month
  have hmono := daysBeforeMonth_mono d.year (m := e.month + 1) (n := d.month) (by omega)
  rw [← hyear] at he
  omega

/-- Days with the same number are the same. -/
theorem number_inj (h : d.number = e.number) : d = e := by
  have hyear : d.year = e.year := Int.le_antisymm (year_le (Int.le_of_eq h)) (year_le (Int.le_of_eq h.symm))
  have hmonth : d.month = e.month :=
    Nat.le_antisymm (month_le hyear (Int.le_of_eq h)) (month_le hyear.symm (Int.le_of_eq h.symm))
  have hday : d.day = e.day := by
    rw [number, number, hyear, hmonth] at h
    omega
  obtain ⟨y, m, n, hd⟩ := d
  cases hyear
  cases hmonth
  cases hday
  rfl

theorem of?_eq_some {year : Int} {month day : Nat} :
    of? year month day = some d ↔ d.year = year ∧ d.month = month ∧ d.day = day := by
  unfold of?
  constructor
  · intro h
    split at h
    · cases h
      exact ⟨rfl, rfl, rfl⟩
    · cases h
  · rintro ⟨rfl, rfl, rfl⟩
    rw [dif_pos d.valid]

theorem of?_eq_none {year : Int} {month day : Nat} : of? year month day = none ↔ ¬IsDate year month day := by
  unfold of?
  split <;> simp_all

theorem daysIn_pos (year : Int) (month : Nat) : 1 ≤ daysIn year month := by
  unfold daysIn
  split <;> (try split) <;> decide

theorem number_month_end (h : d.day = daysIn d.year d.month) :
    d.number = daysBeforeYear d.year + daysBeforeMonth d.year (d.month + 1) := by
  rw [number, daysBeforeMonth_succ d.year d.valid.2.1.1, h]
  omega

theorem number_year_end (hmonth : d.month = 12) (h : d.day = daysIn d.year d.month) :
    d.number = daysBeforeYear (d.year + 1) := by
  rw [number_month_end h, hmonth, daysBeforeYear_succ]

theorem number_year_start (hmonth : d.month = 1) (hday : d.day = 1) : d.number = daysBeforeYear d.year + 1 := by
  rw [number, hmonth, daysBeforeMonth_one, hday]
  omega

example : number ⟨1970, 1, 1, by decide⟩ = 719163 := by decide

theorem number_of_next? (h : d.next? = some e) : e.number = d.number + 1 := by
  obtain ⟨-, ⟨-, hmonth⟩, -, hday⟩ := d.valid
  unfold next? at h
  split at h
  · obtain ⟨hy, hm, hd⟩ := of?_eq_some.1 h
    rw [number, number, hy, hm, hd]
    omega
  · rename_i hend
    have hend : d.day = daysIn d.year d.month := Nat.le_antisymm hday (Nat.not_lt.1 hend)
    split at h
    · obtain ⟨hy, hm, hd⟩ := of?_eq_some.1 h
      rw [number_month_end hend, number, hy, hm, hd]
      rfl
    · rename_i hlast
      obtain ⟨hy, hm, hd⟩ := of?_eq_some.1 h
      rw [number_year_start hm hd, hy, number_year_end (Nat.le_antisymm hmonth (Nat.not_lt.1 hlast)) hend]

theorem number_of_prev? (h : d.prev? = some e) : e.number + 1 = d.number := by
  obtain ⟨-, ⟨hmonth, -⟩, hday, -⟩ := d.valid
  unfold prev? at h
  split at h
  · obtain ⟨hy, hm, hd⟩ := of?_eq_some.1 h
    rw [number, number, hy, hm, hd]
    omega
  · rename_i hfirst
    have hfirst : d.day = 1 := Nat.le_antisymm (Nat.not_lt.1 hfirst) hday
    split at h
    · obtain ⟨hy, hm, hd⟩ := of?_eq_some.1 h
      rw [number_month_end (by rw [hd, hy, hm]), number, hy, hm, Nat.sub_add_cancel hmonth, hfirst]
      rfl
    · rename_i hfirstMonth
      obtain ⟨hy, hm, hd⟩ := of?_eq_some.1 h
      rw [number_year_end hm (by rw [hd, hm]; rfl), hy, Int.sub_add_cancel,
        number_year_start (Nat.le_antisymm (Nat.not_lt.1 hfirstMonth) hmonth) hfirst]

/-- Only the last day of the last year has no day after it. -/
theorem number_of_next?_eq_none (h : d.next? = none) : d.number = daysBeforeYear (lastYear + 1) := by
  obtain ⟨hyear, ⟨hfirst, hmonth⟩, -, hday⟩ := d.valid
  unfold next? at h
  split at h
  · exact absurd ⟨hyear, ⟨hfirst, hmonth⟩, by omega, ‹_›⟩ (of?_eq_none.1 h)
  · rename_i hend
    split at h
    · exact absurd ⟨hyear, ⟨by omega, ‹_›⟩, Nat.le_refl 1, daysIn_pos _ _⟩ (of?_eq_none.1 h)
    · rename_i hlast
      rw [number_year_end (by omega) (by omega)]
      by_contra hne
      have hlt : d.year < lastYear := lt_of_le_of_ne hyear.2 fun heq => hne (by rw [heq])
      exact of?_eq_none.1 h ⟨⟨by omega, hlt⟩, by decide, Nat.le_refl 1, daysIn_pos _ _⟩

/-- Only the first day of the first year has no day before it. -/
theorem number_of_prev?_eq_none (h : d.prev? = none) : d.number = daysBeforeYear firstYear + 1 := by
  obtain ⟨hyear, ⟨hfirst, hmonth⟩, hpos, hday⟩ := d.valid
  unfold prev? at h
  split at h
  · exact absurd ⟨hyear, ⟨hfirst, hmonth⟩, by omega, by omega⟩ (of?_eq_none.1 h)
  · split at h
    · exact absurd ⟨hyear, ⟨by omega, by omega⟩, daysIn_pos _ _, Nat.le_refl _⟩ (of?_eq_none.1 h)
    · rw [number_year_start (by omega) (by omega)]
      by_contra hne
      have hlt : firstYear < d.year := lt_of_le_of_ne hyear.1 fun heq => hne (by rw [heq])
      exact of?_eq_none.1 h ⟨⟨by omega, by omega⟩, by decide, by decide, Nat.le_refl 31⟩

/-- The day after has the next number. -/
theorem next?_eq_some_iff : d.next? = some e ↔ e.number = d.number + 1 := by
  refine ⟨number_of_next?, fun h => ?_⟩
  cases hnext : d.next? with
  | some f => rw [number_inj ((number_of_next? hnext).trans h.symm)]
  | none =>
    have hend := number_of_next?_eq_none hnext
    have hyear := daysBeforeYear_mono (Int.add_le_add_right e.valid.1.2 1)
    have he := e.number_in_year
    omega

/-- The day before has the number before. -/
theorem prev?_eq_some_iff : d.prev? = some e ↔ e.number + 1 = d.number := by
  refine ⟨number_of_prev?, fun h => ?_⟩
  cases hprev : d.prev? with
  | some f =>
    have hnumber := number_of_prev? hprev
    rw [number_inj (d := f) (e := e) (by omega)]
  | none =>
    have hstart := number_of_prev?_eq_none hprev
    have hyear := daysBeforeYear_mono e.valid.1.1
    have he := e.number_in_year
    omega

end Date

/-! ## Clocks away from universal time -/

namespace Timestamp

/-- The whole minutes before an instant, counted from the day before the first of year one. -/
def minutes (t : Timestamp) : Int := t.date.number * 1440 + (t.hour.val * 60 + t.minute.val)

/-- A clock `offset` minutes ahead of universal time shows the instant as `here`. -/
structure IsLocal (t : Timestamp) (offset : Int) (here : Timestamp) : Prop where
  minutes : here.minutes = t.minutes + offset
  second : here.second = t.second
  nanos : here.nanos = t.nanos

variable {t u here : Timestamp} {offset : Int}

theorem minutes_inj (h : t.minutes = u.minutes) (hsecond : t.second = u.second) (hnanos : t.nanos = u.nanos) :
    t = u := by
  obtain ⟨date, hour, minute, second, nanos⟩ := t
  obtain ⟨date', hour', minute', second', nanos'⟩ := u
  have hh := hour.isLt
  have hm := minute.isLt
  have hh' := hour'.isLt
  have hm' := minute'.isLt
  simp only [minutes] at h
  have hdate : date = date' := Date.number_inj (by omega)
  have hhour : hour = hour' := Fin.ext (by omega)
  have hminute : minute = minute' := Fin.ext (by omega)
  cases hsecond
  cases hnanos
  rw [hdate, hhour, hminute]

/-- The day at a number of minutes from the start of a day, if that is the day itself or one beside it. -/
def dayAt (d : Date) (m : Int) : Option Date := if m < 0 then d.prev? else if 1440 ≤ m then d.next? else some d

theorem dayAt_eq_some_iff {d e : Date} {m : Int} (hlow : -1440 ≤ m) (hhigh : m < 2880) :
    dayAt d m = some e ↔ e.number = d.number + m / 1440 := by
  unfold dayAt
  split
  · rw [Date.prev?_eq_some_iff]
    omega
  · split
    · rw [Date.next?_eq_some_iff]
      omega
    · have hday : m / 1440 = 0 := by omega
      rw [hday, Int.add_zero, Option.some_inj]
      exact ⟨fun h => by rw [h], fun h => (Date.number_inj h).symm⟩

/-- The clock set to a number of minutes from the start of a day, on the day `d`. -/
def setTo (t : Timestamp) (m : Int) (d : Date) : Timestamp :=
  { t with
    date := d
    hour := ⟨(m % 1440).toNat / 60, by omega⟩
    minute := ⟨(m % 1440).toNat % 60, by omega⟩ }

theorem minutes_setTo (t : Timestamp) (m : Int) (d : Date) : (t.setTo m d).minutes = d.number * 1440 + m % 1440 := by
  simp only [minutes, setTo]
  omega

theorem ofLocal?_eq (here : Timestamp) (offset : Int) :
    here.ofLocal? offset = (dayAt here.date (here.hour.val * 60 + here.minute.val - offset)).map
      (here.setTo (here.hour.val * 60 + here.minute.val - offset)) := by
  unfold ofLocal? dayAt
  dsimp only
  generalize (here.hour.val * 60 + here.minute.val - offset : Int) = m
  have hhour : Fin.ofNat 24 ((m % 1440).toNat / 60) = ⟨(m % 1440).toNat / 60, by omega⟩ :=
    Fin.ext (Nat.mod_eq_of_lt (by omega))
  have hminute : Fin.ofNat 60 ((m % 1440).toNat % 60) = ⟨(m % 1440).toNat % 60, by omega⟩ :=
    Fin.ext (Nat.mod_eq_of_lt (by omega))
  rw [hhour, hminute]
  split
  · cases here.date.prev? <;> rfl
  · split
    · cases here.date.next? <;> rfl
    · rfl

/-- What a clock shows is read as the instant that it shows. -/
theorem ofLocal?_eq_some_iff (hlow : -1440 < offset) (hhigh : offset < 1440) :
    here.ofLocal? offset = some t ↔ t.IsLocal offset here := by
  have hhour := here.hour.isLt
  have hminute := here.minute.isLt
  rw [ofLocal?_eq, Option.map_eq_some_iff]
  constructor
  · rintro ⟨d, hd, rfl⟩
    rw [dayAt_eq_some_iff (by omega) (by omega)] at hd
    refine ⟨?_, rfl, rfl⟩
    rw [minutes_setTo, minutes]
    omega
  · intro h
    have hlocal := h.minutes
    have hnumber : t.date.number =
        here.date.number + (here.hour.val * 60 + here.minute.val - offset : Int) / 1440 := by
      rw [minutes, minutes] at hlocal
      omega
    refine ⟨t.date, (dayAt_eq_some_iff (by omega) (by omega)).2 hnumber, minutes_inj ?_ h.second h.nanos⟩
    rw [minutes_setTo]
    rw [minutes] at hlocal
    omega

theorem IsLocal.neg (h : t.IsLocal offset here) : here.IsLocal (-offset) t :=
  ⟨by rw [h.minutes, Int.add_neg_cancel_right], h.second.symm, h.nanos.symm⟩

theorem exists_dayAt {d : Date} (hfirst : firstYear < d.year) (hlast : d.year < lastYear) (m : Int) :
    ∃ e, dayAt d m = some e := by
  have hnumber := d.number_in_year
  unfold dayAt
  split
  · refine Option.ne_none_iff_exists'.1 fun hnone => ?_
    have hstart := Date.number_of_prev?_eq_none hnone
    have hyear := daysBeforeYear_mono (Int.add_one_le_of_lt hfirst)
    have hlong : daysBeforeYear firstYear < daysBeforeYear (firstYear + 1) := by decide
    omega
  · split
    · refine Option.ne_none_iff_exists'.1 fun hnone => ?_
      have hend := Date.number_of_next?_eq_none hnone
      have hyear := daysBeforeYear_mono (Int.add_one_le_of_lt hlast)
      have hlong : daysBeforeYear lastYear < daysBeforeYear (lastYear + 1) := by decide
      omega
    · exact ⟨d, rfl⟩

/-- Away from the ends of the calendar, a clock shows every instant, in one way. -/
theorem existsUnique_isLocal (hlow : -1440 < offset) (hhigh : offset < 1440) (hfirst : firstYear < t.date.year)
    (hlast : t.date.year < lastYear) : ∃! here, t.IsLocal offset here := by
  have hlocal (u : Timestamp) : t.IsLocal offset u ↔ t.ofLocal? (-offset) = some u := by
    rw [ofLocal?_eq_some_iff (by omega) (by omega)]
    exact ⟨IsLocal.neg, fun h => by simpa using h.neg⟩
  obtain ⟨d, hd⟩ := exists_dayAt hfirst hlast (t.hour.val * 60 + t.minute.val - -offset)
  have hsome : t.ofLocal? (-offset) = some (t.setTo (t.hour.val * 60 + t.minute.val - -offset) d) := by
    rw [ofLocal?_eq, hd, Option.map_some]
  refine ⟨_, (hlocal _).2 hsome, fun u hu => ?_⟩
  exact Option.some_inj.1 (((hlocal u).1 hu).symm.trans hsome)

end Timestamp

/-! ## Texts -/

/-- An offset from universal time, as in `+05:30`. -/
def zoneChars (offset : Int) : List Char :=
  (if offset < 0 then '-' else '+') :: (padded 2 (offset.natAbs / 60) ++ ':' :: padded 2 (offset.natAbs % 60))

theorem offsetText_zoneChars {offset : Int} (hlow : -1440 < offset) (hhigh : offset < 1440) :
    OffsetText offset (zoneChars offset) := by
  have hhours : offset.natAbs / 60 ≤ 23 := by omega
  have hminutes : offset.natAbs % 60 ≤ 59 := by omega
  unfold zoneChars
  split
  · have hoffset : offset = -((offset.natAbs / 60 : Nat) * 60 + (offset.natAbs % 60 : Nat)) := by omega
    have htext := OffsetText.behind hhours hminutes
    rwa [← hoffset] at htext
  · have hoffset : offset = (offset.natAbs / 60 : Nat) * 60 + (offset.natAbs % 60 : Nat) := by omega
    have htext := OffsetText.ahead hhours hminutes
    rwa [← hoffset] at htext

theorem OffsetText.bounds {offset : Int} {zone : List Char} (h : OffsetText offset zone) :
    -1440 < offset ∧ offset < 1440 := by
  cases h with
  | universal _ => decide
  | ahead hh hm => omega
  | behind hh hm => omega

namespace Timestamp

/-- What a clock shows, to the nanosecond, and where it stands. -/
def fullText (here : Timestamp) (divider : Char) (zone : List Char) : String :=
  String.ofList (here.date.chars ++ divider :: (here.clockChars ++ ('.' :: padded 9 here.nanos.val ++ zone)))

theorem IsLocal.rfc3339 {t here : Timestamp} {offset : Int} {divider : Char} {zone : List Char}
    (h : t.IsLocal offset here) (hyear : here.HasShortYear) (hdivider : isDivider divider = true)
    (hzone : OffsetText offset zone) : Rfc3339 t (here.fullText divider zone).toList := by
  have hfraction : FractionText here.nanos ('.' :: padded 9 here.nanos.val) := by
    simpa using fractionText_padded (n := here.nanos) 9 (by decide) (by decide) (Nat.mod_one _)
  rw [fullText, String.toList_ofList]
  exact .mk hyear hdivider hfraction hzone ((ofLocal?_eq_some_iff hzone.bounds.1 hzone.bounds.2).2 h)

theorem rfc3339_statementText {t : Timestamp} (h : t.HasShortYear) : Rfc3339 t.toMillis t.statementText.toList := by
  have hfraction : FractionText t.toMillis.nanos t.millisChars := by
    have hmillis : t.toMillis.nanos.val / 1000000 = t.nanos.val / 1000000 :=
      Nat.mul_div_cancel _ (by decide)
    have htext := fractionText_padded (n := t.toMillis.nanos) 3 (by decide) (by decide) (Nat.mul_mod_left _ _)
    rw [show Nat.pow 10 (9 - 3) = 1000000 from rfl, hmillis] at htext
    exact htext
  have htext : Rfc3339 t.toMillis (t.date.chars ++ 'T' :: (t.clockChars ++ (t.millisChars ++ ['Z']))) :=
    @Rfc3339.mk t.toMillis t.toMillis 0 'T' _ _ h rfl hfraction (.universal (.inl rfl)) (ofLocal?_zero t.toMillis)
  simpa [statementText] using htext

end Timestamp

end WorkItemQuery.Time
