import Mathlib.Data.Int.Init

/-!
# The Gregorian calendar

Days since 1970-01-01 and dates of the proleptic Gregorian calendar. Years are counted from March, so that the day
that leap years add is the last one of a year, and 400 of them make an era.
-/

namespace Lib

structure Date where
  year : Int
  month : Int
  day : Int
  deriving DecidableEq

namespace Date

/-- The first day of a year of an era, from the first day of the era. -/
def yearStart (yoe : Int) : Int := 365 * yoe + yoe / 4 - yoe / 100

/-- The first day of a month, from March, in its year. -/
def monthStart (mp : Int) : Int := (153 * mp + 2) / 5

/-- The year of a day of an era: in a century, and there in four years. The last day of an era or of four years
    belongs to the year before. -/
def yearOfEra (doe : Int) : Int :=
  let century := if doe = 146096 then 3 else doe / 36524
  let doc := doe - 36524 * century
  let doq := doc % 1461
  100 * century + 4 * (doc / 1461) + (if doq = 1460 then 3 else doq / 365)

/-- A day of a month from March, in a year from March. -/
def ofMarch (year mp day : Int) : Date :=
  let month := if mp < 10 then mp + 3 else mp - 9
  { year := if month ≤ 2 then year + 1 else year, month := month, day := day }

def ofDays (z : Int) : Date :=
  let doe := (z + 719468) % 146097
  let yoe := yearOfEra doe
  let doy := doe - yearStart yoe
  let mp := (5 * doy + 2) / 153
  ofMarch (yoe + (z + 719468) / 146097 * 400) mp (doy - monthStart mp + 1)

def toDays (d : Date) : Int :=
  let year := if d.month ≤ 2 then d.year - 1 else d.year
  let mp := if d.month ≤ 2 then d.month + 9 else d.month - 3
  year / 400 * 146097 + (yearStart (year % 400) + monthStart mp + d.day - 1) - 719468

example : ofDays 11016 = ⟨2000, 2, 29⟩ := by decide

theorem toDays_ofMarch {year mp day : Int} (h : 0 ≤ mp) (h' : mp ≤ 11) : (ofMarch year mp day).toDays =
    year / 400 * 146097 + (yearStart (year % 400) + monthStart mp + day - 1) - 719468 := by
  have hmonth : (if mp < 10 then mp + 3 else mp - 9) ≤ 2 ↔ 10 ≤ mp := by
    split <;> omega
  simp only [ofMarch, toDays, hmonth]
  split
  · next hmp => rw [if_neg (by omega), Int.add_sub_cancel, Int.sub_add_cancel]
  · next hmp => rw [if_pos (by omega), Int.add_sub_cancel]

/-- The year of a day of an era, and the day of that year. -/
theorem yearOfEra_bounds {doe : Int} (h : 0 ≤ doe) (h' : doe < 146097) :
    0 ≤ yearOfEra doe ∧ yearOfEra doe < 400 ∧ 0 ≤ doe - yearStart (yearOfEra doe) ∧
      doe - yearStart (yearOfEra doe) ≤ 365 := by
  unfold yearOfEra yearStart
  dsimp only
  generalize hcentury : (if doe = 146096 then 3 else doe / 36524) = century
  have hc : 0 ≤ century ∧ century ≤ 3 ∧ 0 ≤ doe - 36524 * century ∧ doe - 36524 * century ≤ 36524 := by
    split at hcentury <;> omega
  generalize hdoc : doe - 36524 * century = doc at hc ⊢
  generalize hyear : (if doc % 1461 = 1460 then 3 else doc % 1461 / 365) = year
  have hy : 0 ≤ year ∧ year ≤ 3 ∧ 0 ≤ doc % 1461 - 365 * year ∧ doc % 1461 - 365 * year ≤ 365 := by
    split at hyear <;> omega
  -- the leap days of the years before
  have hfour : (100 * century + 4 * (doc / 1461) + year) / 4 = 25 * century + doc / 1461 := by omega
  have hhundred : (100 * century + 4 * (doc / 1461) + year) / 100 = century := by omega
  rw [hfour, hhundred]
  refine ⟨?_, ?_, ?_, ?_⟩ <;> omega

/-- The day of a year is a day of a month. -/
theorem monthStart_bounds {doy : Int} (h : 0 ≤ doy) (h' : doy ≤ 365) :
    0 ≤ (5 * doy + 2) / 153 ∧ (5 * doy + 2) / 153 ≤ 11 ∧ 0 ≤ doy - monthStart ((5 * doy + 2) / 153) ∧
      doy - monthStart ((5 * doy + 2) / 153) ≤ 30 := by
  unfold monthStart
  refine ⟨?_, ?_, ?_, ?_⟩ <;> omega

/-- What a date is made of. -/
theorem ofDays_march (z : Int) : ∃ yoe mp day, ofDays z = ofMarch (yoe + (z + 719468) / 146097 * 400) mp day ∧
    0 ≤ yoe ∧ yoe < 400 ∧ 0 ≤ mp ∧ mp ≤ 11 ∧ 1 ≤ day ∧ day ≤ 31 ∧
    (z + 719468) % 146097 = yearStart yoe + monthStart mp + day - 1 := by
  have hdoe := Int.emod_nonneg (z + 719468) (b := 146097) (by decide)
  have hdoe' := Int.emod_lt_of_pos (z + 719468) (b := 146097) (by decide)
  obtain ⟨hyear, hyear', hdoy, hdoy'⟩ := yearOfEra_bounds hdoe hdoe'
  obtain ⟨hmonth, hmonth', hday, hday'⟩ := monthStart_bounds hdoy hdoy'
  refine ⟨_, _, _, rfl, hyear, hyear', hmonth, hmonth', ?_, ?_, ?_⟩ <;> omega

theorem toDays_ofDays (z : Int) : (ofDays z).toDays = z := by
  obtain ⟨yoe, mp, day, heq, hyear, hyear', hmonth, hmonth', -, -, hdoe⟩ := ofDays_march z
  have hera : (yoe + (z + 719468) / 146097 * 400) / 400 = (z + 719468) / 146097 := by omega
  have hyoe : (yoe + (z + 719468) / 146097 * 400) % 400 = yoe := by omega
  rw [heq, toDays_ofMarch hmonth hmonth', hera, hyoe]
  omega

theorem ofDays_bounds (z : Int) : 1 ≤ (ofDays z).month ∧ (ofDays z).month ≤ 12 ∧ 1 ≤ (ofDays z).day ∧
    (ofDays z).day ≤ 31 := by
  obtain ⟨yoe, mp, day, heq, -, -, hmonth, hmonth', hday, hday', -⟩ := ofDays_march z
  rw [heq]
  refine ⟨?_, ?_, hday, hday'⟩
  · simp only [ofMarch]
    split <;> omega
  · simp only [ofMarch]
    split <;> omega

/-- The years of a range of days. -/
theorem year_ofDays_bounds {z : Int} {n m : Int} (h : 146097 * n ≤ z + 719468) (h' : z + 719468 < 146097 * m) :
    400 * n ≤ (ofDays z).year ∧ (ofDays z).year ≤ 400 * m := by
  obtain ⟨yoe, mp, day, heq, hyear, hyear', -⟩ := ofDays_march z
  rw [heq]
  simp only [ofMarch]
  constructor
  · split <;> omega
  · split <;> omega

end Date

end Lib
