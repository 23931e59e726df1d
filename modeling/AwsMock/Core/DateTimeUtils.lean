import Mathlib.Tactic.Ring
import AwsMock.Core.Poco
import AwsMock.Lib.Calendar

/-!
# Dates as texts

`DateTimeUtils::ISO8601` and `JsonUtils::GetJsonValueDate`, with the formatting of `std::chrono`, `strptime` and
`mktime`.
-/

namespace AwsMock.DateTimeUtils

open Lib

/-- `system_clock::time_point`: nanoseconds in 64 bits. -/
abbrev ClockTime := { t : Int // -9223372036854775808 ≤ t ∧ t < 9223372036854775808 }

/-- Seconds since the epoch, rounded down. -/
def ClockTime.seconds (t : ClockTime) : Int := t.1 / 1000000000

/-! ### Formatting -/

def decimalDigit (n : Nat) : UInt8 := UInt8.ofNat (48 + n)

/-- The last digits of a number, with leading zeros. -/
def padded : Nat → Nat → Str
  | 0, _ => []
  | width + 1, n => decimalDigit (n / 10 ^ width % 10) :: padded width n

/-- `%F`. -/
def formatDate (date : Date) : Str :=
  padded 4 date.year.toNat ++ byte '-' :: (padded 2 date.month.toNat ++ byte '-' :: padded 2 date.day.toNat)

/-- `%T` of the nanoseconds of a day. -/
def formatTime (ns : Int) : Str :=
  padded 2 (ns / 3600000000000).toNat ++ byte ':' :: (padded 2 (ns / 60000000000 % 60).toNat ++
    byte ':' :: (padded 2 (ns / 1000000000 % 60).toNat ++ byte '.' :: padded 9 (ns % 1000000000).toNat))

/-- `std::format("{:%FT%TZ}", timePoint)`. -/
def iso8601 (t : ClockTime) : Str :=
  formatDate (.ofDays (t.1 / 86400000000000)) ++ byte 'T' :: (formatTime (t.1 % 86400000000000) ++ [byte 'Z'])

/-! ### Parsing -/

/-- `std::tm`; `tm_isdst` stays 0, which is standard time. -/
structure Tm where
  year : Int := 0
  mon : Int := 0
  mday : Int := 0
  hour : Int := 0
  min : Int := 0
  sec : Int := 0

/-- A character of a format, or a number in a range with a number of digits. -/
inductive Directive where
  | literal (c : UInt8)
  | number (lo hi digits : Nat) (set : Nat → Tm → Tm)

/-- `%FT%T`. What follows of the format, `%z`, only sets the offset from UTC, which `mktime` does not read. -/
def formatFT : List Directive :=
  [.number 0 9999 4 fun n tm => { tm with year := n - 1900 }, .literal (byte '-'),
    .number 1 12 2 fun n tm => { tm with mon := n - 1 }, .literal (byte '-'),
    .number 1 31 2 fun n tm => { tm with mday := n }, .literal (byte 'T'),
    .number 0 23 2 fun n tm => { tm with hour := n }, .literal (byte ':'),
    .number 0 59 2 fun n tm => { tm with min := n }, .literal (byte ':'),
    .number 0 61 2 fun n tm => { tm with sec := n }]

/-- Further digits of a number, as long as it stays in its range. -/
def readDigits (hi : Nat) : Nat → Nat → Str → Nat × Str
  | digits + 1, n, c :: s =>
    if n * 10 ≤ hi ∧ isDigit c then readDigits hi digits (n * 10 + (c.toNat - 48)) s else (n, c :: s)
  | _, n, s => (n, s)

/-- A number with its first digit. -/
def getNumber (lo hi digits : Nat) (s : Str) : Option (Nat × Str) :=
  match s.dropWhile isSpace with
  | c :: s =>
    if isDigit c then
      let r := readDigits hi (digits - 1) (c.toNat - 48) s
      if r.1 < lo ∨ hi < r.1 then none else some r
    else none
  | [] => none

/-- `strptime`: where it fails, the fields read so far are set. -/
def strptime : List Directive → Str → Tm → Tm
  | .literal c :: format, x :: s, tm => if x = c then strptime format s tm else tm
  | .number lo hi digits set :: format, s, tm =>
    match getNumber lo hi digits s with
    | some (n, s) => strptime format s (set n tm)
    | none => tm
  | _, _, tm => tm

/-- The time zone of the process: the offset of its standard time from UTC, at a local time. -/
structure TimeZone where
  standardOffset : Int → Int

/-- The seconds of a local time, as if it were UTC. -/
def Tm.seconds (tm : Tm) : Int :=
  Date.toDays ⟨tm.year + 1900, tm.mon + 1, tm.mday⟩ * 86400 + tm.hour * 3600 + tm.min * 60 + tm.sec

def mktime (zone : TimeZone) (tm : Tm) : Int := tm.seconds - zone.standardOffset tm.seconds

/-- `system_clock::from_time_t`, undefined where it overflows. -/
def fromTimeT (seconds : Int) : Option ClockTime :=
  if h : -9223372036854775808 ≤ seconds * 1000000000 ∧ seconds * 1000000000 < 9223372036854775808 then
    some ⟨seconds * 1000000000, h⟩
  else none

/-- A member that is missing leaves the date as it is. -/
def getJsonValueDate (poco : Poco) (zone : TimeZone) (name : Str) (jsonObject : List (Str × Json))
    (date : ClockTime) : Except Error (Option ClockTime) :=
  match Json.member name jsonObject with
  | some value => do
    let stringValue ← pocoTry (poco.convertString value)
    return fromTimeT (mktime zone (strptime formatFT stringValue {}))
  | none => .ok (some date)

/-! ### Numbers read back -/

theorem decimalDigit_facts {n : Nat} (h : n < 10) : isDigit (decimalDigit n) = true ∧
    isSpace (decimalDigit n) = false ∧ (decimalDigit n).toNat - 48 = n := by
  have hall : ∀ n < 10, isDigit (decimalDigit n) = true ∧ isSpace (decimalDigit n) = false ∧
      (decimalDigit n).toNat - 48 = n := by decide
  exact hall n h

theorem readDigits_padded (hi : Nat) (rest : Str) : ∀ (width m n : Nat), m * 10 ^ width + n % 10 ^ width ≤ hi →
    readDigits hi width m (padded width n ++ rest) = (m * 10 ^ width + n % 10 ^ width, rest)
  | 0, m, n, _ => by simp [readDigits, padded, Nat.mod_one]
  | width + 1, m, n, h => by
    obtain ⟨hdigit, -, hvalue⟩ := decimalDigit_facts (Nat.mod_lt (n / 10 ^ width) (by decide : 0 < 10))
    have hsplit : m * 10 ^ (width + 1) + n % 10 ^ (width + 1) =
        (m * 10 + n / 10 ^ width % 10) * 10 ^ width + n % 10 ^ width := by
      rw [Nat.pow_succ, Nat.mod_mul]
      ring
    have hfirst : m * 10 ≤ hi := by
      have hpow := Nat.mul_le_mul_left (m * 10) (Nat.one_le_pow width 10 (by decide))
      rw [Nat.pow_succ, Nat.mul_comm (10 ^ width), ← Nat.mul_assoc] at h
      omega
    rw [padded, List.cons_append, readDigits, if_pos ⟨hfirst, hdigit⟩, hvalue, hsplit]
    exact readDigits_padded hi rest width _ n (hsplit ▸ h)

theorem getNumber_padded {lo hi width n : Nat} (rest : Str) (hwidth : 0 < width) (hn : n < 10 ^ width) (hlo : lo ≤ n)
    (hhi : n ≤ hi) : getNumber lo hi width (padded width n ++ rest) = some (n, rest) := by
  obtain ⟨width, rfl⟩ := Nat.exists_eq_add_one.mpr hwidth
  have hfirst : n / 10 ^ width < 10 := Nat.div_lt_of_lt_mul (by rwa [Nat.pow_succ] at hn)
  obtain ⟨hdigit, hspace, hvalue⟩ := decimalDigit_facts hfirst
  have hn' : n / 10 ^ width * 10 ^ width + n % 10 ^ width = n := by
    rw [Nat.mul_comm]
    exact Nat.div_add_mod ..
  have hread := readDigits_padded hi rest width (n / 10 ^ width) n (hn'.symm ▸ hhi)
  rw [hn'] at hread
  rw [getNumber, padded, Nat.mod_eq_of_lt hfirst, List.cons_append, List.dropWhile_cons_of_neg (by simp [hspace])]
  simp only [hdigit, if_true, hvalue, Nat.add_sub_cancel, hread]
  exact if_neg (by omega)

theorem strptime_number {lo hi width n : Nat} (set : Nat → Tm → Tm) (format : List Directive) (rest : Str) (tm : Tm)
    (hwidth : 0 < width) (hn : n < 10 ^ width) (hlo : lo ≤ n) (hhi : n ≤ hi) :
    strptime (.number lo hi width set :: format) (padded width n ++ rest) tm = strptime format rest (set n tm) := by
  rw [strptime, getNumber_padded rest hwidth hn hlo hhi]

theorem strptime_literal (c : UInt8) (format : List Directive) (rest : Str) (tm : Tm) :
    strptime (.literal c :: format) (c :: rest) tm = strptime format rest tm := if_pos rfl

/-! ### Dates read back -/

namespace ClockTime

variable (t : ClockTime)

/-- The years that a clock can show. -/
theorem year_bounds : 1600 ≤ (Date.ofDays (t.1 / 86400000000000)).year ∧
    (Date.ofDays (t.1 / 86400000000000)).year ≤ 2400 := by
  obtain ⟨t, hlow, hhigh⟩ := t
  refine Date.year_ofDays_bounds (n := 4) (m := 6) ?_ ?_ <;> dsimp only <;> omega

/-- The fields of a date in UTC. -/
def utc : Tm where
  year := (Date.ofDays (t.1 / 86400000000000)).year - 1900
  mon := (Date.ofDays (t.1 / 86400000000000)).month - 1
  mday := (Date.ofDays (t.1 / 86400000000000)).day
  hour := t.1 % 86400000000000 / 3600000000000
  min := t.1 % 86400000000000 / 60000000000 % 60
  sec := t.1 % 86400000000000 / 1000000000 % 60

theorem seconds_utc : t.utc.seconds = t.seconds := by
  have hdays := Date.toDays_ofDays (t.1 / 86400000000000)
  rw [Tm.seconds, utc, seconds]
  simp only [Int.sub_add_cancel, hdays]
  omega

/-- Parsing stops at the fraction of a second. -/
theorem strptime_iso8601 : strptime formatFT (iso8601 t) {} = t.utc := by
  obtain ⟨hyear, hyear'⟩ := t.year_bounds
  obtain ⟨hmonth, hmonth', hday, hday'⟩ := Date.ofDays_bounds (t.1 / 86400000000000)
  have hns := Int.emod_nonneg t.1 (b := 86400000000000) (by decide)
  have hns' := Int.emod_lt_of_pos t.1 (b := 86400000000000) (by decide)
  simp only [iso8601, formatDate, formatTime, formatFT, List.append_assoc, List.cons_append]
  rw [strptime_number, strptime_literal, strptime_number, strptime_literal, strptime_number, strptime_literal,
    strptime_number, strptime_literal, strptime_number, strptime_literal, strptime_number]
  · simp only [strptime, utc, Tm.mk.injEq]
    refine ⟨?_, ?_, ?_, ?_, ?_, ?_⟩ <;> omega
  all_goals omega

/-- Rounding down to seconds stays in the range of the clock. -/
def HasSecond : Prop := -9223372036854775808 ≤ t.seconds * 1000000000

instance : Decidable t.HasSecond := inferInstanceAs (Decidable (_ ≤ _))

end ClockTime

theorem fromTimeT_seconds {seconds : Int} {r : ClockTime} (h : fromTimeT seconds = some r) : r.seconds = seconds := by
  rw [fromTimeT] at h
  split at h
  · cases h
    exact Int.mul_ediv_cancel _ (by decide)
  · cases h

theorem fromTimeT_of_hasSecond {t : ClockTime} (h : t.HasSecond) : ∃ r, fromTimeT t.seconds = some r := by
  obtain ⟨t, hlow, hhigh⟩ := t
  unfold ClockTime.HasSecond at h
  unfold ClockTime.seconds at h ⊢
  exact ⟨_, dif_pos ⟨h, by dsimp only; omega⟩⟩

/-- The text of a date is read as the same second. -/
def DateRoundTrips (poco : Poco) (zone : TimeZone) (name : Str) (jsonObject : List (Str × Json)) (date t : ClockTime) :
    Prop :=
  ∃ r, getJsonValueDate poco zone name ((name, .str (iso8601 t)) :: jsonObject) date = .ok (some r) ∧
    r.seconds = t.seconds

theorem getJsonValueDate_iso8601 (poco : Poco) (zone : TimeZone) (name : Str) (jsonObject : List (Str × Json))
    (date t : ClockTime) : getJsonValueDate poco zone name ((name, .str (iso8601 t)) :: jsonObject) date =
      .ok (fromTimeT (t.seconds - zone.standardOffset t.seconds)) := by
  rw [getJsonValueDate, Json.member_cons, if_pos rfl]
  simp only [poco.convertString_str, pocoTry]
  refine congrArg (fun seconds => Except.ok (fromTimeT seconds)) ?_
  rw [ClockTime.strptime_iso8601, mktime, ClockTime.seconds_utc]

/-- A date comes back exactly where the standard time of the process is UTC. -/
theorem date_roundTrips_iff (poco : Poco) (zone : TimeZone) (name : Str) (jsonObject : List (Str × Json))
    (date t : ClockTime) : DateRoundTrips poco zone name jsonObject date t ↔
      zone.standardOffset t.seconds = 0 ∧ t.HasSecond := by
  rw [DateRoundTrips, getJsonValueDate_iso8601]
  constructor
  · rintro ⟨r, hr, hseconds⟩
    have hfrom := Except.ok.inj hr
    have hoffset := (fromTimeT_seconds hfrom).symm.trans hseconds
    have hzero : zone.standardOffset t.seconds = 0 := by omega
    rw [hzero, Int.sub_zero, fromTimeT] at hfrom
    split at hfrom
    · next h => exact ⟨hzero, h.1⟩
    · cases hfrom
  · rintro ⟨hzero, hsecond⟩
    obtain ⟨r, hr⟩ := fromTimeT_of_hasSecond hsecond
    rw [hzero, Int.sub_zero, hr]
    exact ⟨r, rfl, fromTimeT_seconds hr⟩

/-- Central European Time, an hour ahead of UTC. -/
def TimeZone.cet : TimeZone where
  standardOffset _ := 3600

theorem epoch_inRange : -9223372036854775808 ≤ (0 : Int) ∧ (0 : Int) < 9223372036854775808 := by decide

def ClockTime.epoch : ClockTime := ⟨0, epoch_inRange⟩

example : iso8601 .epoch = str "1970-01-01T00:00:00.000000000Z" := by decide +kernel

/-- The epoch comes back an hour early. -/
theorem epoch_shifted : ¬ (∀ (poco : Poco) (zone : TimeZone) (name : Str) (jsonObject : List (Str × Json))
    (date t : ClockTime), DateRoundTrips poco zone name jsonObject date t) := by
  intro h
  obtain ⟨r, hr, hseconds⟩ := h .minimal .cet [] [] .epoch .epoch
  rw [getJsonValueDate_iso8601] at hr
  have hshifted := (fromTimeT_seconds (Except.ok.inj hr)).symm.trans hseconds
  exact absurd hshifted (by decide)

end AwsMock.DateTimeUtils
