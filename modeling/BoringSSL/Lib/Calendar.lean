import Mathlib.Data.List.Lex
import Mathlib.Tactic.IntervalCases

/-!
# The Gregorian calendar

Days are counted from the first day of the year 0 (`Date.dayNumber`) and seconds from its midnight
(`DateTime.instant`).  Every day and every second is that of exactly one valid date: the next day of
a date has the next number (`Date.next_dayNumber`), and the number gives back the year, the month
and the day (`Date.dayNumber_injective`).
-/

namespace Calendar

variable {t u : DateTime} (y : ℕ)

/-- The Gregorian rule for leap years. -/
def IsLeap : Prop := (y % 4 = 0 ∧ y % 100 ≠ 0) ∨ y % 400 = 0

instance (y : ℕ) : Decidable (IsLeap y) := inferInstanceAs (Decidable (_ ∨ _))

def daysInYear : ℕ := if IsLeap y then 366 else 365

def daysInMonth : ℕ → ℕ
  | 1 | 3 | 5 | 7 | 8 | 10 | 12 => 31
  | 4 | 6 | 9 | 11 => 30
  | 2 => if IsLeap y then 29 else 28
  | _ => 0

lemma daysInMonth_le (y m : ℕ) : daysInMonth y m ≤ 31 := by
  unfold daysInMonth
  split <;> first | omega | (split <;> omega)

def daysBeforeYear : ℕ → ℕ
  | 0 => 0
  | y + 1 => daysBeforeYear y + daysInYear y

def daysBeforeMonth (y : ℕ) : ℕ → ℕ
  | 0 => 0
  | m + 1 => daysBeforeMonth y m + daysInMonth y m

/-- A day of the calendar. -/
@[ext]
structure Date where
  year : ℕ
  month : ℕ
  day : ℕ
  month_mem : 1 ≤ month ∧ month ≤ 12
  day_mem : 1 ≤ day ∧ day ≤ daysInMonth year month
  deriving DecidableEq, Repr

/-- The days since 0000-01-01. -/
def Date.dayNumber (d : Date) : ℕ :=
  daysBeforeYear d.year + daysBeforeMonth d.year d.month + (d.day - 1)

/-- A day and a time in it. -/
@[ext]
structure DateTime extends Date where
  hour : ℕ
  minute : ℕ
  second : ℕ
  hour_lt : hour < 24
  minute_lt : minute < 60
  second_lt : second < 60
  deriving DecidableEq, Repr

/-- The seconds since 0000-01-01. -/
def DateTime.instant (t : DateTime) : ℕ :=
  t.toDate.dayNumber * 86400 + (t.hour * 3600 + t.minute * 60 + t.second)

lemma daysBeforeYear_eq :
    daysBeforeYear y + (y + 99) / 100 = 365 * y + (y + 3) / 4 + (y + 399) / 400 := by
  induction y with
  | zero => rfl
  | succ y ih =>
    rw [daysBeforeYear, daysInYear]
    split_ifs with h <;> unfold IsLeap at h <;> omega

lemma daysBeforeYear_strictMono : StrictMono daysBeforeYear := by
  refine strictMono_nat_of_lt_succ fun y => ?_
  rw [daysBeforeYear, daysInYear]
  split_ifs <;> omega

lemma daysBeforeMonth_mono : Monotone (daysBeforeMonth y) :=
  monotone_nat_of_le_succ fun _ => Nat.le_add_right _ _

lemma daysBeforeMonth_thirteen : daysBeforeMonth y 13 = daysInYear y := by
  simp only [daysBeforeMonth, daysInMonth, daysInYear]
  split_ifs <;> rfl

lemma index_eq {f : ℕ → ℕ} (hf : Monotone f) {i j n : ℕ} (hi : f i ≤ n) (hi' : n < f (i + 1))
    (hj : f j ≤ n) (hj' : n < f (j + 1)) : i = j := by
  rcases Nat.lt_trichotomy i j with h | h | h
  · have := hf (show i + 1 ≤ j from h)
    omega
  · exact h
  · have := hf (show j + 1 ≤ i from h)
    omega

namespace Date

variable (d : Date)

lemma day_lt :
    daysBeforeMonth d.year d.month + (d.day - 1) < daysBeforeMonth d.year (d.month + 1) := by
  have := d.day_mem
  rw [daysBeforeMonth]
  omega

lemma dayOfYear_lt : daysBeforeMonth d.year d.month + (d.day - 1) < daysInYear d.year := by
  rw [← daysBeforeMonth_thirteen]
  exact d.day_lt.trans_le (daysBeforeMonth_mono _ (by have := d.month_mem; omega))

lemma dayNumber_lt : d.dayNumber < daysBeforeYear (d.year + 1) := by
  have := d.dayOfYear_lt
  rw [dayNumber, daysBeforeYear]
  omega

lemma le_dayNumber : daysBeforeYear d.year ≤ d.dayNumber := by
  rw [dayNumber]
  omega

variable {d} {e : Date}

lemma dayNumber_injective (h : d.dayNumber = e.dayNumber) : d = e := by
  have hy : d.year = e.year := index_eq daysBeforeYear_strictMono.monotone d.le_dayNumber
    d.dayNumber_lt (h ▸ e.le_dayNumber) (h ▸ e.dayNumber_lt)
  have hn : daysBeforeMonth d.year d.month + (d.day - 1)
      = daysBeforeMonth d.year e.month + (e.day - 1) := by
    simp only [dayNumber, hy] at h ⊢
    omega
  have he := e.day_lt
  rw [← hy] at he
  have hm : d.month = e.month := index_eq (daysBeforeMonth_mono d.year) (Nat.le_add_right _ _)
    d.day_lt (hn ▸ Nat.le_add_right _ _) (hn ▸ he)
  have hd := d.day_mem
  have he' := e.day_mem
  rw [hm] at hn
  exact Date.ext hy hm (by omega)

lemma one_le_daysInMonth {y m : ℕ} (h : 1 ≤ m ∧ m ≤ 12) : 1 ≤ daysInMonth y m := by
  obtain ⟨h1, h2⟩ := h
  interval_cases m <;> simp only [daysInMonth] <;> first | omega | (split_ifs <;> omega)

/-- The day after. -/
def next (d : Date) : Date :=
  if h : d.day < daysInMonth d.year d.month then
    ⟨d.year, d.month, d.day + 1, d.month_mem, by omega⟩
  else if hm : d.month < 12 then
    ⟨d.year, d.month + 1, 1, by omega, le_rfl, one_le_daysInMonth (by omega)⟩
  else ⟨d.year + 1, 1, 1, by omega, le_rfl, one_le_daysInMonth (by omega)⟩

lemma next_dayNumber (d : Date) : d.next.dayNumber = d.dayNumber + 1 := by
  have hd := d.day_mem
  have hm := d.month_mem
  unfold next
  split_ifs with h h'
  · simp only [dayNumber]
    omega
  · simp only [dayNumber, daysBeforeMonth]
    omega
  · have hlast : d.month = 12 := by omega
    have hyear := daysBeforeMonth_thirteen d.year
    rw [daysBeforeMonth, ← hlast] at hyear
    have hfirst : daysBeforeMonth (d.year + 1) 1 = 0 := rfl
    simp only [dayNumber, daysBeforeYear, hfirst]
    omega

lemma exists_dayNumber (n : ℕ) : ∃ d : Date, d.dayNumber = n := by
  induction n with
  | zero => exact ⟨⟨0, 1, 1, by decide, by decide⟩, rfl⟩
  | succ n ih =>
    obtain ⟨d, rfl⟩ := ih
    exact ⟨d.next, d.next_dayNumber⟩

lemma dayNumber_lt_of_year (h : d.year < e.year) : d.dayNumber < e.dayNumber :=
  d.dayNumber_lt.trans_le ((daysBeforeYear_strictMono.monotone h).trans e.le_dayNumber)

lemma dayNumber_lt_of_month (hy : d.year = e.year) (h : d.month < e.month) :
    d.dayNumber < e.dayNumber := by
  have hd := d.day_lt
  have hmono := daysBeforeMonth_mono d.year (show d.month + 1 ≤ e.month from h)
  rw [dayNumber, dayNumber, ← hy]
  omega

end Date

namespace DateTime

lemma instant_div (t : DateTime) : t.instant / 86400 = t.toDate.dayNumber := by
  have h1 := t.hour_lt
  have h2 := t.minute_lt
  have h3 := t.second_lt
  rw [instant]
  omega

lemma instant_injective (h : t.instant = u.instant) : t = u := by
  have hdate : t.toDate = u.toDate := Date.dayNumber_injective (by
    rw [← instant_div, ← instant_div, h])
  have ht' := t.minute_lt
  have ht'' := t.second_lt
  have hu' := u.minute_lt
  have hu'' := u.second_lt
  simp only [instant, hdate] at h
  refine DateTime.ext ?_ ?_ ?_ ?_ ?_ ?_
  · exact congrArg Date.year hdate
  · exact congrArg Date.month hdate
  · exact congrArg Date.day hdate
  all_goals omega

lemma exists_instant (n : ℕ) : ∃ t : DateTime, t.instant = n := by
  obtain ⟨d, hd⟩ := Date.exists_dayNumber (n / 86400)
  refine ⟨⟨d, n % 86400 / 3600, n % 3600 / 60, n % 60, by omega, by omega, by omega⟩, ?_⟩
  simp only [instant, hd]
  omega

lemma year_le_iff (t : DateTime) (y : ℕ) :
    t.year ≤ y ↔ t.instant < daysBeforeYear (y + 1) * 86400 := by
  have h1 := t.toDate.dayNumber_lt
  have h2 := t.toDate.le_dayNumber
  have hdiv := t.instant_div
  have hlt : t.instant < daysBeforeYear (y + 1) * 86400
      ↔ t.toDate.dayNumber < daysBeforeYear (y + 1) := by
    rw [← hdiv, Nat.div_lt_iff_lt_mul (by norm_num)]
  rw [hlt]
  constructor
  · intro h
    have := daysBeforeYear_strictMono.monotone (Nat.succ_le_succ h)
    exact h1.trans_le this
  · intro h
    have := daysBeforeYear_strictMono.lt_iff_lt.mp (h2.trans_lt h)
    exact Nat.lt_succ_iff.mp this

/-- The fields, the largest unit first. -/
def fields (t : DateTime) : List ℕ := [t.year, t.month, t.day, t.hour, t.minute, t.second]

lemma instant_lt_of_dayNumber (h : t.toDate.dayNumber < u.toDate.dayNumber) :
    t.instant < u.instant := by
  rw [← instant_div, ← instant_div] at h
  exact Nat.lt_of_div_lt_div h

lemma instant_lt_of_fields_lt (h : t.fields < u.fields) : t.instant < u.instant := by
  have ht := t.minute_lt
  have ht' := t.second_lt
  have hd := t.day_mem
  simp only [fields, List.cons_lt_cons_iff, List.not_lt_nil, and_false, or_false] at h
  rcases h with hy | ⟨hy, hm | ⟨hm, h⟩⟩
  · exact instant_lt_of_dayNumber (Date.dayNumber_lt_of_year hy)
  · exact instant_lt_of_dayNumber (Date.dayNumber_lt_of_month hy hm)
  · have hdate : t.toDate.dayNumber + u.day = u.toDate.dayNumber + t.day := by
      simp only [Date.dayNumber, hy, hm]
      omega
    have := t.hour_lt
    simp only [instant]
    omega

/-- The order of the fields, one after the other, is that of time. -/
lemma fields_lt_iff : t.fields < u.fields ↔ t.instant < u.instant := by
  refine ⟨instant_lt_of_fields_lt, fun h => ?_⟩
  rcases lt_trichotomy t.fields u.fields with hlt | heq | hgt
  · exact hlt
  · simp only [fields, List.cons.injEq, and_true] at heq
    have : t = u := DateTime.ext heq.1 heq.2.1 heq.2.2.1 heq.2.2.2.1 heq.2.2.2.2.1 heq.2.2.2.2.2
    exact absurd h (this ▸ lt_irrefl _)
  · exact absurd h (instant_lt_of_fields_lt hgt).asymm

end DateTime

end Calendar
