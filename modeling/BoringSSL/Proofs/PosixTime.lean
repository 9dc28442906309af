import BoringSSL.Asn1Time

/-!
# POSIX times and the calendar

`posix_time_from_utc` counts the days of the calendar (`posixDays_eq`), `utc_from_posix_time` finds
the date back (`utcFromDays_eq`), so `OPENSSL_gmtime_adj` moves a time by its offset
(`opensslGmtimeAdj_iff`).
-/

namespace BoringSSL

open ByteLib Calendar Option

variable {m : ℕ} {q : ℤ} {t : DateTime} {time d n : ℤ} {tm : Tm}

lemma era_eq (y : ℤ) : (if y ≥ 0 then y else y - 399).tdiv 400 = y / 400 := by
  split_ifs with h
  · exact Int.tdiv_eq_ediv_of_nonneg h
  · rw [show y - 399 = -(399 - y) by ring, Int.neg_tdiv, Int.tdiv_eq_ediv_of_nonneg (by omega)]
    omega

lemma eraOfDays_eq (n : ℤ) :
    (if n > 0 then n else n - 146096).tdiv 146097 = n / 146097 := by
  split_ifs with h
  · exact Int.tdiv_eq_ediv_of_nonneg (by omega)
  · rw [show n - 146096 = -(146096 - n) by ring, Int.neg_tdiv,
      Int.tdiv_eq_ediv_of_nonneg (by omega)]
    omega

lemma daysBeforeMonth_eq (y : ℕ) (h : 1 ≤ m ∧ m ≤ 12) :
    (daysBeforeMonth y m : ℤ) = (153 * (if (m : ℤ) > 2 then (m : ℤ) - 3 else m + 9) + 2) / 5
      + if m ≤ 2 then -306 else if IsLeap y then 60 else 59 := by
  obtain ⟨h1, h2⟩ := h
  interval_cases m <;> simp [daysBeforeMonth, daysInMonth] <;> split_ifs <;> norm_num

/-- A date in a year that starts on March 1 and ends with the leap day: the year, the month, the
day of the year and the count of days since 0000-03-01. -/
structure MarchDate (d : Date) (year month dayOfYear : ℤ) : Prop where
  year_eq : year = if (d.month : ℤ) ≤ 2 then (d.year : ℤ) - 1 else d.year
  month_eq : month = if (d.month : ℤ) > 2 then (d.month : ℤ) - 3 else d.month + 9
  day_eq : dayOfYear = (153 * month + 2) / 5 + d.day - 1
  month_of_day : (5 * dayOfYear + 2) / 153 = month
  number : (d.dayNumber : ℤ) - 60 = year * 365 + year / 4 - year / 100 + year / 400 + dayOfYear
  nonneg : 0 ≤ dayOfYear
  le : dayOfYear ≤ 365
  leap : dayOfYear = 365 → (year + 1) % 4 = 0 ∧ ((year + 1) % 100 ≠ 0 ∨ (year + 1) % 400 = 0)

lemma daysInMonth_two (y : ℕ) : daysInMonth y 2 ≤ 29 ∧ (daysInMonth y 2 = 29 → IsLeap y) := by
  simp only [daysInMonth]
  split_ifs with h <;> simp [h]

lemma dayOfYear_bounds (d : Date) :
    let month : ℤ := if (d.month : ℤ) > 2 then (d.month : ℤ) - 3 else d.month + 9
    let dayOfYear : ℤ := (153 * month + 2) / 5 + d.day - 1
    (5 * dayOfYear + 2) / 153 = month ∧ 0 ≤ dayOfYear ∧ dayOfYear ≤ 365
      ∧ (dayOfYear = 365 → d.month = 2 ∧ IsLeap d.year) := by
  obtain ⟨y, m, day, ⟨h1, h2⟩, hd⟩ := d
  have hfeb := daysInMonth_two y
  interval_cases m
  case «2» =>
    refine ⟨by simp; omega, by simp; omega, by simp; omega, fun h => ⟨rfl, hfeb.2 ?_⟩⟩
    simp at h
    omega
  all_goals
    simp only [daysInMonth] at hd
    simp
    omega

lemma exists_marchDate (d : Date) : ∃ year month dayOfYear, MarchDate d year month dayOfYear := by
  obtain ⟨hmonth, h0, h365, hleap⟩ := dayOfYear_bounds d
  refine ⟨_, _, _, rfl, rfl, rfl, hmonth, ?_, h0, h365, fun h => ?_⟩
  · clear hmonth
    have hy := daysBeforeYear_eq d.year
    have hm := daysBeforeMonth_eq d.year d.month_mem
    have hd := d.day_mem
    have hnum : (d.dayNumber : ℤ)
        = daysBeforeYear d.year + daysBeforeMonth d.year d.month + (d.day - 1) := by
      unfold Date.dayNumber
      omega
    rw [hnum, hm]
    unfold IsLeap
    split_ifs <;> omega
  · obtain ⟨hm, hl⟩ := hleap h
    unfold IsLeap at hl
    omega

lemma posixDays_eq (d : Date) :
    posixDays d.year d.month d.day = (d.dayNumber : ℤ) - 719528 := by
  obtain ⟨year, month, dayOfYear, h⟩ := exists_marchDate d
  have hera : (year - year / 400 * 400).tdiv 4 = (year - year / 400 * 400) / 4 :=
    Int.tdiv_eq_ediv_of_nonneg (by omega)
  have hcent : (year - year / 400 * 400).tdiv 100 = (year - year / 400 * 400) / 100 :=
    Int.tdiv_eq_ediv_of_nonneg (by omega)
  have hmonth : 0 ≤ month := by
    have := d.month_mem
    rw [h.month_eq]
    split_ifs <;> omega
  have hday : (153 * month + 2).tdiv 5 = (153 * month + 2) / 5 :=
    Int.tdiv_eq_ediv_of_nonneg (by omega)
  have hnum := h.number
  have h4 : year / 4 = 100 * (year / 400) + (year - year / 400 * 400) / 4 := by omega
  simp only [posixDays, ← h.year_eq, ← h.month_eq, era_eq, hera, hcent, hday]
  have hdoy := h.day_eq
  omega

lemma yearOfEra_eq {yearOfEra dayOfYear dayOfEra : ℤ} (h0 : 0 ≤ yearOfEra) (h1 : yearOfEra ≤ 399)
    (h2 : 0 ≤ dayOfYear) (h3 : dayOfYear ≤ 365)
    (h4 : dayOfYear = 365 →
      (yearOfEra + 1) % 4 = 0 ∧ ((yearOfEra + 1) % 100 ≠ 0 ∨ (yearOfEra + 1) % 400 = 0))
    (hd : dayOfEra = yearOfEra * 365 + yearOfEra / 4 - yearOfEra / 100 + dayOfYear) :
    (dayOfEra - dayOfEra / 1460 + dayOfEra / 36524 - dayOfEra / 146096) / 365 = yearOfEra := by
  by_cases hlast : dayOfEra = 146096
  · subst hlast
    omega
  have hera : dayOfEra / 146096 = 0 := by omega
  -- A century has 36524 days and the last one of the era one more.
  have hcent : dayOfEra / 36524 = yearOfEra / 100 := by
    have hq : yearOfEra / 4 = 25 * (yearOfEra / 100) + yearOfEra % 100 / 4 := by omega
    have hrest : yearOfEra % 100 ≤ 98 ∨ dayOfYear ≤ 364 := by omega
    omega
  have hquad : dayOfEra / 1460 = yearOfEra / 4 ∨ dayOfEra / 1460 = yearOfEra / 4 + 1 := by omega
  have hk0 : dayOfEra / 1460 = yearOfEra / 4 → dayOfYear ≤ 364 := by omega
  have hk1 : dayOfEra / 1460 = yearOfEra / 4 + 1 → 1 ≤ dayOfYear := by omega
  omega

lemma utcFromDays_eq (d : Date) :
    utcFromDays ((d.dayNumber : ℤ) - 60) = ((d.year : ℤ), (d.month : ℤ), (d.day : ℤ)) := by
  obtain ⟨year, month, dayOfYear, h⟩ := exists_marchDate d
  have hmonth := h.month_of_day
  have hnum := h.number
  have hyear := h.year_eq
  have hday := h.day_eq
  have h0 := h.nonneg
  have h365 := h.le
  have hleap := h.leap
  -- The era, and the year and day in it.
  obtain ⟨dayOfEra, hdoe⟩ : ∃ e, e = (d.dayNumber : ℤ) - 60 - year / 400 * 146097 := ⟨_, rfl⟩
  have h4 : year / 4 = 100 * (year / 400) + year % 400 / 4 := by omega
  have hsum : dayOfEra = year % 400 * 365 + year % 400 / 4 - year % 400 / 100 + dayOfYear := by
    omega
  have hera : ((d.dayNumber : ℤ) - 60) / 146097 = year / 400 := by omega
  have hyoe := yearOfEra_eq (by omega) (by omega) h0 h365 (by omega) hsum
  have htdiv : ∀ {a b : ℤ}, 0 ≤ a → a.tdiv b = a / b := fun ha => Int.tdiv_eq_ediv_of_nonneg ha
  have hdoe0 : 0 ≤ dayOfEra := by omega
  have hdoy : dayOfEra - (365 * (year % 400) + year % 400 / 4 - year % 400 / 100) = dayOfYear := by
    omega
  have hyoe0 : 0 ≤ dayOfEra - dayOfEra / 1460 + dayOfEra / 36524 - dayOfEra / 146096 := by omega
  simp only [utcFromDays, eraOfDays_eq, hera, ← hdoe, htdiv hdoe0, htdiv hyoe0, hyoe,
    htdiv (show 0 ≤ year % 400 by omega), hdoy, htdiv (show 0 ≤ 5 * dayOfYear + 2 by omega), hmonth]
  have hm := d.month_mem
  obtain rfl := h.month_eq
  by_cases hmar : (d.month : ℤ) > 2
  · have hlt : (d.month : ℤ) - 3 < 10 := by omega
    have hjan : ¬ (d.month : ℤ) - 3 + 3 ≤ 2 := by omega
    simp only [if_pos hmar, if_pos hlt, if_neg hjan, Prod.mk.injEq] at hday ⊢
    rw [if_neg (by omega)] at hyear
    rw [htdiv (by omega)]
    omega
  · have hlt : ¬ (d.month : ℤ) + 9 < 10 := by omega
    have hjan : (d.month : ℤ) + 9 - 9 ≤ 2 := by omega
    simp only [if_neg hmar, if_neg hlt, if_pos hjan, Prod.mk.injEq] at hday ⊢
    rw [if_pos (by omega)] at hyear
    rw [htdiv (by omega)]
    omega

lemma year_le_iff_posix (t : DateTime) :
    t.year ≤ 9999 ↔ (t.instant : ℤ) - 62167219200 ≤ maxPosixTime := by
  have hn : daysBeforeYear (9999 + 1) = 3652425 := by
    have := daysBeforeYear_eq (9999 + 1)
    omega
  rw [t.year_le_iff, hn, maxPosixTime]
  omega

lemma dayFitsMonth_iff {y day : ℕ} (hm : 1 ≤ m ∧ m ≤ 12) :
    dayFitsMonth y m day = true ↔ day ≤ daysInMonth y m := by
  have hmod : ∀ k : ℕ, ((y : ℤ).tmod k = 0 ↔ y % k = 0) := by
    intro k
    rw [← Int.ofNat_tmod]
    norm_cast
  have hleap : ((y : ℤ).tmod 4 = 0 ∧ (y : ℤ).tmod 100 ≠ 0) ∨ (y : ℤ).tmod 400 = 0 ↔ IsLeap y := by
    have h4 := hmod 4
    have h100 := hmod 100
    have h400 := hmod 400
    push_cast at h4 h100 h400
    rw [IsLeap, h4, Ne, h100, h400]
  obtain ⟨h1, h2⟩ := hm
  interval_cases m <;> simp [dayFitsMonth, daysInMonth]
  rw [if_congr hleap rfl rfl]
  split_ifs <;> simp

lemma opensslTmToPosix_eq (h : t.year ≤ 9999) :
    opensslTmToPosix (tmOf t) = some ((t.instant : ℤ) - 62167219200) := by
  have hdays := posixDays_eq t.toDate
  have hfits := (dayFitsMonth_iff t.month_mem).mpr t.day_mem.2
  have hm := t.month_mem
  have hd := t.day_mem
  have hhour := t.hour_lt
  have hmin := t.minute_lt
  have hsec := t.second_lt
  have hdate : isValidDate t.year t.month t.day = true := by
    rw [isValidDate, if_neg (by omega), hfits]
    simp
    omega
  have htime : isValidTime t.hour t.minute t.second = true := by
    simp [isValidTime]
    omega
  simp only [opensslTmToPosix, tmOf, sub_add_cancel, posixTimeFromUtc, hdate, htime, Bool.not_true,
    Bool.or_false, Bool.false_eq_true, if_false, hdays, secsPerDay, secsPerHour, Option.some.injEq,
    DateTime.instant]
  push_cast
  ring

/-- The day of a time and the seconds into it, as `utc_from_posix_time` corrects the rounding. -/
lemma floorDay (time : ℤ) :
    (if time.tmod secsPerDay < 0 then (time.tdiv secsPerDay - 1, time.tmod secsPerDay + secsPerDay)
      else (time.tdiv secsPerDay, time.tmod secsPerDay)) = (time / 86400, time % 86400) := by
  have hday : secsPerDay = 86400 := rfl
  rw [hday]
  rcases Int.le_total 0 time with h | h
  · rw [Int.tmod_eq_emod_of_nonneg h, Int.tdiv_eq_ediv_of_nonneg h, if_neg (by omega)]
  · obtain ⟨m, rfl⟩ : ∃ m, time = -m := ⟨-time, by omega⟩
    rw [Int.neg_tmod, Int.neg_tdiv, Int.tmod_eq_emod_of_nonneg (by omega),
      Int.tdiv_eq_ediv_of_nonneg (by omega)]
    split_ifs with hneg <;> simp only [Prod.mk.injEq] <;> omega

lemma opensslPosixToTm_eq (h : t.year ≤ 9999) :
    opensslPosixToTm ((t.instant : ℤ) - 62167219200) = some (tmOf t) := by
  have hdays := utcFromDays_eq t.toDate
  have hmax := (year_le_iff_posix t).mp h
  have hvalid : isValidPosixTime ((t.instant : ℤ) - 62167219200) = true := by
    rw [isValidPosixTime, Bool.and_eq_true, decide_eq_true_eq, decide_eq_true_eq]
    exact ⟨by rw [minPosixTime]; omega, hmax⟩
  have hhour := t.hour_lt
  have hmin := t.minute_lt
  have hsec := t.second_lt
  have hdate : t.instant
      = t.toDate.dayNumber * 86400 + (t.hour * 3600 + t.minute * 60 + t.second) := rfl
  obtain ⟨n, hn⟩ : ∃ n : ℤ, n = (t.instant : ℤ) - 62167219200 := ⟨_, rfl⟩
  have hsplit := floorDay n
  have hday : n / 86400 = (t.toDate.dayNumber : ℤ) - 719528 := by omega
  have hsecs : n % 86400 = (t.hour : ℤ) * 3600 + t.minute * 60 + t.second := by omega
  have hshift : (t.toDate.dayNumber : ℤ) - 719528 + 719468 = t.toDate.dayNumber - 60 := by omega
  have hsec0 : 0 ≤ (t.hour : ℤ) * 3600 + t.minute * 60 + t.second := by omega
  rw [← hn] at hvalid ⊢
  simp only [opensslPosixToTm, utcFromPosixTime, hvalid, Bool.not_true, Bool.false_eq_true,
    if_false, hsplit, hday, hsecs, hshift, hdays, map_some, Option.some.injEq, tmOf, Tm.mk.injEq,
    secsPerHour, true_and]
  rw [Int.tdiv_eq_ediv_of_nonneg hsec0, Int.tmod_eq_emod_of_nonneg hsec0,
    Int.tdiv_eq_ediv_of_nonneg (by omega), Int.tmod_eq_emod_of_nonneg (by omega)]
  omega

lemma opensslPosixToTm_none (h : ¬ (minPosixTime ≤ time ∧ time ≤ maxPosixTime)) :
    opensslPosixToTm time = none := by
  have hvalid : isValidPosixTime time = false := by
    rw [isValidPosixTime, ← Bool.decide_and, decide_eq_false h]
  simp [opensslPosixToTm, utcFromPosixTime, hvalid]

lemma exists_dateTime (h : minPosixTime ≤ time ∧ time ≤ maxPosixTime) :
    ∃ t : DateTime, t.year ≤ 9999 ∧ time = (t.instant : ℤ) - 62167219200 := by
  obtain ⟨t, ht⟩ := DateTime.exists_instant (time + 62167219200).toNat
  have htime : time = (t.instant : ℤ) - 62167219200 := by
    have hmin := h.1
    rw [minPosixTime] at hmin
    omega
  exact ⟨t, (year_le_iff_posix t).mpr (htime ▸ h.2), htime⟩

lemma opensslPosixToTm_mem (h : opensslPosixToTm time = some tm) :
    minPosixTime ≤ time ∧ time ≤ maxPosixTime := by
  by_contra hn
  rw [opensslPosixToTm_none hn] at h
  cases h

lemma opensslPosixToTm_iff : opensslPosixToTm time = some tm ↔
    ∃ t : DateTime, t.year ≤ 9999 ∧ tm = tmOf t ∧ (t.instant : ℤ) = time + 62167219200 := by
  constructor
  · intro h
    obtain ⟨t, hyear, rfl⟩ := exists_dateTime (opensslPosixToTm_mem h)
    rw [opensslPosixToTm_eq hyear, Option.some.injEq] at h
    exact ⟨t, hyear, h.symm, by omega⟩
  · rintro ⟨t, hyear, rfl, ht⟩
    rw [← opensslPosixToTm_eq hyear]
    congr 1
    omega

lemma opensslGmtimeAdj_eq_some {tm' : Tm} :
    opensslGmtimeAdj tm d n = some tm' ↔ ∃ time, opensslTmToPosix tm = some time
      ∧ opensslPosixToTm (time + d * 86400 + n) = some tm' := by
  have hday : secsPerDay = 86400 := rfl
  rw [opensslGmtimeAdj, bind_eq_some_iff, hday]
  refine exists_congr fun time => and_congr_right fun _ => ?_
  by_cases habove : time + d * 86400 > 0 ∧ n > int64Max - (time + d * 86400)
  · rw [if_pos habove, opensslPosixToTm_none]
    rw [int64Max] at habove
    rw [maxPosixTime]
    omega
  by_cases hbelow : time + d * 86400 < 0 ∧ n < int64Min - (time + d * 86400)
  · rw [if_neg habove, if_pos hbelow, opensslPosixToTm_none]
    rw [int64Min] at hbelow
    rw [minPosixTime]
    omega
  rw [if_neg habove, if_neg hbelow]

lemma opensslGmtimeAdj_iff (h : t.year ≤ 9999) :
    opensslGmtimeAdj (tmOf t) d n = some tm ↔
      ∃ u : DateTime, u.year ≤ 9999 ∧ tm = tmOf u
        ∧ (u.instant : ℤ) = t.instant + d * 86400 + n := by
  have hinstant : ∀ u : DateTime, (u.instant : ℤ) = t.instant - 62167219200 + d * 86400 + n
      + 62167219200 ↔ (u.instant : ℤ) = t.instant + d * 86400 + n := by omega
  simp only [opensslGmtimeAdj_eq_some, opensslTmToPosix_eq h, Option.some.injEq,
    exists_eq_left', opensslPosixToTm_iff, hinstant]

lemma exists_tmOf (h : opensslTmToPosix tm = some time) :
    ∃ t : DateTime, t.year ≤ 9999 ∧ tm = tmOf t := by
  obtain ⟨year, mon, day, hour, min, sec⟩ := tm
  simp only [opensslTmToPosix, posixTimeFromUtc] at h
  split_ifs at h with hinvalid
  simp only [Bool.or_eq_true, Bool.not_eq_true', not_or, Bool.not_eq_false, isValidDate,
    isValidTime] at hinvalid
  obtain ⟨hdate, htime⟩ := hinvalid
  split_ifs at hdate with hneg
  simp only [Bool.and_eq_true, decide_eq_true_eq] at hdate
  simp only [Bool.or_eq_false_iff, decide_eq_false_iff_not] at htime
  have hmonth : mon + 1 ≤ 12 := by
    by_contra hbig
    have hfits := hdate.2
    simp only [dayFitsMonth, List.mem_cons, List.not_mem_nil, or_false] at hfits
    rw [if_neg (by omega), if_neg (by omega), if_neg (by omega)] at hfits
    cases hfits
  obtain ⟨y, hy⟩ := Int.eq_ofNat_of_zero_le (show 0 ≤ year + 1900 by omega)
  obtain ⟨m, hm⟩ := Int.eq_ofNat_of_zero_le (show 0 ≤ mon + 1 by omega)
  obtain ⟨d, rfl⟩ := Int.eq_ofNat_of_zero_le (show 0 ≤ day by omega)
  obtain ⟨hh, rfl⟩ := Int.eq_ofNat_of_zero_le (show 0 ≤ hour by omega)
  obtain ⟨mi, rfl⟩ := Int.eq_ofNat_of_zero_le (show 0 ≤ min by omega)
  obtain ⟨s, rfl⟩ := Int.eq_ofNat_of_zero_le (show 0 ≤ sec by omega)
  rw [hy, hm] at hdate
  have hfits : d ≤ daysInMonth y m := (dayFitsMonth_iff (by omega)).mp hdate.2
  refine ⟨⟨⟨y, m, d, by omega, by omega, hfits⟩, hh, mi, s, by omega, by omega, by omega⟩, ?_, ?_⟩
  · show y ≤ 9999
    omega
  · rw [tmOf, Tm.mk.injEq]
    exact ⟨by simp only; omega, by simp only; omega, rfl, rfl, rfl, rfl⟩

lemma checkInt64_eq {v : ℤ} (h : int64Min ≤ v ∧ v ≤ int64Max) : checkInt64 v = some v := if_pos h

lemma sumAbove_eq (h : int64Min ≤ q ∧ q ≤ int64Max) :
    sumAbove q n = some (decide (q > 0 ∧ n > int64Max - q)) := by
  rw [int64Min, int64Max] at h
  by_cases hpos : q > 0
  · rw [sumAbove, if_pos hpos, checkInt64_eq (by rw [int64Min, int64Max]; omega)]
    simp [hpos]
  · simp [sumAbove, hpos]

lemma sumBelow_eq (h : int64Min ≤ q ∧ q ≤ int64Max) :
    sumBelow q n = some (decide (q < 0 ∧ n < int64Min - q)) := by
  rw [int64Min, int64Max] at h
  by_cases hneg : q < 0
  · rw [sumBelow, if_pos hneg, checkInt64_eq (by rw [int64Min, int64Max]; omega)]
    simp [hneg]
  · simp [sumBelow, hneg]

/-- No operation of `OPENSSL_gmtime_adj` overflows, and a call that fails leaves `*tm` alone. -/
lemma opensslGmtimeAdjChecked_eq (tm : Tm) (hd : -2 ^ 31 ≤ d ∧ d < 2 ^ 31)
    (hn : int64Min ≤ n ∧ n ≤ int64Max) :
    opensslGmtimeAdjChecked tm d n
      = some (((opensslGmtimeAdj tm d n).isSome), (opensslGmtimeAdj tm d n).getD tm) := by
  have hday : secsPerDay = 86400 := rfl
  cases hp : opensslTmToPosix tm with
  | none => simp [opensslGmtimeAdjChecked, opensslGmtimeAdj, hp]
  | some p =>
    obtain ⟨t, hyear, rfl⟩ := exists_tmOf hp
    have hmax := (year_le_iff_posix t).mp hyear
    rw [opensslTmToPosix_eq hyear, Option.some.injEq] at hp
    rw [maxPosixTime, hp] at hmax
    rw [opensslGmtimeAdjChecked, opensslGmtimeAdj, opensslTmToPosix_eq hyear, hp, bind_some, hday]
    have hoffset := checkInt64_eq (show int64Min ≤ d * 86400 ∧ d * 86400 ≤ int64Max by
      rw [int64Min, int64Max]; omega)
    have hsum := checkInt64_eq (show int64Min ≤ p + d * 86400 ∧ p + d * 86400 ≤ int64Max by
      rw [int64Min, int64Max]; omega)
    simp only [bind_eq_bind, hoffset, hsum, bind_some]
    obtain ⟨q, hq⟩ : ∃ q, q = p + d * 86400 := ⟨_, rfl⟩
    rw [← hq] at hsum ⊢
    have hrange : int64Min ≤ q ∧ q ≤ int64Max := by
      rw [int64Min, int64Max]
      omega
    simp only [sumAbove_eq hrange, sumBelow_eq hrange, bind_some, decide_eq_true_eq]
    by_cases hup : q > 0 ∧ n > int64Max - q
    · simp [hup]
    by_cases hdown : q < 0 ∧ n < int64Min - q
    · rw [if_neg hup, if_pos hdown, if_neg hup, if_pos hdown]
      rfl
    rw [if_neg hup, if_neg hdown, if_neg hup, if_neg hdown, checkInt64_eq (by omega), bind_some]
    cases opensslPosixToTm (q + n) <;> rfl

def epoch : Date := ⟨1970, 1, 1, by decide, by decide⟩

/-- The seconds from the epoch, by the days of the years and months between. -/
def secondsSinceEpoch (t : DateTime) : ℤ :=
  86400 * ((t.toDate.dayNumber : ℤ) - epoch.dayNumber) + (t.hour * 3600 + t.minute * 60 + t.second)

lemma secondsSinceEpoch_eq (t : DateTime) :
    secondsSinceEpoch t = (t.instant : ℤ) - 62167219200 := by
  have hepoch : epoch.dayNumber = 719528 := by
    have := posixDays_eq epoch
    have hzero : posixDays epoch.year epoch.month epoch.day = 0 := by decide
    omega
  rw [secondsSinceEpoch, DateTime.instant, hepoch]
  push_cast
  ring

lemma secondsSinceEpoch_mem_iff (t : DateTime) :
    minPosixTime ≤ secondsSinceEpoch t ∧ secondsSinceEpoch t ≤ maxPosixTime ↔ t.year ≤ 9999 := by
  rw [year_le_iff_posix, secondsSinceEpoch_eq, minPosixTime]
  omega

/-- Times in range and dates of the years 0 to 9999 correspond, and an adjustment is the sum of the
seconds. -/
theorem posix_tm_bijection :
    (∀ time, minPosixTime ≤ time ∧ time ≤ maxPosixTime → ∃ t : DateTime, t.year ≤ 9999
      ∧ opensslPosixToTm time = some (tmOf t) ∧ opensslTmToPosix (tmOf t) = some time)
    ∧ (∀ tm, (opensslTmToPosix tm).isSome = true ↔ ∃ t : DateTime, t.year ≤ 9999 ∧ tm = tmOf t)
    ∧ (∀ t : DateTime, t.year ≤ 9999 → opensslTmToPosix (tmOf t) = some (secondsSinceEpoch t)
      ∧ (minPosixTime ≤ secondsSinceEpoch t ∧ secondsSinceEpoch t ≤ maxPosixTime)
      ∧ opensslPosixToTm (secondsSinceEpoch t) = some (tmOf t))
    ∧ (∀ tm d s, -2 ^ 31 ≤ d ∧ d < 2 ^ 31 → int64Min ≤ s ∧ s ≤ int64Max →
      ∃ ok tm', opensslGmtimeAdjChecked tm d s = some (ok, tm')
        ∧ (ok = false → tm' = tm)
        ∧ (ok = true ↔ ∃ time, opensslTmToPosix tm = some time
          ∧ minPosixTime ≤ time + d * 86400 + s ∧ time + d * 86400 + s ≤ maxPosixTime)
        ∧ (ok = true → ∃ time, opensslTmToPosix tm = some time
          ∧ opensslPosixToTm (time + d * 86400 + s) = some tm')) := by
  have hto : ∀ {t : DateTime}, t.year ≤ 9999 →
      opensslTmToPosix (tmOf t) = some (secondsSinceEpoch t) := by
    intro t h
    rw [opensslTmToPosix_eq h, secondsSinceEpoch_eq]
  have hfrom : ∀ {t : DateTime}, t.year ≤ 9999 →
      opensslPosixToTm (secondsSinceEpoch t) = some (tmOf t) := by
    intro t h
    rw [secondsSinceEpoch_eq, opensslPosixToTm_eq h]
  refine ⟨fun time htime => ?_, fun tm => ⟨fun h => ?_, ?_⟩,
    fun t ht => ⟨hto ht, (secondsSinceEpoch_mem_iff t).mpr ht, hfrom ht⟩, fun tm d s hd hs => ?_⟩
  · obtain ⟨t, ht, rfl⟩ := exists_dateTime htime
    exact ⟨t, ht, opensslPosixToTm_eq ht, opensslTmToPosix_eq ht⟩
  · obtain ⟨time, htime⟩ := isSome_iff_exists.mp h
    exact exists_tmOf htime
  · rintro ⟨t, ht, rfl⟩
    rw [hto ht]
    rfl
  · refine ⟨_, _, opensslGmtimeAdjChecked_eq tm hd hs, ?_, ?_, ?_⟩
    · intro hok
      rw [isSome_eq_false_iff, isNone_iff_eq_none] at hok
      rw [hok, getD_none]
    · rw [isSome_iff_exists]
      simp only [opensslGmtimeAdj_eq_some]
      constructor
      · rintro ⟨tm', time, htime, hposix⟩
        exact ⟨time, htime, opensslPosixToTm_mem hposix⟩
      · rintro ⟨time, htime, hrange⟩
        obtain ⟨u, hu, hsum⟩ := exists_dateTime hrange
        exact ⟨tmOf u, time, htime, by rw [hsum, opensslPosixToTm_eq hu]⟩
    · intro hok
      obtain ⟨tm', htm'⟩ := isSome_iff_exists.mp hok
      rw [htm', getD_some]
      exact opensslGmtimeAdj_eq_some.mp htm'

/-- From the leap day of the year 2000, a year and a day back and a second on. -/
theorem posix_tm_bijection_leapDay :
    opensslTmToPosix ⟨100, 1, 29, 23, 59, 59⟩ = some 951868799
      ∧ (∃ t : DateTime, t.year ≤ 9999 ∧ opensslPosixToTm 951868799 = some (tmOf t)
        ∧ opensslTmToPosix (tmOf t) = some 951868799)
      ∧ ∃ tm', opensslGmtimeAdjChecked ⟨100, 1, 29, 23, 59, 59⟩ (-366) 1 = some (true, tm') := by
  obtain ⟨hto, -, -, hadj⟩ := posix_tm_bijection
  refine ⟨by decide, hto 951868799 (by decide), ?_⟩
  obtain ⟨ok, tm', hok, -, hiff, -⟩ :=
    hadj ⟨100, 1, 29, 23, 59, 59⟩ (-366) 1 (by decide) (by decide)
  have htrue : ok = true := hiff.mpr ⟨951868799, by decide, by decide⟩
  exact ⟨tm', htrue ▸ hok⟩

end BoringSSL
