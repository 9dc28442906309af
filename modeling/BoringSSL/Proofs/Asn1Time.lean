import BoringSSL.Proofs.Cbs
import BoringSSL.Proofs.PosixTime

/-!
# ASN.1 times

The parser reads exactly the texts of times and adds the offset of the zone to the local time
(`cbsParse_iff`).  X.680 has it subtracted.  Where the fields are not asked for, the offset is not
applied, so the time it leads to may be out of range.
-/

namespace BoringSSL

open ByteLib Calendar

variable {cbs : Bytes} {v n : ℤ} {isGentime allow : Bool} {tm : Tm} {rest : Bytes}

lemma guard_eq_some {p : Prop} [Decidable p] {u : Unit} : guard p = some u ↔ p := by
  by_cases h : p <;> simp [h, guard]

lemma cbsGetTwoDigits_eq_some :
    cbsGetTwoDigits cbs = some (v, rest) ↔
      ∃ n : ℕ, n < 100 ∧ v = n ∧ cbs = twoDigits n ++ rest := by
  simp only [cbsGetTwoDigits, bind, pure, Option.bind_eq_some_iff, Prod.exists, cbsGetU8_eq_some,
    guard_eq_some, opensslIsdigit_iff, Option.some.injEq, Prod.mk.injEq]
  constructor
  · rintro ⟨-, r, rfl, -, ⟨a, ha, rfl⟩, -, -, rfl, -, ⟨b, hb, rfl⟩, rfl, rfl⟩
    rw [digit_toNat ha, digit_toNat hb]
    have hdiv : (a * 10 + b) / 10 = a := by omega
    have hmod : (a * 10 + b) % 10 = b := by omega
    refine ⟨a * 10 + b, by omega, by push_cast; ring, ?_⟩
    rw [twoDigits, hdiv, hmod]
    rfl
  · rintro ⟨n, hn, rfl, rfl⟩
    refine ⟨_, _, rfl, (), ⟨n / 10, by omega, rfl⟩, _, _, rfl, (), ⟨n % 10, by omega, rfl⟩, ?_, rfl⟩
    rw [digit_toNat (by omega), digit_toNat (by omega)]
    omega

lemma parseYear_eq_some :
    parseYear isGentime cbs = some (v, rest) ↔ ∃ y : ℕ, YearOk isGentime y ∧ v = y
      ∧ cbs = (if isGentime then twoDigits (y / 100) else []) ++ twoDigits (y % 100) ++ rest := by
  cases isGentime with
  | true =>
    simp only [parseYear, if_true, bind, pure, Option.bind_eq_some_iff, Prod.exists,
      cbsGetTwoDigits_eq_some, Option.some.injEq, Prod.mk.injEq, YearOk]
    constructor
    · rintro ⟨-, r, ⟨a, ha, rfl, rfl⟩, -, -, ⟨b, hb, rfl, rfl⟩, rfl, rfl⟩
      have hdiv : (a * 100 + b) / 100 = a := by omega
      have hmod : (a * 100 + b) % 100 = b := by omega
      exact ⟨a * 100 + b, by omega, by push_cast; ring, by rw [hdiv, hmod, List.append_assoc]⟩
    · rintro ⟨y, hy, rfl, rfl⟩
      exact ⟨_, _, ⟨y / 100, by omega, rfl, List.append_assoc _ _ _⟩, _, _,
        ⟨y % 100, by omega, rfl, rfl⟩, by omega, rfl⟩
  | false =>
    simp only [parseYear, Bool.false_eq_true, if_false, bind, pure, Option.bind_eq_some_iff,
      Prod.exists, cbsGetTwoDigits_eq_some, guard_eq_some, Option.some.injEq, Prod.mk.injEq, YearOk,
      List.nil_append]
    constructor
    · rintro ⟨-, r, ⟨a, ha, rfl, rfl⟩, -, -, rfl, rfl⟩
      by_cases hlt : (1900 : ℤ) + a < 1950
      · refine ⟨2000 + a, by omega, by rw [if_pos hlt]; push_cast; ring, ?_⟩
        rw [show (2000 + a) % 100 = a by omega]
      · refine ⟨1900 + a, by omega, by rw [if_neg hlt]; push_cast; ring, ?_⟩
        rw [show (1900 + a) % 100 = a by omega]
    · rintro ⟨y, hy, rfl, rfl⟩
      have hyear : (if (1900 : ℤ) + (y % 100 : ℕ) < 1950 then 1900 + ((y % 100 : ℕ) : ℤ) + 100
          else 1900 + ((y % 100 : ℕ) : ℤ)) = y := by
        split_ifs <;> omega
      exact ⟨_, _, ⟨y % 100, by omega, rfl, rfl⟩, (), by rw [hyear]; omega, hyear, rfl⟩

lemma daysInMonth_le (y m : ℕ) : daysInMonth y m ≤ 31 := by
  unfold daysInMonth
  split <;> (try split_ifs) <;> omega

/-- The fields up to the zone are read from the text of a date and time, and from no other. -/
lemma parseFields_eq_some :
    parseFields isGentime cbs = some (tm, rest) ↔ ∃ t : DateTime, YearOk isGentime t.year
      ∧ tm = tmOf t ∧ cbs = fieldsText isGentime t ++ rest := by
  simp only [parseFields, bind, pure, Option.bind_eq_some_iff, Prod.exists, parseYear_eq_some,
    cbsGetTwoDigits_eq_some, guard_eq_some, Option.some.injEq, Prod.mk.injEq]
  constructor
  · rintro ⟨-, r, ⟨y, hy, rfl, rfl⟩, -, -, ⟨m, -, rfl, rfl⟩, -, hm, -, -, ⟨d, -, rfl, rfl⟩, -, hd,
      -, -, ⟨h, -, rfl, rfl⟩, -, hh, -, -, ⟨mi, -, rfl, rfl⟩, -, hmi, -, -, ⟨s, -, rfl, rfl⟩, -, hs,
      rfl, rfl⟩
    have hm' : 1 ≤ m ∧ m ≤ 12 := by omega
    rw [isValidDay] at hd
    split_ifs at hd with hd1
    rw [dayFitsMonth_iff hm'] at hd
    exact ⟨⟨⟨y, m, d, hm', by omega, hd⟩, h, mi, s, by omega, by omega, by omega⟩, hy, rfl, by
      simp [fieldsText]⟩
  · rintro ⟨t, hy, rfl, rfl⟩
    have hm := t.month_mem
    have hd := t.day_mem
    have hdle : daysInMonth t.year t.month ≤ 31 := daysInMonth_le _ _
    have hh := t.hour_lt
    have hmi := t.minute_lt
    have hs := t.second_lt
    have hvalid : isValidDay t.year t.month t.day = true := by
      rw [isValidDay, if_neg (by omega)]
      exact (dayFitsMonth_iff hm).mpr hd.2
    exact ⟨_, _, ⟨t.year, hy, rfl, by simp only [fieldsText, List.append_assoc]⟩,
      _, _, ⟨t.month, by omega, rfl, rfl⟩, (), by omega, _, _, ⟨t.day, by omega, rfl, rfl⟩, (),
      hvalid, _, _, ⟨t.hour, by omega, rfl, rfl⟩, (), by omega, _, _,
      ⟨t.minute, by omega, rfl, rfl⟩, (), by omega, _, _, ⟨t.second, by omega, rfl, rfl⟩, (),
      by omega, rfl, rfl⟩

lemma parseOffset_eq_some {sign : ℤ} (hsign : sign ≠ 0) :
    parseOffset sign allow cbs = some (n, rest) ↔ allow = true ∧ ∃ hours minutes : ℕ,
      hours ≤ 23 ∧ minutes ≤ 59 ∧ cbs = twoDigits hours ++ twoDigits minutes ++ rest
        ∧ n = sign * ((hours : ℤ) * 3600 + (minutes : ℤ) * 60) := by
  rw [parseOffset, if_pos hsign]
  simp only [bind, pure, Option.bind_eq_some_iff, Prod.exists, cbsGetTwoDigits_eq_some,
    guard_eq_some, Option.some.injEq, Prod.mk.injEq]
  constructor
  · rintro ⟨-, hallow, -, r, ⟨h, -, rfl, rfl⟩, -, hh, -, -, ⟨m, -, rfl, rfl⟩, -, hm, rfl, rfl⟩
    exact ⟨hallow, h, m, by omega, by omega, by rw [List.append_assoc], rfl⟩
  · rintro ⟨hallow, h, m, hh, hm, rfl, rfl⟩
    exact ⟨(), hallow, _, _, ⟨h, by omega, rfl, List.append_assoc _ _ _⟩, (), by omega, _, _,
      ⟨m, by omega, rfl, rfl⟩, (), by omega, rfl, rfl⟩

lemma parseZone : (∃ tz r, cbs = tz :: r ∧ ∃ sign, offsetSignOf tz = some sign
        ∧ parseOffset sign allow r = some (n, rest)) ↔
      ∃ z : Zone, (z ≠ .utc → allow = true) ∧ cbs = z.text ++ rest ∧ n = z.seconds := by
  constructor
  · rintro ⟨tz, r, rfl, sign, hsign, hoff⟩
    rw [offsetSignOf] at hsign
    split_ifs at hsign with hZ hplus hminus
    · cases hsign
      cases hoff
      exact ⟨.utc, fun h => absurd rfl h, by rw [hZ]; rfl, rfl⟩
    · cases hsign
      obtain ⟨hallow, h, m, hh, hm, rfl, rfl⟩ := (parseOffset_eq_some one_ne_zero).mp hoff
      exact ⟨.offset false h m hh hm, fun _ => hallow, by rw [hplus]; simp [Zone.text], rfl⟩
    · cases hsign
      obtain ⟨hallow, h, m, hh, hm, rfl, rfl⟩ := (parseOffset_eq_some (by norm_num)).mp hoff
      exact ⟨.offset true h m hh hm, fun _ => hallow, by rw [hminus]; simp [Zone.text], rfl⟩
  · rintro ⟨z, hz, rfl, rfl⟩
    cases z with
    | utc => exact ⟨0x5a, rest, rfl, 0, rfl, rfl⟩
    | offset negative hours minutes hh hm =>
      obtain rfl := hz nofun
      cases negative with
      | false => exact ⟨0x2b, _, rfl, 1, rfl, (parseOffset_eq_some one_ne_zero).mpr
          ⟨rfl, hours, minutes, hh, hm, rfl, rfl⟩⟩
      | true => exact ⟨0x2d, _, rfl, -1, rfl, (parseOffset_eq_some (by norm_num)).mpr
          ⟨rfl, hours, minutes, hh, hm, rfl, rfl⟩⟩

section Parser

variable {isGentime allow : Bool} {cbs : Bytes}

/-- What is parsed is the text of a time, and the zone's offset is what `*out_tm` is moved by. -/
lemma cbsParse_eq_some {outTm : Bool} {r : Option Tm} :
    cbsParseRfc5280TimeInternal cbs isGentime allow outTm = some r ↔
      ∃ t z, IsTime isGentime allow cbs t z ∧ (if outTm then
          if z.seconds ≠ 0 then (opensslGmtimeAdj (tmOf t) 0 z.seconds).map some
          else some (some (tmOf t))
        else some none) = some r := by
  simp only [cbsParseRfc5280TimeInternal, bind, pure, Option.bind_eq_some_iff, Prod.exists,
    parseFields_eq_some, cbsGetU8_eq_some, guard_eq_some, List.length_eq_zero_iff]
  constructor
  · rintro ⟨-, copy, ⟨t, hy, rfl, rfl⟩, tz, copy', rfl, sign, hsign, n, -, hoff, -, rfl, hr⟩
    obtain ⟨z, hz, htext, rfl⟩ := parseZone.mp ⟨tz, copy', rfl, sign, hsign, hoff⟩
    exact ⟨t, z, ⟨hy, hz, by rw [htext, List.append_nil]⟩, hr⟩
  · rintro ⟨t, z, ⟨hy, hz, rfl⟩, hr⟩
    obtain ⟨tz, copy', htext, sign, hsign, hoff⟩ :=
      parseZone.mpr ⟨z, hz, (List.append_nil _).symm, rfl⟩
    exact ⟨_, _, ⟨t, hy, rfl, rfl⟩, tz, copy', htext, sign, hsign, _, _, hoff, (), rfl, hr⟩

lemma YearOk.le {y : ℕ} (h : YearOk isGentime y) : y ≤ 9999 := by
  cases isGentime <;> simp only [YearOk, Bool.false_eq_true, if_true, if_false] at h <;> omega

lemma cbsParse_iff :
    cbsParseRfc5280TimeInternal cbs isGentime allow true = some (some tm) ↔
      TakenFor isGentime allow cbs tm := by
  rw [cbsParse_eq_some, TakenFor]
  refine exists_congr fun t => exists_congr fun z => and_congr_right fun ht => ?_
  have hy : t.year ≤ 9999 := ht.1.le
  rw [if_pos rfl]
  by_cases hz : z.seconds = 0
  · rw [if_neg (not_not.mpr hz), hz, add_zero, Option.some.injEq, Option.some.injEq]
    constructor
    · rintro rfl
      exact ⟨t, hy, rfl, rfl⟩
    · rintro ⟨u, -, rfl, hu⟩
      rw [DateTime.instant_injective (Nat.cast_injective hu)]
  · have hadj := @opensslGmtimeAdj_iff t 0 z.seconds tm hy
    simpa [hz] using hadj

lemma tmOf_injective {t u : DateTime} (h : tmOf t = tmOf u) : t = u := by
  simp only [tmOf, Tm.mk.injEq] at h
  exact DateTime.ext (by omega) (by omega) (by omega) (by omega) (by omega) (by omega)

lemma IsTime.unique {t t' : DateTime} {z z' : Zone} (h : IsTime isGentime allow cbs t z)
    (h' : IsTime isGentime allow cbs t' z') : t = t' ∧ z.seconds = z'.seconds := by
  obtain ⟨hy, hz, htext⟩ := h
  obtain ⟨hy', hz', htext'⟩ := h'
  have hread := parseFields_eq_some.mpr ⟨t, hy, rfl, htext⟩
  rw [parseFields_eq_some.mpr ⟨t', hy', rfl, htext'⟩] at hread
  simp only [Option.some.injEq, Prod.mk.injEq] at hread
  obtain ⟨htm, hzone⟩ := hread
  obtain ⟨tz, r, hr, sign, hsign, hoff⟩ := parseZone.mpr ⟨z, hz, (List.append_nil _).symm, rfl⟩
  obtain ⟨tz', r', hr', sign', hsign', hoff'⟩ :=
    parseZone.mpr ⟨z', hz', (List.append_nil _).symm, rfl⟩
  rw [← hzone, hr', List.cons.injEq] at hr
  obtain ⟨rfl, rfl⟩ := hr
  rw [hsign'] at hsign
  cases hsign
  rw [hoff', Option.some.injEq, Prod.mk.injEq] at hoff
  exact ⟨(tmOf_injective htm).symm, hoff.1.symm⟩

lemma Denotes.unique {tm' : Tm} (h : Denotes isGentime allow cbs tm)
    (h' : Denotes isGentime allow cbs tm') : tm = tm' := by
  obtain ⟨t, z, ht, u, -, rfl, hu⟩ := h
  obtain ⟨t', z', ht', u', -, rfl, hu'⟩ := h'
  obtain ⟨rfl, hs⟩ := ht.unique ht'
  have heq : u.instant = u'.instant := by omega
  rw [DateTime.instant_injective heq]

/-- The parsers accept the texts of times whose offset, added, leads to a time of the years 0 to
9999, and return that time.  With a null `out_tm` they accept all texts of times. -/
theorem cbsParseTime_iff (allow : Bool) (cbs : Bytes) :
    ((∀ tm, cbsParseUtcTime cbs true allow = some (some tm) ↔ TakenFor false allow cbs tm)
        ∧ ∀ tm, cbsParseGeneralizedTime cbs true allow = some (some tm)
          ↔ TakenFor true allow cbs tm)
      ∧ (cbsParseUtcTime cbs false allow = some none ↔ ∃ t z, IsTime false allow cbs t z)
      ∧ (cbsParseGeneralizedTime cbs false allow = some none
        ↔ ∃ t z, IsTime true allow cbs t z) := by
  refine ⟨⟨fun tm => cbsParse_iff, fun tm => cbsParse_iff⟩, ?_, ?_⟩
  · rw [cbsParseUtcTime, cbsParse_eq_some]
    simp
  · rw [cbsParseGeneralizedTime, cbsParse_eq_some]
    simp

/-- `990101000000+0100` is 23:00 on the last day of 1998, and is parsed as 01:00 on the next. -/
theorem cbsParseUtcTime_plus_one_hour :
    cbsParseUtcTime [0x39, 0x39, 0x30, 0x31, 0x30, 0x31, 0x30, 0x30, 0x30, 0x30, 0x30, 0x30, 0x2b,
        0x30, 0x31, 0x30, 0x30] true true = some (some ⟨99, 0, 1, 1, 0, 0⟩)
      ∧ Denotes false true [0x39, 0x39, 0x30, 0x31, 0x30, 0x31, 0x30, 0x30, 0x30, 0x30, 0x30, 0x30,
        0x2b, 0x30, 0x31, 0x30, 0x30] ⟨98, 11, 31, 23, 0, 0⟩
      ∧ ¬ Denotes false true [0x39, 0x39, 0x30, 0x31, 0x30, 0x31, 0x30, 0x30, 0x30, 0x30, 0x30,
        0x30, 0x2b, 0x30, 0x31, 0x30, 0x30] ⟨99, 0, 1, 1, 0, 0⟩ := by
  have hden : Denotes false true [0x39, 0x39, 0x30, 0x31, 0x30, 0x31, 0x30, 0x30, 0x30, 0x30, 0x30,
      0x30, 0x2b, 0x30, 0x31, 0x30, 0x30] ⟨98, 11, 31, 23, 0, 0⟩ := by
    refine ⟨⟨⟨1999, 1, 1, by decide, by decide⟩, 0, 0, 0, by decide, by decide, by decide⟩,
      .offset false 1 0 (by decide) (by decide), ⟨by simp [YearOk], fun _ => rfl, by decide⟩,
      ⟨⟨1998, 12, 31, by decide, by decide⟩, 23, 0, 0, by decide, by decide, by decide⟩, by decide,
      by decide, ?_⟩
    have h1 := daysBeforeYear_eq 1998
    have h2 := daysBeforeYear_eq 1999
    have h3 : daysBeforeMonth 1999 1 = 0 := rfl
    have h4 : daysBeforeMonth 1998 12 = 334 := by decide
    simp only [DateTime.instant, Date.dayNumber, Zone.seconds]
    push_cast
    omega
  exact ⟨by decide +kernel, hden, fun h => absurd (hden.unique h) (by decide)⟩

end Parser

end BoringSSL
