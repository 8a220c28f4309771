import Conductor.Proofs.Json.Scalar
import Conductor.Schema.Moment
import Conductor.Time

/-!
# Written moments are moments

Main statement: the text of a moment in one of the years 1 to 9999 is taken for a moment
(`moment_zuluText`).

That the computed date is one of the calendar (`civilDate_spec`) rests on where the years of an era
start.  The years are found by a division that is right at both ends of each year, which is checked
year by year, and it is monotone, so that it is right in between.
-/

namespace Conductor

open Schema Text

namespace Moment

/-! ### Years of an era -/

/-- The days of an era before the year at a position, the years starting in March. -/
def yearStart (year : Nat) : Nat := 365 * year + year / 4 - year / 100 + year / 400

/-- The days of an era up to one, but for the leap days before it. -/
def withoutLeapDays (day : Nat) : Nat := day - day / 1460 + day / 36524 - day / 146096

theorem withoutLeapDays_mono {d e : Nat} (h : d ≤ e) : withoutLeapDays d ≤ withoutLeapDays e := by
  induction h with
  | refl => exact Nat.le_refl _
  | step _ ih =>
    refine Nat.le_trans ih ?_
    unfold withoutLeapDays
    omega

theorem withoutLeapDays_yearStart : ∀ year < 400, 365 * year ≤ withoutLeapDays (yearStart year) ∧
    withoutLeapDays (yearStart (year + 1) - 1) < 365 * (year + 1) := by
  decide +kernel

/-- The year of a day is the one whose start it is not before. -/
theorem yearStart_le {day : Nat} (h : day < 146097) :
    withoutLeapDays day / 365 < 400 ∧ yearStart (withoutLeapDays day / 365) ≤ day ∧
      day < yearStart (withoutLeapDays day / 365 + 1) := by
  have hlast : withoutLeapDays day ≤ withoutLeapDays 146096 :=
    withoutLeapDays_mono (Nat.le_of_lt_succ h)
  have hend : withoutLeapDays 146096 < 365 * 400 := by decide
  have hyear : withoutLeapDays day / 365 < 400 := by omega
  refine ⟨hyear, ?_, ?_⟩
  · -- Before its start all days belong to earlier years.
    refine Nat.le_of_not_lt fun hlt => ?_
    cases hy : withoutLeapDays day / 365 with
    | zero =>
      rw [hy] at hlt
      exact Nat.not_lt_zero _ hlt
    | succ year =>
      rw [hy] at hlt
      have hle : withoutLeapDays day ≤ withoutLeapDays (yearStart (year + 1) - 1) :=
        withoutLeapDays_mono (by omega)
      have := (withoutLeapDays_yearStart year (by omega)).2
      omega
  · refine Nat.lt_of_not_le fun hge => ?_
    rcases Nat.lt_or_ge (withoutLeapDays day / 365 + 1) 400 with hnext | hnext
    · have hle : withoutLeapDays (yearStart (withoutLeapDays day / 365 + 1)) ≤
          withoutLeapDays day :=
        withoutLeapDays_mono (by omega)
      have := (withoutLeapDays_yearStart _ hnext).1
      omega
    · have hy : withoutLeapDays day / 365 + 1 = 400 := by omega
      rw [hy] at hge
      have : yearStart 400 = 146097 := by decide
      omega

/-! ### Months and days -/

/-- Whether a year has a leap day. -/
def isLeap (year : Nat) : Bool := year % 4 = 0 && (year % 100 ≠ 0 || year % 400 = 0)

theorem daysInMonth_eq (year month : Nat) : daysInMonth year month =
    if month = 2 then if isLeap year then 29 else 28
    else if month = 4 || month = 6 || month = 9 || month = 11 then 30 else 31 := rfl

/-- The leap day is the last one of a year that starts in March. -/
theorem yearStart_succ : ∀ year < 400,
    yearStart (year + 1) = yearStart year + 365 + if isLeap (year + 1) then 1 else 0 := by
  decide +kernel

/-- The month of a day of a year that starts in March. -/
def monthOf (day : Nat) : Nat :=
  if (5 * day + 2) / 153 < 10 then (5 * day + 2) / 153 + 3 else (5 * day + 2) / 153 - 9

/-- The day of the month of a day of a year that starts in March. -/
def dayOf (day : Nat) : Nat := day - (153 * ((5 * day + 2) / 153) + 2) / 5 + 1

theorem monthOf_spec : ∀ day < 366, 1 ≤ monthOf day ∧ monthOf day ≤ 12 ∧ 1 ≤ dayOf day ∧
    dayOf day ≤ if monthOf day = 2 then if day = 365 then 29 else 28
      else if monthOf day = 4 || monthOf day = 6 || monthOf day = 9 || monthOf day = 11 then 30
        else 31 := by
  decide +kernel

/-- Leap years recur in every era. -/
theorem isLeap_toNat {era : Int} {year : Nat} (h : 0 ≤ era * 400 + (year : Int)) :
    isLeap (era * 400 + (year : Int)).toNat = isLeap year := by
  have h₄ : (era * 400 + (year : Int)).toNat % 4 = year % 4 := by omega
  have h₁₀₀ : (era * 400 + (year : Int)).toNat % 100 = year % 100 := by omega
  have h₄₀₀ : (era * 400 + (year : Int)).toNat % 400 = year % 400 := by omega
  unfold isLeap
  rw [h₄, h₁₀₀, h₄₀₀]

/-- The date computed for a day is one of the calendar. -/
theorem civilDate_spec {days : Int} {year : Int} {month day : Nat}
    (h : civilDate days = (year, month, day)) (hy : 0 ≤ year) :
    1 ≤ month ∧ month ≤ 12 ∧ 1 ≤ day ∧ day ≤ daysInMonth year.toNat month := by
  -- The day of the era, the year of that day and the day of that year, each a plain number.
  obtain ⟨doe, hdoe⟩ : ∃ doe, doe = ((days + 719468) % 146097).toNat := ⟨_, rfl⟩
  have hlt : doe < 146097 := by omega
  obtain ⟨hyoe, hstart, hend⟩ := yearStart_le hlt
  obtain ⟨yoe, hyoe'⟩ : ∃ yoe, yoe = withoutLeapDays doe / 365 := ⟨_, rfl⟩
  rw [← hyoe'] at hyoe hstart hend
  obtain ⟨doy, hdoy⟩ : ∃ doy, doy = doe - yearStart yoe := ⟨_, rfl⟩
  have hlong := yearStart_succ yoe hyoe
  have hbound : doy < 365 + if isLeap (yoe + 1) then 1 else 0 := by omega
  have hdoy' : doe - (365 * yoe + yoe / 4 - yoe / 100) = doy := by
    rw [hdoy, yearStart]
    omega
  have hcivil : civilDate days =
      ((days + 719468) / 146097 * 400 + yoe + (if monthOf doy ≤ 2 then 1 else 0), monthOf doy,
        dayOf doy) := by
    unfold civilDate
    dsimp only
    rw [← hdoe, ← withoutLeapDays, ← hyoe', hdoy']
    rfl
  rw [hcivil, Prod.mk.injEq, Prod.mk.injEq] at h
  obtain ⟨rfl, rfl, rfl⟩ := h
  obtain ⟨h₁, h₁₂, hday, hdays⟩ := monthOf_spec doy (by split at hbound <;> omega)
  refine ⟨h₁, h₁₂, hday, Nat.le_trans hdays ?_⟩
  rw [daysInMonth_eq]
  split
  · next hfeb =>
    -- The year has passed its turn, so its leap day is that of the calendar year.
    have hone : (if 2 ≤ 2 then (1 : Int) else 0) = 1 := if_pos (Nat.le_refl 2)
    rw [hfeb, hone, Int.add_assoc] at hy ⊢
    rw [show (yoe : Int) + 1 = ((yoe + 1 : Nat) : Int) from rfl, isLeap_toNat hy]
    split at hbound
    · next hleap =>
      rw [if_pos hleap]
      split <;> decide
    · rw [if_neg (by omega)]
      split <;> decide
  · exact Nat.le_refl _

/-! ### Digits -/

theorem toList_padded (width n : Nat) : (padded width n).toList =
    List.replicate (width - (Nat.toDigits 10 n).length) '0' ++ Nat.toDigits 10 n :=
  String.toList_ofList

theorem isDigit_of_mem_padded {width n : Nat} {c : Char} (h : c ∈ (padded width n).toList) :
    Json.isDigit c = true := by
  rw [toList_padded, List.mem_append, List.mem_replicate] at h
  rcases h with ⟨-, rfl⟩ | h
  · decide
  · exact Json.isDigit_of_mem_toDigits h

/-- The last digit is that of the remainder. -/
theorem toList_padded_succ {width : Nat} (hw : 0 < width) (n : Nat) :
    (padded (width + 1) n).toList =
      (padded width (n / 10)).toList ++ [Nat.digitChar (n % 10)] := by
  rw [toList_padded, toList_padded, Nat.toDigits_eq_if (by decide)]
  split
  · next hlt =>
    -- Nothing is left for the other places, which print a zero of their own.
    have hzero : n / 10 = 0 := Nat.div_eq_of_lt hlt
    have hone : (Nat.toDigits 10 0) = ['0'] := rfl
    obtain ⟨width, rfl⟩ := Nat.exists_eq_add_one.mpr hw
    rw [hzero, hone, Nat.mod_eq_of_lt hlt]
    show List.replicate (width + 1) '0' ++ _ = List.replicate width '0' ++ ['0'] ++ _
    rw [List.replicate_succ']
  · rw [List.length_append, List.length_singleton, Nat.add_sub_add_right, List.append_assoc]

theorem toList_padded_two : ∀ n < 100,
    (padded 2 n).toList = [Nat.digitChar (n / 10), Nat.digitChar (n % 10)] := by
  decide +kernel

theorem toList_padded_four (n : Nat) :
    (padded 4 n).toList = (padded 2 (n / 100)).toList ++ (padded 2 (n % 100)).toList := by
  have htens : n % 100 / 10 = n / 10 % 10 := by omega
  have hones : n % 100 % 10 = n % 10 := by omega
  rw [toList_padded_succ (by decide), toList_padded_succ (by decide), Nat.div_div_eq_div_mul,
    toList_padded_two (n % 100) (Nat.mod_lt _ (by decide)), htens, hones, List.append_assoc]
  rfl

theorem digitsValue_digitChar : ∀ n < 100,
    (Json.isDigit (Nat.digitChar (n / 10)) && Json.isDigit (Nat.digitChar (n % 10))) = true ∧
      Json.digitsValue [Nat.digitChar (n / 10), Nat.digitChar (n % 10)] = n := by
  decide +kernel

/-- Two printed digits are read as their number. -/
theorem twoDigits?_padded {n : Nat} (h : n < 100) (rest : List Char) :
    twoDigits? ((padded 2 n).toList ++ rest) = some (n, rest) := by
  obtain ⟨hdigits, hvalue⟩ := digitsValue_digitChar n h
  rw [toList_padded_two n h, List.cons_append, List.cons_append, twoDigits?, if_pos hdigits, hvalue]
  rfl

/-! ### Dates and times -/

/-- A printed date of the calendar is read up to its end. -/
theorem afterDate?_padded {year month day : Nat} (hy : year < 10000)
    (hm : 1 ≤ month ∧ month ≤ 12) (hd : 1 ≤ day ∧ day ≤ daysInMonth year month)
    (rest : List Char) :
    afterDate? ((padded 4 year).toList ++ '-' :: ((padded 2 month).toList ++
      '-' :: ((padded 2 day).toList ++ rest))) = some (year, rest) := by
  have hday : day ≤ 31 := by
    refine Nat.le_trans hd.2 ?_
    unfold daysInMonth
    repeat' split
    all_goals decide
  have hyear : 100 * (year / 100) + year % 100 = year := by omega
  have hin : (1 ≤ month && month ≤ 12 && 1 ≤ day && day ≤ daysInMonth year month) = true := by
    simp only [Bool.and_eq_true, decide_eq_true_eq]
    exact ⟨⟨hm, hd.1⟩, hd.2⟩
  have hcentury : year / 100 < 100 := by omega
  have hyears : year % 100 < 100 := Nat.mod_lt _ (by decide)
  rw [toList_padded_four, List.append_assoc, afterDate?]
  simp only [twoDigits?_padded hcentury, twoDigits?_padded hyears,
    twoDigits?_padded (Nat.lt_of_le_of_lt hm.2 (by decide : 12 < 100)),
    twoDigits?_padded (Nat.lt_of_le_of_lt hday (by decide : 31 < 100)), bind, Option.bind, hyear,
    hin, if_true]

/-- A printed time of day is read up to its end. -/
theorem afterTime?_padded {hour minute second : Nat} (hh : hour < 24) (hm : minute < 60)
    (hs : second < 60) (rest : List Char) :
    afterTime? ((padded 2 hour).toList ++ ':' :: ((padded 2 minute).toList ++
      ':' :: ((padded 2 second).toList ++ rest))) = afterFraction? rest := by
  have hin : ¬ (decide (23 < hour) || decide (59 < minute)) = true := by
    rw [Bool.or_eq_true, decide_eq_true_eq, decide_eq_true_eq]
    omega
  rw [afterTime?]
  simp only [twoDigits?_padded (Nat.lt_of_lt_of_le hh (by decide : 24 ≤ 100)),
    twoDigits?_padded (Nat.lt_of_lt_of_le hm (by decide : 60 ≤ 100)),
    twoDigits?_padded (Nat.lt_of_lt_of_le hs (by decide : 60 ≤ 100)), bind, Option.bind]
  rw [if_neg hin, if_neg (Nat.not_lt_of_le (Nat.le_of_lt_succ hs))]

/-- The moment lies in one of the years that are written with four digits. -/
def InCalendar (m : Moment) : Prop :=
  1 ≤ (civilDate (m / 1000000 / 86400)).1 ∧ (civilDate (m / 1000000 / 86400)).1 ≤ 9999

instance (m : Moment) : Decidable m.InCalendar := inferInstanceAs (Decidable (_ ∧ _))

/-- The written fraction of a second. -/
def fractionText (m : Moment) : String :=
  if (m % 1000000).toNat = 0 then "" else "." ++ padded 6 (m % 1000000).toNat

theorem toList_zuluText {m : Moment} {year : Int} {month day : Nat}
    (h : civilDate (m / 1000000 / 86400) = (year, month, day)) :
    (zuluText m).toList = (padded 4 year.toNat).toList ++ '-' :: ((padded 2 month).toList ++
      '-' :: ((padded 2 day).toList ++ 'T' :: ((timeText m).toList ++
        ((fractionText m).toList ++ ['Z'])))) := by
  have hdate :
      dateText m = padded 4 year.toNat ++ "-" ++ padded 2 month ++ "-" ++ padded 2 day := by
    unfold dateText
    rw [h]
  have hsigns : "-".toList = ['-'] ∧ "T".toList = ['T'] ∧ "Z".toList = ['Z'] := ⟨rfl, rfl, rfl⟩
  unfold zuluText text
  rw [hdate]
  simp only [String.toList_append, hsigns, List.append_assoc, List.cons_append, List.nil_append]
  rfl

theorem afterTime?_timeText (m : Moment) (rest : List Char) :
    afterTime? ((timeText m).toList ++ rest) = afterFraction? rest := by
  have hcolon : ":".toList = [':'] := rfl
  obtain ⟨second, hsecond⟩ : ∃ second, second = (m / 1000000 % 86400).toNat := ⟨_, rfl⟩
  have hlt : second / 3600 < 24 := by omega
  unfold timeText
  rw [← hsecond]
  simp only [String.toList_append, hcolon, List.append_assoc, List.cons_append, List.nil_append]
  exact afterTime?_padded hlt (Nat.mod_lt _ (by decide)) (Nat.mod_lt _ (by decide)) rest

theorem afterFraction?_fractionText (m : Moment) :
    afterFraction? ((fractionText m).toList ++ ['Z']) = some ['Z'] := by
  unfold fractionText
  split
  · rfl
  · obtain ⟨micros, hmicros⟩ : ∃ micros, micros = (m % 1000000).toNat := ⟨_, rfl⟩
    have hends : Json.EndsNumber ['Z'] := by
      intro c hc
      cases hc
      decide
    have hdigits : ∀ c ∈ (padded 6 micros).toList, Json.isDigit c = true :=
      fun c hc => isDigit_of_mem_padded hc
    obtain ⟨htake, hdrop⟩ := Json.takeWhile_digits hdigits hends
    have hne : (padded 6 micros).toList ≠ [] := by
      rw [toList_padded]
      exact fun h => Nat.toDigits_ne_nil (List.append_eq_nil_iff.mp h).2
    have hdot : ".".toList = ['.'] := rfl
    rw [← hmicros]
    simp only [String.toList_append, hdot, List.cons_append, List.nil_append]
    rw [afterFraction?, htake, hdrop, if_neg]
    rwa [List.isEmpty_iff]

theorem eraOfText_of_afterDate? {s rest zone : List Char} {year : Nat}
    (hdate : afterDate? s = some (year, 'T' :: rest)) (htime : afterTime? rest = some zone)
    (hzone : isZone zone = true) : eraOfText s = eraOfYear year := by
  simp [eraOfText, hdate, htime, hzone]

/-- A digit or a sign of a written moment is no half of a pair. -/
theorem unit?_of_isDigit {c : Char} (h : Json.isDigit c = true) : LoneHalf.unit? c = none := by
  unfold Json.isDigit at h
  rw [Bool.and_eq_true, decide_eq_true_eq, decide_eq_true_eq] at h
  have hle : c.toNat ≤ 57 := h.2
  unfold LoneHalf.unit?
  rw [if_neg]
  rw [Bool.and_eq_true, decide_eq_true_eq, LoneHalf.firstStandIn]
  omega

theorem occursIn_append (s t : String) :
    LoneHalf.occursIn (s ++ t) = (LoneHalf.occursIn s || LoneHalf.occursIn t) := by
  unfold LoneHalf.occursIn
  rw [String.toList_append, List.any_append]

theorem occursIn_padded (width n : Nat) : LoneHalf.occursIn (padded width n) = false := by
  unfold LoneHalf.occursIn
  rw [List.any_eq_false]
  intro c hc
  rw [unit?_of_isDigit (isDigit_of_mem_padded hc)]
  exact Bool.false_ne_true

/-- A written moment holds no half of a pair. -/
theorem occursIn_text (m : Moment) : LoneHalf.occursIn m.text = false := by
  have hsigns : LoneHalf.occursIn "-" = false ∧ LoneHalf.occursIn "T" = false ∧
      LoneHalf.occursIn ":" = false ∧ LoneHalf.occursIn "." = false ∧
      LoneHalf.occursIn "" = false := by
    decide
  have hfraction : LoneHalf.occursIn (fractionText m) = false := by
    unfold fractionText
    split
    · exact hsigns.2.2.2.2
    · simp only [occursIn_append, occursIn_padded, hsigns, Bool.or_self]
  have htext : m.text = dateText m ++ "T" ++ timeText m ++ fractionText m := rfl
  rw [htext]
  simp only [dateText, timeText, occursIn_append, occursIn_padded, hsigns, hfraction, Bool.or_self]

theorem occursIn_zuluText (m : Moment) : LoneHalf.occursIn m.zuluText = false := by
  rw [zuluText, occursIn_append, occursIn_text]
  decide

theorem occursIn_offsetText (m : Moment) : LoneHalf.occursIn m.offsetText = false := by
  rw [offsetText, occursIn_append, occursIn_text]
  decide

/-- The text of a moment with a year of four digits is taken for a moment. -/
theorem moment_zuluText {m : Moment} (h : m.InCalendar) : moment (.str m.zuluText) = .ok () := by
  obtain ⟨year, month, day, hcivil⟩ : ∃ year month day,
      civilDate (m / 1000000 / 86400) = (year, month, day) := ⟨_, _, _, rfl⟩
  unfold InCalendar at h
  rw [hcivil] at h
  obtain ⟨hm, hm', hd, hd'⟩ := civilDate_spec hcivil (Int.le_trans (by decide) h.1)
  have hyear : year.toNat < 10000 := by omega
  have hera : eraOfYear year.toNat = .counted := by
    unfold eraOfYear
    rw [if_neg (by omega)]
  have htime : afterTime? ((timeText m).toList ++ ((fractionText m).toList ++ ['Z'])) =
      some ['Z'] := by
    rw [afterTime?_timeText, afterFraction?_fractionText]
  have htext : eraOfText m.zuluText.toList = .counted := by
    rw [← hera]
    refine eraOfText_of_afterDate? ?_ htime rfl
    rw [toList_zuluText hcivil]
    exact afterDate?_padded hyear ⟨hm, hm'⟩ ⟨hd, hd'⟩ _
  rw [moment, whole, occursIn_zuluText, htext]
  rfl

end Moment

end Conductor
