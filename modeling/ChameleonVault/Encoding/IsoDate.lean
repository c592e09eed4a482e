import Mathlib.Data.List.Basic
import Mathlib.Data.Nat.Digits.Defs

/-! Dates as milliseconds since 1970, their days in the calendar, and their ISO 8601 text in UTC. -/

namespace ChameleonVault.Encoding

structure CivilDay where
  year : ℕ
  month : ℕ
  day : ℕ
  deriving DecidableEq

namespace IsoDate

section Calendar

/-- The days before a year that begins in March, so that a leap day ends one. -/
def daysBefore (year : ℕ) : ℕ := 365 * year + year / 4 - year / 100 + year / 400

def daysTo1970 : ℕ := 719468

def civilDay (days : ℕ) : CivilDay :=
  let era := (days + daysTo1970) / 146097
  let dayOfEra := (days + daysTo1970) % 146097
  let century := min (dayOfEra / 36524) 3
  let dayOfCentury := dayOfEra - 36524 * century
  let year := min (dayOfCentury % 1461 / 365) 3
  let dayOfYear := dayOfCentury % 1461 - 365 * year
  let month := (5 * dayOfYear + 2) / 153
  { year := 400 * era + 100 * century + 4 * (dayOfCentury / 1461) + year + if month < 10 then 0 else 1
    month := if month < 10 then month + 3 else month - 9
    day := dayOfYear - (153 * month + 2) / 5 + 1 }

def daysSince1970 (d : CivilDay) : ℕ :=
  let year := if d.month < 3 then d.year - 1 else d.year
  let month := if d.month < 3 then d.month + 9 else d.month - 3
  daysBefore year + (153 * month + 2) / 5 + (d.day - 1) - daysTo1970

example : civilDay 0 = ⟨1970, 1, 1⟩ := by decide
example : civilDay 19782 = ⟨2024, 2, 29⟩ := by decide

lemma daysBefore_year {era century quarter year : ℕ} (hc : century ≤ 3) (hq : quarter < 25) (hy : year ≤ 3) :
    daysBefore (400 * era + 100 * century + 4 * quarter + year) =
      146097 * era + 36524 * century + 1461 * quarter + 365 * year := by
  rw [daysBefore]
  omega

lemma daysSince1970_civilDay (days : ℕ) : daysSince1970 (civilDay days) = days := by
  obtain ⟨era, dayOfEra, hera, hdays⟩ :
      ∃ era dayOfEra, dayOfEra < 146097 ∧ days + daysTo1970 = 146097 * era + dayOfEra :=
    ⟨_, _, Nat.mod_lt _ (by decide), (Nat.div_add_mod _ 146097).symm⟩
  have hdiv : (days + daysTo1970) / 146097 = era := by omega
  have hmod : (days + daysTo1970) % 146097 = dayOfEra := by omega
  simp only [civilDay, hdiv, hmod]
  obtain ⟨century, hcentury⟩ : ∃ century, century = min (dayOfEra / 36524) 3 := ⟨_, rfl⟩
  obtain ⟨quarter, hquarter⟩ : ∃ quarter, quarter = (dayOfEra - 36524 * century) / 1461 := ⟨_, rfl⟩
  obtain ⟨rest, hrest⟩ : ∃ rest, rest = (dayOfEra - 36524 * century) % 1461 := ⟨_, rfl⟩
  obtain ⟨year, hyear⟩ : ∃ year, year = min (rest / 365) 3 := ⟨_, rfl⟩
  obtain ⟨dayOfYear, hday⟩ : ∃ dayOfYear, dayOfYear = rest - 365 * year := ⟨_, rfl⟩
  obtain ⟨month, hmonth⟩ : ∃ month, month = (5 * dayOfYear + 2) / 153 := ⟨_, rfl⟩
  rw [← hcentury, ← hquarter, ← hrest, ← hyear, ← hday, ← hmonth]
  have hbefore : daysBefore (400 * era + 100 * century + 4 * quarter + year) =
      146097 * era + 36524 * century + 1461 * quarter + 365 * year :=
    daysBefore_year (by omega) (by omega) (by omega)
  have hsum : dayOfEra = 36524 * century + 1461 * quarter + 365 * year + dayOfYear := by omega
  have hle : dayOfYear < 366 := by omega
  have hback : (153 * month + 2) / 5 ≤ dayOfYear := by omega
  by_cases hlate : month < 10
  · have hmarch : ¬ month + 3 < 3 := by omega
    simp only [daysSince1970, if_pos hlate, if_neg hmarch, Nat.add_zero, hbefore]
    omega
  · have hjanuary : month - 9 < 3 := by omega
    simp only [daysSince1970, if_neg hlate, if_pos hjanuary, Nat.add_one_sub_one, hbefore]
    omega

end Calendar

section Text

def padStart (width n : ℕ) : List Char :=
  List.replicate (width - (Nat.toDigits 10 n).length) '0' ++ Nat.toDigits 10 n

def yearText (year : ℕ) : List Char := if year ≤ 9999 then padStart 4 year else '+' :: padStart 6 year

def toISOString (date : ℕ) : String :=
  let d := civilDay (date / 86400000)
  String.ofList (yearText d.year ++ '-' :: (padStart 2 d.month ++ '-' :: (padStart 2 d.day ++ 'T' ::
    (padStart 2 (date / 3600000 % 24) ++ ':' :: (padStart 2 (date / 60000 % 60) ++ ':' ::
      (padStart 2 (date / 1000 % 60) ++ '.' :: (padStart 3 (date % 1000) ++ ['Z'])))))))

def datePath (date : ℕ) : String :=
  let d := civilDay (date / 86400000)
  String.ofList (Nat.toDigits 10 d.year ++ '/' :: (padStart 2 d.month ++ '/' :: padStart 2 d.day))

variable {width n m : ℕ} {year year' : ℕ} {cs cs' rest rest' : List Char} {c : Char}

lemma padStart_digits (width n : ℕ) : ∀ c ∈ padStart width n, c.isDigit = true := by
  intro c hc
  rw [padStart, List.mem_append] at hc
  rcases hc with hc | hc
  · rw [List.eq_of_mem_replicate hc]
    decide
  · exact Nat.isDigit_of_mem_toDigits (by decide) (by decide) hc

lemma ofDigitChars_replicate (k : ℕ) (cs : List Char) :
    Nat.ofDigitChars 10 (List.replicate k '0' ++ cs) 0 = Nat.ofDigitChars 10 cs 0 := by
  induction k with
  | zero => rfl
  | succ k ih =>
    rw [List.replicate_succ, List.cons_append, Nat.ofDigitChars_cons]
    exact ih

lemma ofDigitChars_padStart (width n : ℕ) : Nat.ofDigitChars 10 (padStart width n) 0 = n := by
  rw [padStart, ofDigitChars_replicate, Nat.ofDigitChars_ten_toDigits]

lemma padStart_injective (h : padStart width n = padStart width m) : n = m := by
  rw [← ofDigitChars_padStart width n, h, ofDigitChars_padStart]

/-- A text without a mark, up to the mark that ends it. -/
lemma upTo_injective (hcs : ∀ d ∈ cs, d ≠ c) (hcs' : ∀ d ∈ cs', d ≠ c) (h : cs ++ c :: rest = cs' ++ c :: rest') :
    cs = cs' ∧ rest = rest' := by
  have htake (rest : List Char) {cs : List Char} (hcs : ∀ d ∈ cs, d ≠ c) : (cs ++ c :: rest).takeWhile (· ≠ c) = cs := by
    rw [List.takeWhile_append_of_pos (by simpa using hcs)]
    simp
  have heq : cs = cs' := by rw [← htake rest hcs, h, htake rest' hcs']
  subst heq
  exact ⟨rfl, (List.cons.inj (List.append_cancel_left h)).2⟩

lemma padStart_upTo (hc : c.isDigit = false) (h : padStart width n ++ c :: rest = padStart width m ++ c :: rest') :
    n = m ∧ rest = rest' := by
  have hne {n : ℕ} : ∀ d ∈ padStart width n, d ≠ c := by
    rintro d hd rfl
    exact Bool.false_ne_true (hc.symm.trans (padStart_digits width n d hd))
  obtain ⟨heq, hrest⟩ := upTo_injective hne hne h
  exact ⟨padStart_injective heq, hrest⟩

lemma yearText_no_dash (year : ℕ) : ∀ d ∈ yearText year, d ≠ '-' := by
  rintro d hd rfl
  rw [yearText] at hd
  split at hd
  · exact absurd (padStart_digits 4 year _ hd) (by decide)
  · rcases List.mem_cons.mp hd with hd | hd
    · exact absurd hd (by decide)
    · exact absurd (padStart_digits 6 year _ hd) (by decide)

lemma yearText_injective (h : yearText year = yearText year') : year = year' := by
  have hplus {k : ℕ} {cs : List Char} : padStart 4 k ≠ '+' :: cs := by
    intro heq
    exact absurd (padStart_digits 4 k '+' (heq ▸ List.mem_cons_self)) (by decide)
  simp only [yearText] at h
  split at h <;> split at h
  · exact padStart_injective h
  · exact absurd h hplus
  · exact absurd h.symm hplus
  · exact padStart_injective (List.cons.inj h).2

lemma toISOString_injective : Function.Injective toISOString := by
  intro date date' h
  have h := String.ofList_injective h
  obtain ⟨hyear, h⟩ := upTo_injective (yearText_no_dash _) (yearText_no_dash _) h
  obtain ⟨hmonth, h⟩ := padStart_upTo (by decide) h
  obtain ⟨hday, h⟩ := padStart_upTo (by decide) h
  obtain ⟨hhour, h⟩ := padStart_upTo (by decide) h
  obtain ⟨hminute, h⟩ := padStart_upTo (by decide) h
  obtain ⟨hsecond, h⟩ := padStart_upTo (by decide) h
  obtain ⟨hmilli, -⟩ := padStart_upTo (by decide) h
  have hcivil : civilDay (date / 86400000) = civilDay (date' / 86400000) := by
    rw [CivilDay.mk.injEq]
    exact ⟨yearText_injective hyear, hmonth, hday⟩
  have hdays : date / 86400000 = date' / 86400000 := by
    rw [← daysSince1970_civilDay (date / 86400000), hcivil, daysSince1970_civilDay]
  omega

end Text

end IsoDate

end ChameleonVault.Encoding
