import Mathlib

namespace CivilDate

def msPerDay : ℤ := 86400000

def dayFromTime (t : ℤ) : ℤ := t / msPerDay

def dayFromYear (y : ℤ) : ℤ := 365 * (y - 1970) + (y - 1969) / 4 - (y - 1901) / 100 + (y - 1601) / 400

def yearFromDay (d : ℤ) : ℤ :=
  let y := 1970 + d * 400 / 146097
  if dayFromYear (y + 1) ≤ d then y + 1
  else if dayFromYear y ≤ d then y
  else y - 1

def leapDay (y : ℤ) : ℤ := dayFromYear (y + 1) - dayFromYear y - 365

def monthEnds (leap : ℤ) : List ℤ :=
  [31,59 + leap,90 + leap,120 + leap,151 + leap,181 + leap,212 + leap,243 + leap,273 + leap,
    304 + leap,334 + leap]

def monthFromDayInYear (leap k : ℤ) : ℕ := 1 + (monthEnds leap).countP (fun d => decide (d ≤ k))

def utcYear (t : ℤ) : ℤ := yearFromDay (dayFromTime t)

def utcMonth (t : ℤ) : ℕ :=
  monthFromDayInYear (leapDay (utcYear t)) (dayFromTime t - dayFromYear (utcYear t))

example : (utcYear 1709164800000,utcMonth 1709164800000) = (2024,2) := by decide

theorem utcMonth_range (t : ℤ) : 1 ≤ utcMonth t ∧ utcMonth t ≤ 12 := by
  have h := List.countP_le_length (p := fun d => decide (d ≤ dayFromTime t - dayFromYear (utcYear t)))
    (l := monthEnds (leapDay (utcYear t)))
  simp only [monthEnds,List.length_cons,List.length_nil] at h
  simp only [utcMonth,monthFromDayInYear,monthEnds]
  omega

end CivilDate
