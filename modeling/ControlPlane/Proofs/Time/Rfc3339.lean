import ControlPlane.Proofs.Time.Civil
import ControlPlane.Time.Rfc3339

/-! # Timestamps read back

One lemma for each part of a timestamp says that reading what was written, with anything behind it
that does not go on with a digit, gives the part back and leaves the rest.  Together they give
`parse_render` for every timestamp with a date in the range of the calendar; within a leap second
the nanoseconds are written past the sixtieth second and come back. -/

namespace ControlPlane.Time

/-- A date that the calendar reaches, and nanoseconds of one second, or of two at the end of a
minute, where a leap second may stand. -/
def Timestamp.IsProper (t : Timestamp) : Prop :=
  t.date.isValid = true ∧
    (t.nanos < nanosPerSecond ∨ t.seconds % 60 = 59 ∧ t.nanos < 2 * nanosPerSecond)

instance (t : Timestamp) : Decidable t.IsProper := inferInstanceAs (Decidable (_ ∧ _))

namespace Rfc3339

open Text.Integer (digit?)

/-! ### Digits -/

theorem digit?_of_isDigit {c : Char} (h : c.isDigit = true) : digit? c = some (c.toNat - 48) := by
  unfold digit?
  unfold Char.isDigit at h
  simp only [Bool.and_eq_true, decide_eq_true_eq] at h
  exact if_pos ⟨h.1, h.2⟩

/-- No text blank is a digit. -/
theorem isBlank_of_isDigit {c : Char} (h : c.isDigit = true) : Text.isBlank c = false := by
  unfold Char.isDigit at h
  simp only [Bool.and_eq_true, decide_eq_true_eq] at h
  have hlow : 48 ≤ c.toNat := h.1
  have hhigh : c.toNat ≤ 57 := h.2
  unfold Text.isBlank
  generalize c.toNat = n at hlow hhigh
  simp
  omega

theorem le_ofDigitChars (digits : List Char) (value : ℕ) :
    value ≤ Nat.ofDigitChars 10 digits value := by
  induction digits generalizing value with
  | nil => exact le_rfl
  | cons c rest ih =>
      rw [Nat.ofDigitChars_cons]
      have := ih (10 * value + (c.toNat - '0'.toNat))
      omega

/-- Text that does not go on with a digit. -/
def EndsNumber (rest : List Char) : Prop := ∀ c ∈ rest.head?, digit? c = none

/-- The run of digits is taken whole, or as far as the width goes. -/
theorem digitsFrom_append {left : ℕ} (value : ℕ) {digits rest : List Char}
    (hdigits : ∀ c ∈ digits, c.isDigit = true) (hleft : digits.length ≤ left)
    (hend : digits.length = left ∨ EndsNumber rest)
    (hbound : Nat.ofDigitChars 10 digits value < Nat.pow 2 63) :
    digitsFrom left value (digits ++ rest) = .ok (Nat.ofDigitChars 10 digits value, rest) := by
  induction digits generalizing left value with
  | nil =>
      rw [List.nil_append, Nat.ofDigitChars_nil]
      match rest, left with
      | [], _ => rw [digitsFrom]
      | c :: rest, 0 =>
          rw [digitsFrom]
          exact List.cons_ne_nil c rest
      | c :: rest, left + 1 =>
          have hc : digit? c = none := by
            rcases hend with hzero | hend
            · cases hzero
            · exact hend c rfl
          rw [digitsFrom, hc]
  | cons c digits ih =>
      obtain ⟨left, rfl⟩ : ∃ k, left = k + 1 := ⟨left - 1, by simp at hleft; omega⟩
      rw [Nat.ofDigitChars_cons] at hbound ⊢
      have hc := digit?_of_isDigit (hdigits c List.mem_cons_self)
      have hle := le_ofDigitChars digits (10 * value + (c.toNat - 48))
      rw [List.cons_append, digitsFrom, hc]
      dsimp only
      rw [if_pos (hle.trans_lt hbound)]
      refine ih _ (fun d hd => hdigits d (List.mem_cons_of_mem c hd)) ?_ ?_ hbound
      · simpa using hleft
      · simpa using hend

/-! ### Padded numbers -/

theorem isDigit_of_mem_padded {width n : ℕ} {c : Char} (h : c ∈ padded width n) :
    c.isDigit = true := by
  unfold padded at h
  rcases List.mem_append.1 h with hzero | hdigit
  · rw [(List.mem_replicate.1 hzero).2]
    rfl
  · exact Nat.isDigit_of_mem_toDigits (by decide) (by decide) hdigit

theorem ofDigitChars_padded (width n : ℕ) : Nat.ofDigitChars 10 (padded width n) 0 = n := by
  unfold padded
  rw [Nat.ofDigitChars_append, Nat.ofDigitChars_replicate_zero, Nat.mul_zero,
    Nat.ofDigitChars_ten_toDigits]

theorem length_padded {width n : ℕ} (hwidth : 0 < width) (hn : n < 10 ^ width) :
    (padded width n).length = width := by
  have := (Nat.length_toDigits_le_iff (by decide : 1 < 10) hwidth).2 hn
  unfold padded
  rw [List.length_append, List.length_replicate]
  omega

theorem padded_eq_cons (width n : ℕ) :
    ∃ c digits, padded width n = c :: digits ∧ c.isDigit = true := by
  obtain ⟨c, digits, heq⟩ : ∃ c digits, padded width n = c :: digits := by
    apply List.exists_cons_of_ne_nil
    unfold padded
    exact List.append_ne_nil_of_right_ne_nil _ Nat.toDigits_ne_nil
  exact ⟨c, digits, heq, isDigit_of_mem_padded (heq ▸ List.mem_cons_self)⟩

/-- A padded number is read back if it fits the width. -/
theorem number_padded {width left n : ℕ} {rest : List Char} (hleft : (padded width n).length ≤ left)
    (hend : (padded width n).length = left ∨ EndsNumber rest) (hn : n < Nat.pow 2 63) :
    number left (padded width n ++ rest) = .ok (n, rest) := by
  have hread := digitsFrom_append 0 (fun _ => isDigit_of_mem_padded) hleft hend
    (by rwa [ofDigitChars_padded])
  rw [ofDigitChars_padded] at hread
  obtain ⟨c, digits, heq, hc⟩ := padded_eq_cons width n
  rw [heq, List.cons_append] at hread ⊢
  rw [number, digit?_of_isDigit hc, Option.isSome_some, if_pos rfl, hread]

theorem trimStart_padded (width n : ℕ) (rest : List Char) :
    Text.trimStart (padded width n ++ rest) = padded width n ++ rest := by
  obtain ⟨c, digits, heq, hc⟩ := padded_eq_cons width n
  rw [heq, List.cons_append, Text.trimStart,
    List.dropWhile_cons_of_neg (by simp [isBlank_of_isDigit hc])]

/-! ### Parts -/

theorem field_padded {low high n : ℕ} {rest : List Char} (hn : n < 100) (hlow : low ≤ n)
    (hhigh : n ≤ high) : field low high (padded 2 n ++ rest) = .ok (n, rest) := by
  have hlength : (padded 2 n).length = 2 := length_padded (by decide) (by omega)
  rw [field, trimStart_padded, number_padded hlength.le (.inl hlength)
    (hn.trans (by decide))]
  exact if_pos ⟨hlow, hhigh⟩

/-- How a year goes on after its sign. -/
def signedYear (sign : ℤ) (text : List Char) : Except TimeError (ℤ × List Char) := do
  let (value, rest) ← number text.length text
  if -Nat.pow 2 31 ≤ sign * value ∧ sign * value < Nat.pow 2 31 then return (sign * value, rest)
  else throw .outOfRange

theorem year_minus (text : List Char) : year ('-' :: text) = signedYear (-1) text := rfl

theorem year_plus (text : List Char) : year ('+' :: text) = signedYear 1 text := rfl

theorem signedYear_eq {sign y : ℤ} {n : ℕ} {text rest : List Char}
    (hnumber : number text.length text = .ok (n, rest)) (hy : sign * n = y)
    (hlow : -Nat.pow 2 31 ≤ y) (hhigh : y < Nat.pow 2 31) :
    signedYear sign text = .ok (y, rest) := by
  rw [signedYear, hnumber]
  dsimp only [bind, Except.bind, pure, Except.pure]
  rw [hy, if_pos ⟨hlow, hhigh⟩]

theorem year_yearText {y : ℤ} (rest : List Char) (hmin : minYear ≤ y) (hmax : y ≤ maxYear)
    (hrest : EndsNumber rest) : year (yearText y ++ rest) = .ok (y, rest) := by
  unfold minYear at hmin
  unfold maxYear at hmax
  have hsmall : y.natAbs < Nat.pow 2 63 := by
    have : (262143 : ℕ) < Nat.pow 2 63 := by decide
    omega
  have hsigned : number (padded 4 y.natAbs ++ rest).length (padded 4 y.natAbs ++ rest)
      = .ok (y.natAbs, rest) := by
    refine number_padded ?_ (.inr hrest) hsmall
    rw [List.length_append]
    omega
  have hword : (Nat.pow 2 31 : ℤ) = 2147483648 := rfl
  by_cases hplain : 0 ≤ y ∧ y ≤ 9999
  · have hlength : (padded 4 y.toNat).length = 4 := length_padded (by decide) (by omega)
    have hnumber : number 4 (padded 4 y.toNat ++ rest) = .ok (y.toNat, rest) :=
      number_padded hlength.le (.inl hlength) (by omega)
    rw [yearText, if_pos hplain, year, trimStart_padded]
    obtain ⟨c, digits, heq, hc⟩ := padded_eq_cons 4 y.toNat
    rw [heq, List.cons_append] at hnumber ⊢
    split
    · rename_i hminus
      rw [(List.cons.inj hminus).1] at hc
      exact absurd hc (by decide)
    · rename_i hplus
      rw [(List.cons.inj hplus).1] at hc
      exact absurd hc (by decide)
    · rw [hnumber]
      show Except.ok ((y.toNat : ℤ), rest) = _
      rw [Int.toNat_of_nonneg hplain.1]
  · rw [yearText, if_neg hplain]
    by_cases hneg : y < 0
    · rw [if_pos hneg, List.cons_append, year_minus]
      exact signedYear_eq hsigned (by omega) (by omega) (by omega)
    · rw [if_neg hneg, List.cons_append, year_plus]
      exact signedYear_eq hsigned (by omega) (by omega) (by omega)

theorem separator_cons (mark : Char) (h : Text.isBlank mark = false) (rest : List Char) :
    separator mark (mark :: rest) = .ok ((), rest) := by
  rw [separator, Text.trimStart, List.dropWhile_cons_of_neg (by simp [h])]
  exact if_pos rfl

/-- A group of fraction digits stands for so many nanoseconds. -/
theorem fraction_padded {width n : ℕ} (hwidth : 0 < width) (hnine : width ≤ 9)
    (hn : n < 10 ^ width) :
    fraction ('.' :: padded width n ++ ['Z']) = .ok (n * Nat.pow 10 (9 - width), ['Z']) := by
  have hlength := length_padded hwidth hn
  have hend : EndsNumber ['Z'] := by
    intro c hc
    cases hc
    rfl
  have hlarge : n < Nat.pow 2 63 := by
    have hle : 10 ^ width ≤ 10 ^ 9 := Nat.pow_le_pow_right (by decide) hnine
    have : 10 ^ 9 < Nat.pow 2 63 := by decide
    omega
  rw [List.cons_append, fraction, number_padded (by omega) (.inr hend) hlarge]
  dsimp only [bind, Except.bind, pure, Except.pure]
  rw [List.length_append, hlength, Nat.add_sub_cancel]
  rfl

theorem fraction_fractionText {nanos : ℕ} (h : nanos < Timestamp.nanosPerSecond) :
    fraction (fractionText nanos ++ ['Z']) = .ok (nanos, ['Z']) := by
  unfold Timestamp.nanosPerSecond at h
  unfold fractionText
  split_ifs with hzero hmillis hmicros
  · rw [hzero]
    rfl
  · rw [fraction_padded (by decide) (by decide) (by omega)]
    show Except.ok (nanos / 1000000 * 1000000, ['Z']) = _
    rw [Nat.div_mul_cancel (Nat.dvd_of_mod_eq_zero hmillis)]
  · rw [fraction_padded (by decide) (by decide) (by omega)]
    show Except.ok (nanos / 1000 * 1000, ['Z']) = _
    rw [Nat.div_mul_cancel (Nat.dvd_of_mod_eq_zero hmicros)]
  · rw [fraction_padded (by decide) (by decide) (by omega)]
    show Except.ok (nanos * 1, ['Z']) = _
    rw [Nat.mul_one]

/-! ### The round trip -/

theorem endsNumber_cons {c : Char} (h : digit? c = none) (rest : List Char) :
    EndsNumber (c :: rest) := by
  intro d hd
  cases hd
  exact h

/-- The parts of a timestamp as they are written. -/
def parts (date : Date) (second shown nanos : ℕ) : List Char :=
  yearText date.year ++ '-' :: (padded 2 date.month ++ '-' :: (padded 2 date.day
    ++ 'T' :: (padded 2 (second / 3600) ++ ':' :: (padded 2 (second / 60 % 60)
    ++ ':' :: (padded 2 shown ++ (fractionText nanos ++ ['Z']))))))

/-- The second and the nanoseconds that are shown: in a leap second the sixtieth, and those past
its start. -/
theorem render_eq_parts {t : Timestamp} (ht : t.IsProper) :
    ∃ shown nanos, shown ≤ 60 ∧ nanos < Timestamp.nanosPerSecond ∧
      min shown 59 = t.secondOfDay % 60 ∧
      t.nanos = (if shown = 60 then nanos + 1000000000 else nanos) ∧
      render t = String.ofList (parts t.date t.secondOfDay shown nanos) := by
  obtain ⟨-, hnanos⟩ := ht
  have hsecond : t.secondOfDay % 60 = (t.seconds % 60).toNat := by
    unfold Timestamp.secondOfDay Timestamp.secondsPerDay
    omega
  unfold Timestamp.nanosPerSecond at hnanos ⊢
  by_cases hleap : 1000000000 ≤ t.nanos
  · refine ⟨t.secondOfDay % 60 + 1, t.nanos - 1000000000, by omega, by omega, by omega, ?_, ?_⟩
    · rw [if_pos (by omega)]
      omega
    · unfold render Timestamp.nanosPerSecond parts
      simp [hleap]
  · refine ⟨t.secondOfDay % 60, t.nanos, by omega, by omega, by omega, ?_, ?_⟩
    · rw [if_neg (by omega)]
    · unfold render Timestamp.nanosPerSecond parts
      simp [hleap]

theorem ok_bind {ε α β : Type} (a : α) (f : α → Except ε β) : (Except.ok a >>= f) = f a := rfl

theorem parse_parts {date : Date} {second shown nanos : ℕ} (hdate : date.isValid = true)
    (hsecond : second < 86400) (hshown : shown ≤ 60) (hnanos : nanos < Timestamp.nanosPerSecond)
    {t : Timestamp} (hwall : date.toDays * 86400 + 3600 * (second / 3600 : ℕ)
      + 60 * (second / 60 % 60 : ℕ) + (min shown 59 : ℕ) = t.seconds)
    (hnanos' : t.nanos = if shown = 60 then nanos + 1000000000 else nanos)
    (ht : t.date.isValid = true) :
    parse (String.ofList (parts date second shown nanos)) = .ok t := by
  have hrange := hdate
  unfold Date.isValid at hrange
  simp only [Bool.and_eq_true, decide_eq_true_eq] at hrange
  obtain ⟨⟨⟨⟨⟨hmin, hmax⟩, hmonth⟩, hmonth'⟩, hday⟩, hday'⟩ := hrange
  have hdays : daysInMonth date.year date.month ≤ 31 := by
    unfold daysInMonth
    split <;> (try split) <;> omega
  have hfirst := year_yearText ('-' :: (padded 2 date.month ++ '-' :: (padded 2 date.day
    ++ 'T' :: (padded 2 (second / 3600) ++ ':' :: (padded 2 (second / 60 % 60)
    ++ ':' :: (padded 2 shown ++ (fractionText nanos ++ ['Z'])))))))
    hmin hmax (endsNumber_cons (by decide) _)
  have hdash := separator_cons '-' (by decide)
  have hcolon := separator_cons ':' (by decide)
  have hmark : ∀ rest, dateTimeMark ('T' :: rest) = .ok ((), rest) := fun rest => rfl
  have hzone : zone (Text.trimStart ['Z']) = .ok (0, []) := rfl
  have hmonths : ∀ rest, field 1 12 (padded 2 date.month ++ rest) = .ok (date.month, rest) :=
    fun rest => field_padded (by omega) hmonth hmonth'
  have hmonthDays : ∀ rest, field 1 31 (padded 2 date.day ++ rest) = .ok (date.day, rest) :=
    fun rest => field_padded (by omega) hday (by omega)
  have hhours : ∀ rest, field 0 23 (padded 2 (second / 3600) ++ rest)
      = .ok (second / 3600, rest) :=
    fun rest => field_padded (by omega) (by omega) (by omega)
  have hminutes : ∀ rest, field 0 59 (padded 2 (second / 60 % 60) ++ rest)
      = .ok (second / 60 % 60, rest) :=
    fun rest => field_padded (by omega) (by omega) (by omega)
  have hseconds : ∀ rest, field 0 60 (padded 2 shown ++ rest) = .ok (shown, rest) :=
    fun rest => field_padded (by omega) (by omega) hshown
  have hinstant : (⟨t.seconds, t.nanos⟩ : Timestamp) = t := rfl
  have hblank : Text.trimStart [] = [] := rfl
  unfold parts
  simp only [parse, String.toList_ofList, hfirst, ok_bind, hdash, hcolon, hmark, hmonths,
    hmonthDays, hhours, hminutes, hseconds, fraction_fractionText hnanos, hzone, hblank, hdate,
    hwall, ← hnanos', Int.sub_zero, hinstant, ht]
  rfl

/-- A timestamp comes back from its text to the nanosecond. -/
theorem parse_render {t : Timestamp} (ht : t.IsProper) : parse (render t) = .ok t := by
  obtain ⟨shown, nanos, hshown, hnanos, hmin, hnanos', hrender⟩ := render_eq_parts ht
  have hsecond : t.secondOfDay < 86400 ∧ (t.secondOfDay : ℤ) = t.seconds % 86400 := by
    unfold Timestamp.secondOfDay Timestamp.secondsPerDay
    omega
  have hdays : t.date.toDays = t.seconds / 86400 := Date.toDays_ofDays _
  rw [hrender]
  refine parse_parts ht.1 hsecond.1 hshown hnanos ?_ hnanos' ht.1
  rw [hdays, hmin]
  omega

end Rfc3339

end ControlPlane.Time
