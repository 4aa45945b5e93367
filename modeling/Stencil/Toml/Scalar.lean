import Stencil.Decimal.Reader

/-!
# Numbers and dates in a TOML file

Digits may have single underscores between them.  Integers fit 64 signed bits; a float
may not overflow.  Dates are days of the calendar, with leap years; seconds and what is
after them may be left out.

**Results.**
* `eq_filter_of_digits?`: digits are what is left without the underscores.
* `fixed?_append`, `exists_of_fixed?`: a number of fixed length is the beginning of the text.
* `afterDate?_eq_some_iff`, `afterMinute?_eq_some_iff`: a date is a day of the calendar and a
  time a minute of the day, in digits with their separators.
-/

namespace Stencil
namespace Toml

/-! ## Numbers -/

/-- Digits of a class with single underscores between them, without these. -/
def digits? (isDigit : Char → Bool) : List Char → Option (List Char)
  | [] => none
  | [c] => if isDigit c then some [c] else none
  | c :: '_' :: cs => if isDigit c then (digits? isDigit cs).map (c :: ·) else none
  | c :: d :: cs => if isDigit c then (digits? isDigit (d :: cs)).map (c :: ·) else none

/-- Digits are what is left without the underscores, and there is at least one. -/
theorem eq_filter_of_digits? {isDigit : Char → Bool} (hmark : isDigit '_' = false)
    {cs ds : List Char} (h : digits? isDigit cs = some ds) :
    ds = cs.filter (· ≠ '_') ∧ ds ≠ [] ∧ ∀ c ∈ ds, isDigit c = true := by
  have hne {c : Char} (hc : isDigit c = true) : c ≠ '_' := by
    rintro rfl
    exact absurd hc (Bool.eq_false_iff.1 hmark)
  fun_induction digits? isDigit cs generalizing ds with
  | case1 | case3 | case5 | case7 => cases h
  | case2 c hc =>
      cases h
      simp [hne hc, hc]
  | case4 c cs hc ih =>
      obtain ⟨rest, hrest, rfl⟩ := Option.map_eq_some_iff.1 h
      obtain ⟨hfilter, -, hall⟩ := ih hrest
      refine ⟨by simp [hne hc, hfilter], List.cons_ne_nil _ _, ?_⟩
      exact List.forall_mem_cons.2 ⟨hc, hall⟩
  | case6 c d cs _ hc ih =>
      obtain ⟨rest, hrest, rfl⟩ := Option.map_eq_some_iff.1 h
      obtain ⟨hfilter, -, hall⟩ := ih hrest
      refine ⟨by rw [List.filter_cons_of_pos (by simpa using hne hc), hfilter], ?_, ?_⟩
      · exact List.cons_ne_nil _ _
      · exact List.forall_mem_cons.2 ⟨hc, hall⟩

def isDigitLike (c : Char) : Bool :=
  c.isDigit || c == '_'

/-- The digits of a whole number; only zero itself begins with zero. -/
def wholeDigits? (cs : List Char) : Option (List Char) :=
  (digits? Char.isDigit cs).filter (fun ds => ds.head? ≠ some '0' || ds.length = 1)

/-- An integer in base sixteen, eight or two. -/
def based? (base : Nat) (cs : List Char) : Option Nat :=
  (digits? (fun c => (Decimal.digitIn? base c).isSome) cs).bind (Decimal.natural? base)

/-- Whether a magnitude with a sign fits 64 signed bits. -/
def fits (isNegative : Bool) (n : Nat) : Bool :=
  n < Nat.pow 2 63 || (isNegative && n == Nat.pow 2 63)

/-- Whether a text is an exponent after its mark. -/
def isExponent (cs : List Char) : Bool :=
  (digits? Char.isDigit (Decimal.splitSign cs).2).isSome

/-- Whether a text is the part of a float after its whole part. -/
def isFraction : List Char → Bool
  | '.' :: cs =>
      (digits? Char.isDigit (cs.takeWhile isDigitLike)).isSome &&
        (match cs.dropWhile isDigitLike with
          | [] => true
          | c :: rest => (c == 'e' || c == 'E') && isExponent rest)
  | c :: cs => (c == 'e' || c == 'E') && isExponent cs
  | [] => false

/-- Whether a text without its sign is a decimal number. -/
def isDecimal (isNegative : Bool) (cs : List Char) : Bool :=
  match wholeDigits? (cs.takeWhile isDigitLike), cs.dropWhile isDigitLike with
  | some ds, [] => fits isNegative (Decimal.ofDigits 0 ds)
  | some _, rest =>
      isFraction rest && (Decimal.float? (cs.filter (· ≠ '_'))).any Float.isFinite
  | none, _ => false

def isNumber : List Char → Bool
  | '0' :: 'x' :: cs => (based? 16 cs).any (fits false)
  | '0' :: 'o' :: cs => (based? 8 cs).any (fits false)
  | '0' :: 'b' :: cs => (based? 2 cs).any (fits false)
  | cs =>
      let p := Decimal.splitSign cs
      p.2 = ['i', 'n', 'f'] || p.2 = ['n', 'a', 'n'] || isDecimal p.1 p.2

/-! ## Dates and times -/

/-- A number of exactly so many digits, and the text after it. -/
def fixed? (places : Nat) (cs : List Char) : Option (Nat × List Char) :=
  if (cs.take places).length = places ∧ (cs.take places).all Char.isDigit then
    some (Decimal.ofDigits 0 (cs.take places), cs.drop places)
  else none

/-- Exactly so many digits. -/
structure IsFixed (places : Nat) (ds : List Char) : Prop where
  length_eq : ds.length = places
  all_digits : ∀ c ∈ ds, c.isDigit = true

theorem fixed?_append {places : Nat} {ds : List Char} (h : IsFixed places ds)
    (rest : List Char) : fixed? places (ds ++ rest) = some (Decimal.ofDigits 0 ds, rest) := by
  obtain ⟨rfl, hdigits⟩ := h
  have htake : (ds ++ rest).take ds.length = ds := List.take_left
  have hdrop : (ds ++ rest).drop ds.length = rest := List.drop_left
  rw [fixed?, htake, hdrop, if_pos ⟨rfl, List.all_eq_true.2 hdigits⟩]

theorem exists_of_fixed? {places : Nat} {cs : List Char} {p : Nat × List Char}
    (h : fixed? places cs = some p) :
    ∃ ds, IsFixed places ds ∧ cs = ds ++ p.2 ∧ p.1 = Decimal.ofDigits 0 ds := by
  unfold fixed? at h
  split at h
  · next hfixed =>
      cases h
      exact ⟨cs.take places, ⟨hfixed.1, List.all_eq_true.1 hfixed.2⟩,
        (List.take_append_drop places cs).symm, rfl⟩
  · cases h

def fixedAfter? (separator : Char) (places : Nat) (cs : List Char) : Option (Nat × List Char) :=
  match cs with
  | c :: rest => if c = separator then fixed? places rest else none
  | [] => none

theorem fixedAfter?_append {separator : Char} {places : Nat} {ds : List Char}
    (h : IsFixed places ds) (rest : List Char) :
    fixedAfter? separator places (separator :: ds ++ rest) =
      some (Decimal.ofDigits 0 ds, rest) := by
  rw [List.cons_append, fixedAfter?, if_pos rfl, fixed?_append h]

theorem exists_of_fixedAfter? {separator : Char} {places : Nat} {cs : List Char}
    {p : Nat × List Char} (h : fixedAfter? separator places cs = some p) :
    ∃ ds, IsFixed places ds ∧ cs = separator :: ds ++ p.2 ∧ p.1 = Decimal.ofDigits 0 ds := by
  unfold fixedAfter? at h
  split at h
  · split at h
    · next c rest hc =>
        obtain ⟨ds, hds, rfl, hvalue⟩ := exists_of_fixed? h
        exact ⟨ds, hds, by rw [hc, List.cons_append], hvalue⟩
    · cases h
  · cases h

def isLeap (year : Nat) : Bool :=
  year % 4 == 0 && (year % 100 != 0 || year % 400 == 0)

def daysIn (year month : Nat) : Nat :=
  if month = 2 then if isLeap year then 29 else 28
  else if month ∈ [4, 6, 9, 11] then 30
  else 31

/-- Reads a day of the calendar. -/
def afterDate? (cs : List Char) : Option (List Char) :=
  (fixed? 4 cs).bind (fun year =>
    (fixedAfter? '-' 2 year.2).bind (fun month =>
      (fixedAfter? '-' 2 month.2).bind (fun day =>
        if 1 ≤ month.1 ∧ month.1 ≤ 12 ∧ 1 ≤ day.1 ∧ day.1 ≤ daysIn year.1 month.1 then
          some day.2
        else none)))

theorem afterDate?_eq_some_iff {cs rest : List Char} :
    afterDate? cs = some rest ↔
      ∃ year month day, IsFixed 4 year ∧ IsFixed 2 month ∧ IsFixed 2 day ∧
        cs = year ++ ('-' :: month ++ ('-' :: day ++ rest)) ∧
        1 ≤ Decimal.ofDigits 0 month ∧ Decimal.ofDigits 0 month ≤ 12 ∧
        1 ≤ Decimal.ofDigits 0 day ∧ Decimal.ofDigits 0 day ≤
          daysIn (Decimal.ofDigits 0 year) (Decimal.ofDigits 0 month) := by
  constructor
  · intro h
    obtain ⟨y, hy, h⟩ := Option.bind_eq_some_iff.1 h
    obtain ⟨m, hm, h⟩ := Option.bind_eq_some_iff.1 h
    obtain ⟨d, hd, h⟩ := Option.bind_eq_some_iff.1 h
    obtain ⟨hrange, hrest⟩ := Option.ite_none_right_eq_some.1 h
    cases hrest
    obtain ⟨year, hyear, rfl, hyv⟩ := exists_of_fixed? hy
    obtain ⟨month, hmonth, hmcs, hmv⟩ := exists_of_fixedAfter? hm
    obtain ⟨day, hday, hdcs, hdv⟩ := exists_of_fixedAfter? hd
    refine ⟨year, month, day, hyear, hmonth, hday, by rw [hmcs, hdcs], ?_⟩
    rwa [← hyv, ← hmv, ← hdv]
  · rintro ⟨year, month, day, hyear, hmonth, hday, rfl, hrange⟩
    rw [afterDate?, fixed?_append hyear, Option.bind_some, fixedAfter?_append hmonth,
      Option.bind_some, fixedAfter?_append hday, Option.bind_some, if_pos hrange]

/-- Reads an hour and a minute. -/
def afterMinute? (cs : List Char) : Option (List Char) :=
  (fixed? 2 cs).bind (fun hour =>
    (fixedAfter? ':' 2 hour.2).bind (fun minute =>
      if hour.1 ≤ 23 ∧ minute.1 ≤ 59 then some minute.2 else none))

theorem afterMinute?_eq_some_iff {cs rest : List Char} :
    afterMinute? cs = some rest ↔
      ∃ hour minute, IsFixed 2 hour ∧ IsFixed 2 minute ∧ cs = hour ++ (':' :: minute ++ rest) ∧
        Decimal.ofDigits 0 hour ≤ 23 ∧ Decimal.ofDigits 0 minute ≤ 59 := by
  constructor
  · intro h
    obtain ⟨x, hx, h⟩ := Option.bind_eq_some_iff.1 h
    obtain ⟨y, hy, h⟩ := Option.bind_eq_some_iff.1 h
    obtain ⟨hrange, hrest⟩ := Option.ite_none_right_eq_some.1 h
    cases hrest
    obtain ⟨hour, hhour, rfl, hxv⟩ := exists_of_fixed? hx
    obtain ⟨minute, hminute, hcs, hyv⟩ := exists_of_fixedAfter? hy
    refine ⟨hour, minute, hhour, hminute, by rw [hcs], ?_⟩
    rwa [← hxv, ← hyv]
  · rintro ⟨hour, minute, hhour, hminute, rfl, hrange⟩
    rw [afterMinute?, fixed?_append hhour, Option.bind_some, fixedAfter?_append hminute,
      Option.bind_some, if_pos hrange]

/-- Reads the fraction of a second, if there is one. -/
def afterFraction? : List Char → Option (List Char)
  | '.' :: cs => if cs.takeWhile Char.isDigit = [] then none else some (cs.dropWhile Char.isDigit)
  | cs => some cs

/-- Reads the time of a day; a minute may have a leap second. -/
def afterTime? (cs : List Char) : Option (List Char) :=
  (afterMinute? cs).bind (fun rest =>
    match rest with
    | ':' :: _ =>
        (fixedAfter? ':' 2 rest).bind (fun second =>
          if second.1 ≤ 60 then afterFraction? second.2 else none)
    | _ => some rest)

/-- Whether a text is an offset from universal time. -/
def isOffset : List Char → Bool
  | [c] => c == 'Z' || c == 'z'
  | c :: cs => (c == '+' || c == '-') && afterMinute? cs == some []
  | [] => false

/-- Whether a text is a date, a time, or both with or without an offset. -/
def isDateTime (cs : List Char) : Bool :=
  match afterDate? cs with
  | some [] => true
  | some (c :: rest) =>
      (c == 'T' || c == 't' || c == ' ') &&
        (match afterTime? rest with
          | some [] => true
          | some offset => isOffset offset
          | none => false)
  | none => afterTime? cs == some []

end Toml
end Stencil
