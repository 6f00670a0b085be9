import Mathlib.Data.Nat.Digits.Defs

namespace AlineaCopilot.DecimalText

-- What `ParseIntError` says of each of its kinds.
def emptyText : String := "cannot parse integer from empty string"
def invalidDigit : String := "invalid digit found in string"
def posOverflow : String := "number too large to fit in target type"
def negOverflow : String := "number too small to fit in target type"

-- `char::to_digit(10)`
def toDigit (c : Char) : Option Nat := if c.isDigit then some (c.toNat - '0'.toNat) else none

def Fits (n : Int) : Prop := -2 ^ 63 ≤ n ∧ n < 2 ^ 63

instance : Decidable (Fits n) := inferInstanceAs (Decidable (_ ∧ _))

-- The loop of `from_str_radix` over what stands behind the sign: a negative number
-- is built downwards, and each step is checked.
def readDigits (negative : Bool) : Int → List Char → Except String Int
  | result,[] => .ok result
  | result,c :: rest =>
    match toDigit c with
    | none => .error invalidDigit
    | some digit =>
      let next := if negative then result * 10 - digit else result * 10 + digit
      if Fits (result * 10) ∧ Fits next then readDigits negative next rest
      else .error (if negative then negOverflow else posOverflow)

-- `str::parse::<i64>`
def parseI64 (text : String) : Except String Int64 :=
  match text.toList with
  | [] => .error emptyText
  | ['+'] | ['-'] => .error invalidDigit
  | '-' :: rest => (readDigits true 0 rest).map Int64.ofInt
  | '+' :: rest => (readDigits false 0 rest).map Int64.ofInt
  | digits => (readDigits false 0 digits).map Int64.ofInt

def i64Text (n : Int64) : String := toString n.toInt

section Reading

theorem toDigit_digit {c : Char} (digit : c.isDigit = true) : toDigit c = some (c.toNat - '0'.toNat) := if_pos digit

theorem le_ofDigitChars (digits : List Char) (start : Nat) : start ≤ Nat.ofDigitChars 10 digits start := by
  induction digits generalizing start with
  | nil => rw [Nat.ofDigitChars_nil]
  | cons c rest ih =>
    rw [Nat.ofDigitChars_cons]
    have later := ih (10 * start + (c.toNat - '0'.toNat))
    omega

-- Digits only add to the size of what has been read, so a number that fits is never
-- left on the way.
theorem readDigits_up {digits : List Char} (every : ∀ c ∈ digits, c.isDigit = true) (start : Nat)
    (fits : Nat.ofDigitChars 10 digits start < 2 ^ 63) :
    readDigits false start digits = .ok (Nat.ofDigitChars 10 digits start : Int) := by
  induction digits generalizing start with
  | nil => rw [Nat.ofDigitChars_nil,readDigits]
  | cons c rest ih =>
    rw [Nat.ofDigitChars_cons] at fits ⊢
    have reached := le_ofDigitChars rest (10 * start + (c.toNat - '0'.toNat))
    have next : (start : Int) * 10 + ((c.toNat - '0'.toNat : Nat) : Int) = ((10 * start + (c.toNat - '0'.toNat) : Nat) : Int) := by omega
    have within : Fits ((start : Int) * 10) ∧ Fits ((10 * start + (c.toNat - '0'.toNat) : Nat) : Int) := by
      constructor <;> constructor <;> omega
    simp only [readDigits,toDigit_digit (every c List.mem_cons_self),Bool.false_eq_true,if_false,next]
    rw [if_pos within]
    exact ih (fun d inside => every d (List.mem_cons_of_mem _ inside)) _ fits

theorem readDigits_down {digits : List Char} (every : ∀ c ∈ digits, c.isDigit = true) (start : Nat)
    (fits : Nat.ofDigitChars 10 digits start ≤ 2 ^ 63) :
    readDigits true (-start) digits = .ok (-(Nat.ofDigitChars 10 digits start : Int)) := by
  induction digits generalizing start with
  | nil => rw [Nat.ofDigitChars_nil,readDigits]
  | cons c rest ih =>
    rw [Nat.ofDigitChars_cons] at fits ⊢
    have reached := le_ofDigitChars rest (10 * start + (c.toNat - '0'.toNat))
    have next : -(start : Int) * 10 - ((c.toNat - '0'.toNat : Nat) : Int) = -((10 * start + (c.toNat - '0'.toNat) : Nat) : Int) := by omega
    have within : Fits (-(start : Int) * 10) ∧ Fits (-((10 * start + (c.toNat - '0'.toNat) : Nat) : Int)) := by
      constructor <;> constructor <;> omega
    simp only [readDigits,toDigit_digit (every c List.mem_cons_self),if_true,next]
    rw [if_pos within]
    exact ih (fun d inside => every d (List.mem_cons_of_mem _ inside)) _ fits

theorem digits_digit (n : Nat) : ∀ c ∈ Nat.toDigits 10 n, c.isDigit = true :=
  fun _ inside => Nat.isDigit_of_mem_toDigits (by decide) (by decide) inside

-- The decimal text of a number has at least one digit and no sign.
theorem digits_cons (n : Nat) : ∃ c rest, Nat.toDigits 10 n = c :: rest ∧ c.isDigit = true := by
  have every := digits_digit n
  cases written : Nat.toDigits 10 n with
  | nil =>
    have positive : 0 < (Nat.toDigits 10 n).length := Nat.length_toDigits_pos
    rw [written] at positive
    exact absurd positive (Nat.lt_irrefl 0)
  | cons c rest => exact ⟨c,rest,rfl,every c (written ▸ List.mem_cons_self)⟩

theorem parse_nonneg {text : String} {n : Nat} (written : text.toList = Nat.toDigits 10 n) (fits : n < 2 ^ 63) :
    parseI64 text = .ok (Int64.ofInt n) := by
  obtain ⟨c,rest,shape,digit⟩ := digits_cons n
  have value := readDigits_up (digits_digit n) 0 (by rwa [Nat.ofDigitChars_ten_toDigits])
  rw [Nat.ofDigitChars_ten_toDigits] at value
  unfold parseI64
  rw [written]
  rw [shape] at value ⊢
  have noPlus : c ≠ '+' := by rintro rfl; exact absurd digit (by decide)
  have noMinus : c ≠ '-' := by rintro rfl; exact absurd digit (by decide)
  split
  · next empty => cases empty
  · next plus => exact absurd (List.cons.inj plus).1 noPlus
  · next minus => exact absurd (List.cons.inj minus).1 noMinus
  · next minus => exact absurd (List.cons.inj minus).1 noMinus
  · next plus => exact absurd (List.cons.inj plus).1 noPlus
  · exact congrArg (Except.map Int64.ofInt) value

theorem parse_negative {text : String} {n : Nat} (written : text.toList = '-' :: Nat.toDigits 10 n) (fits : n ≤ 2 ^ 63) :
    parseI64 text = .ok (Int64.ofInt (-n)) := by
  obtain ⟨c,rest,shape,digit⟩ := digits_cons n
  have value := readDigits_down (digits_digit n) 0 (by rwa [Nat.ofDigitChars_ten_toDigits])
  rw [Nat.ofDigitChars_ten_toDigits] at value
  unfold parseI64
  rw [written]
  rw [shape] at value ⊢
  exact congrArg (Except.map Int64.ofInt) value

theorem parse_i64Text (n : Int64) : parseI64 (i64Text n) = .ok n := by
  have low := n.le_toInt
  have high := n.toInt_lt
  cases value : n.toInt with
  | ofNat m =>
    have written : (i64Text n).toList = Nat.toDigits 10 m := by
      unfold i64Text
      rw [value]
      exact Nat.toList_repr
    rw [parse_nonneg written (by rw [value] at high; exact Int.ofNat_lt.mp high)]
    exact congrArg Except.ok ((congrArg Int64.ofInt value.symm).trans (Int64.ofInt_toInt n))
  | negSucc m =>
    have written : (i64Text n).toList = '-' :: Nat.toDigits 10 (m + 1) := by
      unfold i64Text
      rw [value]
      exact (String.toList_append).trans (congrArg ('-' :: ·) Nat.toList_repr)
    rw [parse_negative written (by rw [value] at low; omega)]
    exact congrArg Except.ok ((congrArg Int64.ofInt value.symm).trans (Int64.ofInt_toInt n))

end Reading

end AlineaCopilot.DecimalText
