import Mathlib.Data.List.TakeWhile
import Mathlib.Tactic.Ring

/-!
# Signed decimal text

An integer is printed as its decimal digits, after a minus sign if it is
negative.  The reader skips white space, takes an optional sign and then the
longest run of digits, and fails when that run is empty.

`firstWord` is what a reader that stops at white space sees of a text.
-/

namespace DecimalText

/-- The white space of the default locale. -/
def isSpace (c : Char) : Bool :=
  c = ' ' || (9 ≤ c.toNat && c.toNat ≤ 13)

/-- The text without leading white space, up to the next white space. -/
def firstWord (text : List Char) : List Char :=
  (text.dropWhile isSpace).takeWhile fun c => !isSpace c

/-- The decimal text of an integer. -/
def printInt : Int → List Char
  | .ofNat n => Nat.toDigits 10 n
  | .negSucc n => '-' :: Nat.toDigits 10 (n + 1)

/-- Whether the text starts with a minus sign, and the text behind its sign. -/
def splitSign : List Char → Bool × List Char
  | '-' :: rest => (true, rest)
  | '+' :: rest => (false, rest)
  | text => (false, text)

/-- Read an integer and ignore what stands behind its digits. -/
def parseInt (text : List Char) : Option Int :=
  let (negative, rest) := splitSign (text.dropWhile isSpace)
  let digits := rest.takeWhile Char.isDigit
  let magnitude : Int := Nat.ofDigitChars 10 digits 0
  if digits = [] then none
  else some (if negative then -magnitude else magnitude)

theorem isSpace_of_isDigit {c : Char} (hdigit : c.isDigit = true) : isSpace c = false := by
  have hbounds : 48 ≤ c.toNat ∧ c.toNat ≤ 57 := by
    simpa [Char.isDigit, UInt32.le_iff_toNat_le] using hdigit
  have hblank : c ≠ ' ' := by
    rintro rfl
    exact absurd hbounds.1 (by decide)
  simp [isSpace, hblank]
  omega

/-- The word at the start of a text is the text, if it has no white space. -/
theorem firstWord_of_forall {text : List Char} (htext : ∀ c ∈ text, isSpace c = false) :
    firstWord text = text := by
  have hdrop : text.dropWhile isSpace = text := by
    cases text with
    | nil => rfl
    | cons c text => simp [htext c List.mem_cons_self]
  rw [firstWord, hdrop, List.takeWhile_eq_self_iff]
  intro c hc
  simp [htext c hc]

/-- Digits alone are read as the number they denote. -/
theorem parseInt_digits {digits : List Char} (hne : digits ≠ [])
    (hdigits : ∀ c ∈ digits, c.isDigit = true) :
    parseInt digits = some (Nat.ofDigitChars 10 digits 0 : Int) := by
  have htake : digits.takeWhile Char.isDigit = digits :=
    List.takeWhile_eq_self_iff.2 hdigits
  cases digits with
  | nil => exact absurd rfl hne
  | cons c rest =>
      have hc := hdigits c List.mem_cons_self
      have hsign : splitSign (c :: rest) = (false, c :: rest) := by
        unfold splitSign
        split
        · rename_i heq
          obtain ⟨rfl, -⟩ := List.cons.inj heq
          exact absurd hc (by decide)
        · rename_i heq
          obtain ⟨rfl, -⟩ := List.cons.inj heq
          exact absurd hc (by decide)
        · rfl
      have hdrop : (c :: rest).dropWhile isSpace = c :: rest := by
        simp [isSpace_of_isDigit hc]
      simp [parseInt, hdrop, hsign, htake]

/-- A minus sign in front of digits negates the number. -/
theorem parseInt_minus_digits {digits : List Char} (hne : digits ≠ [])
    (hdigits : ∀ c ∈ digits, c.isDigit = true) :
    parseInt ('-' :: digits) = some (-(Nat.ofDigitChars 10 digits 0 : Int)) := by
  have htake : digits.takeWhile Char.isDigit = digits :=
    List.takeWhile_eq_self_iff.2 hdigits
  have hdrop : ('-' :: digits).dropWhile isSpace = '-' :: digits := by
    simp [isSpace]
  simp [parseInt, hdrop, splitSign, htake, hne]

/-! ## A number followed by zeros -/

/-- The digits of a number and some zeros behind them. -/
def withZeros (n k : Nat) : List Char := Nat.toDigits 10 n ++ List.replicate k '0'

theorem withZeros_ne_nil (n k : Nat) : withZeros n k ≠ [] := by
  simp [withZeros, Nat.toDigits_ne_nil]

theorem isDigit_of_mem_withZeros {n k : Nat} {c : Char} (hc : c ∈ withZeros n k) :
    c.isDigit = true := by
  rcases List.mem_append.1 hc with hc | hc
  · exact Nat.isDigit_of_mem_toDigits (by decide) (by decide) hc
  · obtain ⟨-, rfl⟩ := List.mem_replicate.1 hc
    rfl

theorem ofDigitChars_withZeros (n k : Nat) :
    Nat.ofDigitChars 10 (withZeros n k) 0 = 10 ^ k * n := by
  rw [withZeros, Nat.ofDigitChars_append, Nat.ofDigitChars_ten_toDigits,
    Nat.ofDigitChars_replicate_zero]

/-- Zeros behind the text of an integer multiply it. -/
theorem parseInt_printInt_zeros (n : Int) (k : Nat) :
    parseInt (printInt n ++ List.replicate k '0') = some (10 ^ k * n) := by
  cases n with
  | ofNat n =>
      have hread := parseInt_digits (withZeros_ne_nil n k) fun c => isDigit_of_mem_withZeros
      rw [ofDigitChars_withZeros] at hread
      rw [printInt, ← withZeros, hread]
      simp
  | negSucc n =>
      have hread := parseInt_minus_digits (withZeros_ne_nil (n + 1) k) fun c =>
        isDigit_of_mem_withZeros
      rw [ofDigitChars_withZeros] at hread
      rw [printInt, List.cons_append, ← withZeros, hread, Int.negSucc_eq]
      push_cast
      ring_nf

/-- Different integers have different texts. -/
theorem printInt_injective : Function.Injective printInt := by
  intro n m htext
  have hread : ∀ k, parseInt (printInt k) = some k := fun k => by
    simpa using parseInt_printInt_zeros k 0
  have hsame := congrArg parseInt htext
  rw [hread, hread] at hsame
  exact Option.some.inj hsame

/-- The text of an integer has no white space, with or without zeros behind it. -/
theorem firstWord_printInt_zeros (n : Int) (k : Nat) :
    firstWord (printInt n ++ List.replicate k '0') = printInt n ++ List.replicate k '0' := by
  apply firstWord_of_forall
  intro c hc
  cases n with
  | ofNat n => exact isSpace_of_isDigit (isDigit_of_mem_withZeros hc)
  | negSucc n =>
      rw [printInt, List.cons_append, ← withZeros] at hc
      rcases List.mem_cons.1 hc with rfl | hc
      · rfl
      · exact isSpace_of_isDigit (isDigit_of_mem_withZeros hc)

/-! ## The text as a string -/

theorem isDigit_or_minus_of_mem_printInt {n : Int} {c : Char} (hc : c ∈ printInt n) :
    c.isDigit = true ∨ c = '-' := by
  cases n with
  | ofNat n => exact Or.inl (Nat.isDigit_of_mem_toDigits (by decide) (by decide) hc)
  | negSucc n =>
      rcases List.mem_cons.1 hc with hminus | hdigit
      · exact Or.inr hminus
      · exact Or.inl (Nat.isDigit_of_mem_toDigits (by decide) (by decide) hdigit)

theorem toList_toString (n : Int) : (toString n).toList = printInt n := by
  cases n with
  | ofNat n => exact Nat.toList_repr
  | negSucc n =>
      have hminus : (toString (Int.negSucc n)).toList = ("-" ++ Nat.repr (n + 1)).toList := rfl
      rw [hminus, String.toList_append, Nat.toList_repr]
      rfl

end DecimalText
