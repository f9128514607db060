/-
Decimal digits of natural numbers: the digits of a number, most significant first and without
leading zeros, and the number that a list of digits spells. Reading the digits of a number gives
the number back.
-/

namespace LatencyGauge.Number

/-! ## Digits -/

/-- A decimal digit. -/
abbrev Digit := Fin 10

/-- The digit zero. -/
def Digit.zero : Digit := ⟨Nat.zero, by decide⟩

/-- The character of a digit. -/
def Digit.char (d : Digit) : Char := Char.ofNat ('0'.toNat + d.val)

/-- The digit that a character stands for; only the ten ASCII digits stand for one. -/
def Digit.ofChar? (c : Char) : Option Digit :=
  if h : '0'.toNat ≤ c.toNat ∧ c.toNat ≤ '9'.toNat then
    some ⟨c.toNat - '0'.toNat, by
      have h0 : '0'.toNat = 48 := rfl
      have h9 : '9'.toNat = 57 := rfl
      omega⟩
  else none

theorem Digit.ofChar?_char (d : Digit) : Digit.ofChar? d.char = some d := by
  revert d; decide

/-- The digits of a number, most significant first; zero has the one digit zero. -/
def digits (n : Nat) : List Digit :=
  if h : n < 10 then [⟨n, h⟩] else digits (n / 10) ++ [⟨n % 10, Nat.mod_lt n (by decide)⟩]
termination_by n
decreasing_by omega

/-- The number that digits spell, an empty list spelling zero. -/
def spelled (ds : List Digit) : Nat := ds.foldl (fun n d => 10 * n + d.val) 0

theorem spelled_append (ds : List Digit) (d : Digit) :
    spelled (ds ++ [d]) = 10 * spelled ds + d.val := by
  simp [spelled, List.foldl_append]

/-- Digits spell the number they were taken from. -/
theorem spelled_digits (n : Nat) : spelled (digits n) = n := by
  rw [digits]
  split
  · simp [spelled]
  · rw [spelled_append, spelled_digits (n / 10)]
    exact Nat.div_add_mod n 10
termination_by n
decreasing_by omega

theorem digits_ne_nil (n : Nat) : digits n ≠ [] := by
  rw [digits]; split <;> simp

/-- The text of a list of digits. -/
def digitChars (ds : List Digit) : List Char := ds.map Digit.char

/-- A number in decimal. -/
def decimal (n : Nat) : List Char := digitChars (digits n)

/-- The digits a text starts with, and the rest of it. -/
def takeDigits : List Char → List Digit × List Char
  | [] => ([], [])
  | c :: r =>
    match Digit.ofChar? c with
    | some d => let (ds, rest) := takeDigits r; (d :: ds, rest)
    | none => ([], c :: r)

/-- A text that does not go on with a digit. -/
def NoDigit : List Char → Prop
  | [] => True
  | c :: _ => Digit.ofChar? c = none

theorem takeDigits_append (ds : List Digit) {rest : List Char} (h : NoDigit rest) :
    takeDigits (digitChars ds ++ rest) = (ds, rest) := by
  induction ds with
  | nil => cases rest with
    | nil => rfl
    | cons c r => simp_all [digitChars, takeDigits, NoDigit]
  | cons d ds ih =>
    simp only [digitChars, List.map_cons, List.cons_append, takeDigits, Digit.ofChar?_char]
    rw [show List.map Digit.char ds = digitChars ds from rfl, ih]

end LatencyGauge.Number
