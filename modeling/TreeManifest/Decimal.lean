/-!
# Decimal numerals

The written form of a natural number and of an integer, and the number that digits write.

## Main definitions

- `Decimal.digits`, `Decimal.ofInt`: the written forms.
- `Decimal.value`: the number that digits write.

## Main statements

- `Decimal.value_digits`: a written number reads back.
-/

namespace TreeManifest.Decimal

def digit (value : Nat) : Char := Char.ofNat (48 + value)

def digitValue (char : Char) : Nat := char.toNat - 48

/-- The digits of a number, without leading zeros. -/
def digits (value : Nat) : List Char :=
  if value < 10 then [digit value] else digits (value / 10) ++ [digit (value % 10)]

def ofInt : Int → List Char
  | .ofNat value => digits value
  | .negSucc value => '-' :: digits (value + 1)

/-- The number that digits write. -/
def value (text : List Char) : Nat :=
  text.foldl (fun value char => value * 10 + digitValue char) 0

theorem digitValue_digit {value : Nat} (h : value < 10) : digitValue (digit value) = value := by
  have : ∀ value : Fin 10, digitValue (digit value.val) = value.val := by decide
  exact this ⟨value, h⟩

theorem isDigit_digit {value : Nat} (h : value < 10) : (digit value).isDigit = true := by
  have : ∀ value : Fin 10, (digit value.val).isDigit = true := by decide
  exact this ⟨value, h⟩

theorem value_append_digit (text : List Char) (char : Char) :
    value (text ++ [char]) = value text * 10 + digitValue char := by
  simp [value]

@[simp] theorem value_digits (number : Nat) : value (digits number) = number := by
  fun_induction digits number with
  | case1 number h => simp [value, digitValue_digit h]
  | case2 number h ih =>
    rw [value_append_digit, ih, digitValue_digit (Nat.mod_lt _ (by decide))]
    omega

theorem isDigit_of_mem_digits {number : Nat} {char : Char} (h : char ∈ digits number) :
    char.isDigit = true := by
  fun_induction digits number with
  | case1 number hlt =>
    rw [List.mem_singleton.1 h]
    exact isDigit_digit hlt
  | case2 number _ ih =>
    rcases List.mem_append.1 h with h | h
    · exact ih h
    · rw [List.mem_singleton.1 h]
      exact isDigit_digit (Nat.mod_lt _ (by decide))

theorem digits_ne_nil (number : Nat) : digits number ≠ [] := by
  unfold digits
  split <;> simp

end TreeManifest.Decimal
