import Mathlib.Data.List.Basic
import TreeManifest.Json.Token

/-!
# Written forms and their tokens

Texts and numbers in their written form are cut into one token each, whatever follows them, and the
tokens give the texts and numbers back.

## Main definitions

- `Json.Delimited`: the texts that may follow a numeral.
- `Json.Spells`: a text is cut into given tokens in front of any such text.
- `Json.spelledText`, `Json.spelledNumeral`: the tokens of a text and of a number.

## Main statements

- `Json.tokens_quote`, `Json.text_spelledText`: a quoted text and its token.
- `Json.spells_digits`, `Json.spells_ofInt`: a number and its token.
-/

namespace TreeManifest

namespace Decimal

/-- A positive number has no leading zero. -/
theorem head?_digits_ne_zero {number : Nat} (h : 0 < number) :
    (digits number).head? ≠ some '0' := by
  fun_induction digits number with
  | case1 number hlt =>
    have : ∀ value : Fin 10, 0 < value.val → digit value.val ≠ '0' := by decide
    simpa using this ⟨number, hlt⟩ h
  | case2 number hle ih =>
    rw [List.head?_append_of_ne_nil _ (digits_ne_nil _)]
    exact ih (by omega)

/-- A numeral of several digits has no leading zero. -/
theorem digits_ne_zero_cons (number : Nat) (second : Char) (more : List Char) :
    digits number ≠ '0' :: second :: more := by
  intro h
  rcases Nat.eq_zero_or_pos number with rfl | hpos
  · rw [digits] at h
    simp at h
  · exact head?_digits_ne_zero hpos (by rw [h]; rfl)

end Decimal

namespace Json

/-- The texts in front of which a numeral ends. -/
def Delimited (text : List Char) : Prop :=
  ∀ char ∈ text.head?, char.isDigit = false ∧ char ≠ '.' ∧ char ≠ 'e' ∧ char ≠ 'E'

/-- Whether a text in front of a delimited one is cut into the given tokens. -/
def Spells (text : List Char) (spelled : List Token) : Prop :=
  ∀ rest, Delimited rest → tokens (text ++ rest) = spelled ++ tokens rest

theorem delimited_nil : Delimited [] := by
  simp [Delimited]

/-- Punctuation is no blank. -/
theorem isBlank_of_punctuation {char : Char} {token : Token} (h : punctuation? char = some token) :
    isBlank char = false := by
  unfold punctuation? at h
  split at h <;> first | rfl | cases h

theorem delimited_cons_of_punctuation {char : Char} {token : Token}
    (h : punctuation? char = some token) (rest : List Char) : Delimited (char :: rest) := by
  intro first hfirst
  cases hfirst
  unfold punctuation? at h
  split at h <;> first | decide | cases h

@[simp] theorem tokens_nil : tokens [] = [] := by
  rw [tokens]

/-- A punctuation character is a token of its own. -/
theorem tokens_cons_of_punctuation {char : Char} {token : Token}
    (h : punctuation? char = some token) (rest : List Char) :
    tokens (char :: rest) = token :: tokens rest := by
  rw [tokens, if_neg (by simp [isBlank_of_punctuation h])]
  simp [firstToken, h]

theorem spells_nil : Spells [] [] := fun _ _ => rfl

/-- A spelled text has the tokens of its spelling. -/
theorem Spells.tokens_eq {text : List Char} {spelled : List Token} (h : Spells text spelled) :
    tokens text = spelled := by
  have hall := h [] delimited_nil
  rwa [List.append_nil, tokens_nil, List.append_nil] at hall

/-- A written form followed by another one that keeps it delimited. -/
theorem Spells.append {first second : List Char} {spelled spelled' : List Token}
    (hfirst : Spells first spelled) (hsecond : Spells second spelled')
    (hdelimited : ∀ rest, Delimited rest → Delimited (second ++ rest)) :
    Spells (first ++ second) (spelled ++ spelled') := by
  intro rest hrest
  rw [List.append_assoc, hfirst _ (hdelimited rest hrest), hsecond rest hrest, List.append_assoc]

/-- A punctuation character behind a written form delimits it. -/
theorem Spells.append_punctuation {first rest : List Char} {spelled spelled' : List Token}
    {char : Char} {token : Token} (hfirst : Spells first spelled)
    (hchar : punctuation? char = some token) (hrest : Spells rest spelled') :
    Spells (first ++ char :: rest) (spelled ++ token :: spelled') := by
  have h : Spells (char :: rest) (token :: spelled') := fun after hafter => by
    rw [List.cons_append, tokens_cons_of_punctuation hchar, hrest after hafter, List.cons_append]
  exact hfirst.append h fun _ _ => delimited_cons_of_punctuation hchar _

/-- Punctuation in front of a spelled text is a token of its own. -/
theorem Spells.cons_punctuation {rest : List Char} {spelled : List Token} {char : Char}
    {token : Token} (hchar : punctuation? char = some token) (hrest : Spells rest spelled) :
    Spells (char :: rest) (token :: spelled) :=
  spells_nil.append_punctuation hchar hrest

/-! ## Texts -/

/-- The piece of a string that a written character is. -/
def spelledPiece (char : Char) : Piece :=
  if char.toNat < 0x20 ∧ char ∉ ['\x08', '\x0c', '\n', '\r', '\t'] then .unit char.toNat
  else .char char

def spelledText (text : String) : StringBody := ⟨text.toList.map spelledPiece, none⟩

/-- The four digits of a control character give its number back. -/
theorem codeUnit?_control {unit : Nat} (h : unit < 0x20) :
    codeUnit? '0' '0' (Bytes.hexDigit (unit / 16)) (Bytes.hexDigit (unit % 16)) = some unit := by
  have : ∀ unit : Fin 0x20, codeUnit? '0' '0' (Bytes.hexDigit (unit.val / 16))
      (Bytes.hexDigit (unit.val % 16)) = some unit.val := by decide
  exact this ⟨unit, h⟩

/-- A character that needs no escape is scanned as itself. -/
theorem scan_plain {char : Char} (hcontrol : ¬ char.toNat < 0x20) (hquote : char ≠ '"')
    (hbackslash : char ≠ '\\') (rest : List Char) :
    StringBody.scan (char :: rest) =
      ((StringBody.scan rest).1.cons (.char char), (StringBody.scan rest).2) := by
  rw [StringBody.scan.eq_def]
  -- Only the last pattern fits a character that is neither a quote nor a backslash.
  split
  case h_1 heq => cases heq
  case h_2 heq => exact absurd (List.head_eq_of_cons_eq heq) hquote
  case h_3 heq => exact absurd (List.head_eq_of_cons_eq heq) hbackslash
  case h_4 heq => exact absurd (List.head_eq_of_cons_eq heq) hbackslash
  case h_5 heq => exact absurd (List.head_eq_of_cons_eq heq) hbackslash
  case h_6 heq => exact absurd (List.head_eq_of_cons_eq heq) hbackslash
  case h_7 heq =>
    cases heq
    rw [if_neg hcontrol]

/-- A written character is scanned as its piece. -/
theorem scan_escape (char : Char) (rest : List Char) :
    StringBody.scan (escape char ++ rest) =
      ((StringBody.scan rest).1.cons (spelledPiece char), (StringBody.scan rest).2) := by
  unfold escape
  split
  · rfl
  · rfl
  · rfl
  · rfl
  · rfl
  · rfl
  · rfl
  · next hquote hbackslash hb hf hn hr ht =>
    split
    · next hlt =>
      have hpiece : spelledPiece char = .unit char.toNat := if_pos ⟨hlt, by simp_all⟩
      simp only [List.cons_append, List.nil_append]
      rw [StringBody.scan, codeUnit?_control hlt, hpiece]
    · next hge =>
      have hpiece : spelledPiece char = .char char := if_neg fun h => hge h.1
      rw [hpiece]
      exact scan_plain hge hquote hbackslash rest

/-- A written text is scanned piece by piece up to its closing quote. -/
theorem scan_flatMap_escape (text rest : List Char) :
    StringBody.scan (text.flatMap escape ++ '"' :: rest) =
      (⟨text.map spelledPiece, none⟩, rest) := by
  induction text with
  | nil => simp [StringBody.scan]
  | cons char text ih =>
    rw [List.flatMap_cons, List.append_assoc, scan_escape, ih]
    rfl

/-- A quote opens a string. -/
theorem tokens_cons_quote (rest : List Char) :
    tokens ('"' :: rest) =
      .string (StringBody.scan rest).1 :: tokens (StringBody.scan rest).2 := by
  rw [tokens, if_neg (by decide)]
  simp [firstToken, punctuation?]

/-- A quoted text is one token. -/
theorem tokens_quote (text : String) (rest : List Char) :
    tokens (quote text ++ rest) = .string (spelledText text) :: tokens rest := by
  have hscan : StringBody.scan (text.toList.flatMap escape ++ '"' :: rest) =
      (spelledText text, rest) := scan_flatMap_escape text.toList rest
  have hquote : quote text ++ rest = '"' :: (text.toList.flatMap escape ++ '"' :: rest) := by
    simp [quote]
  rw [hquote, tokens_cons_quote, hscan]

/-- The pieces of a written text stand for that text, unless a fault ends them. -/
theorem characters_map_spelledPiece (ending : Option Fault) (text : List Char) :
    StringBody.characters ending (text.map spelledPiece) = ending.elim (.ok text) .error := by
  induction text with
  | nil => cases ending <;> rfl
  | cons char text ih =>
    rw [List.map_cons, spelledPiece]
    split
    · next h =>
      have hlow : StringBody.isLowSurrogate char.toNat = false := by
        simp [StringBody.isLowSurrogate]
        omega
      have hhigh : StringBody.isHighSurrogate char.toNat = false := by
        simp [StringBody.isHighSurrogate]
        omega
      rw [StringBody.characters.eq_def]
      simp only [hlow, hhigh, Bool.false_eq_true, if_false, ih, Char.ofNat_toNat]
      cases ending <;> rfl
    · rw [StringBody.characters.eq_def]
      simp only [ih]
      cases ending <;> rfl

/-- The token of a written text stands for that text. -/
@[simp] theorem text_spelledText (text : String) : (spelledText text).text = .ok text := by
  rw [StringBody.text, spelledText, characters_map_spelledPiece]
  exact congrArg Except.ok String.ofList_toList

/-! ## Numbers -/

def spelledNumeral (negative : Bool) (magnitude : Nat) : Numeral :=
  ⟨negative, Decimal.digits magnitude, none, none⟩

def spelledInt : Int → Token
  | .ofNat value => .numeral (.ok (spelledNumeral false value))
  | .negSucc value => .numeral (.ok (spelledNumeral true (value + 1)))

/-- Digits are cut off in front of anything that is no digit. -/
theorem leadingDigits_append {digits rest : List Char}
    (hdigits : ∀ char ∈ digits, char.isDigit = true)
    (hrest : ∀ char ∈ rest.head?, char.isDigit = false) :
    leadingDigits (digits ++ rest) = (digits, rest) := by
  have hnone : rest.takeWhile Char.isDigit = [] ∧ rest.dropWhile Char.isDigit = rest := by
    cases rest with
    | nil => exact ⟨rfl, rfl⟩
    | cons first more =>
      have hfirst := hrest first rfl
      exact ⟨by simp [hfirst], by simp [hfirst]⟩
  rw [leadingDigits, List.takeWhile_append_of_pos hdigits, List.dropWhile_append_of_pos hdigits,
    hnone.1, hnone.2, List.append_nil]

/-- The digits of a number are scanned completely and nothing behind them. -/
theorem leadingDigits_digits (number : Nat) {rest : List Char} (h : Delimited rest) :
    leadingDigits (Decimal.digits number ++ rest) = (Decimal.digits number, rest) :=
  leadingDigits_append (fun _ => Decimal.isDigit_of_mem_digits) fun char hchar => (h char hchar).1

theorem scanFraction_delimited (negative : Bool) (whole : List Char) {rest : List Char}
    (h : Delimited rest) :
    Numeral.scanFraction negative whole rest = ⟨.ok ⟨negative, whole, none, none⟩, rest⟩ := by
  cases rest with
  | nil => rfl
  | cons first more =>
    obtain ⟨-, hpoint, he, hE⟩ := h first rfl
    rw [Numeral.scanFraction.eq_def]
    split
    · next heq =>
      cases heq
      exact absurd rfl hpoint
    · rw [Numeral.scanExponent, if_neg (by simp [he, hE])]

/-- The digits of a number are scanned as a whole. -/
theorem scanUnsigned_digits (negative : Bool) (number : Nat) {rest : List Char}
    (h : Delimited rest) :
    Numeral.scanUnsigned negative (Decimal.digits number ++ rest) =
      ⟨.ok (spelledNumeral negative number), rest⟩ := by
  rw [Numeral.scanUnsigned, leadingDigits_digits number h]
  simp only
  split
  · next heq => exact absurd heq (Decimal.digits_ne_nil number)
  · next heq => exact absurd heq (Decimal.digits_ne_zero_cons number _ _)
  · exact scanFraction_delimited negative _ h

/-- A numeral starts with a digit or a sign. -/
theorem tokens_of_digit {first : Char} (hfirst : first = '-' ∨ first.isDigit = true)
    (rest : List Char) :
    tokens (first :: rest) =
      .numeral (Numeral.scan (first :: rest)).result ::
        tokens (Numeral.scan (first :: rest)).rest := by
  have hblank : isBlank first = false := by
    rcases hfirst with rfl | hfirst
    · rfl
    · by_contra hblank
      simp only [isBlank, Bool.not_eq_false, Bool.or_eq_true, decide_eq_true_eq] at hblank
      rcases hblank with ((rfl | rfl) | rfl) | rfl <;> exact absurd hfirst (by decide)
  have hpunctuation : punctuation? first = none := by
    unfold punctuation?
    split <;> first | rfl | exact absurd hfirst (by decide)
  have hquote : first ≠ '"' := by
    rintro rfl
    exact absurd hfirst (by decide)
  rw [tokens, if_neg (by simp [hblank])]
  simp [firstToken, hpunctuation, hquote, hfirst]

theorem scan_cons_of_isDigit {first : Char} (h : first.isDigit = true) (rest : List Char) :
    Numeral.scan (first :: rest) = Numeral.scanUnsigned false (first :: rest) := by
  rw [Numeral.scan.eq_def]
  split
  · next heq =>
    cases heq
    exact absurd h (by decide)
  · rfl

/-- The written form of a natural number is one token. -/
theorem spells_digits (number : Nat) :
    Spells (Decimal.digits number) [.numeral (.ok (spelledNumeral false number))] := by
  intro rest hrest
  obtain ⟨first, more, hdigits⟩ := List.exists_cons_of_ne_nil (Decimal.digits_ne_nil number)
  have hfirst : first.isDigit = true :=
    Decimal.isDigit_of_mem_digits (hdigits ▸ List.mem_cons_self)
  have hscan : Numeral.scan (Decimal.digits number ++ rest) =
      ⟨.ok (spelledNumeral false number), rest⟩ := by
    rw [← scanUnsigned_digits false number hrest, hdigits, List.cons_append,
      scan_cons_of_isDigit hfirst]
  rw [hdigits, List.cons_append, tokens_of_digit (.inr hfirst), ← List.cons_append, ← hdigits,
    hscan]
  rfl

/-- The written form of an integer is one token. -/
theorem spells_ofInt (number : Int) : Spells (Decimal.ofInt number) [spelledInt number] := by
  cases number with
  | ofNat value => exact spells_digits value
  | negSucc value =>
    intro rest hrest
    rw [Decimal.ofInt, List.cons_append, tokens_of_digit (.inl rfl), Numeral.scan,
      scanUnsigned_digits true (value + 1) hrest]
    rfl

/-- The digits of a number that fits 64 bits are collected without a loss. -/
theorem pushAll_digits {number : Nat} (h : number < UInt64.size) :
    Significand.pushAll ⟨0, 0⟩ (Decimal.digits number) = ⟨number, 0⟩ := by
  fun_induction Decimal.digits number with
  | case1 number hlt =>
    simp [Significand.pushAll, Significand.push, Decimal.digitValue_digit hlt, h]
  | case2 number hle ih =>
    have hdiv : number / 10 < UInt64.size := by omega
    have hnumber : number / 10 * 10 + number % 10 = number := by omega
    have hdigit := Decimal.digitValue_digit (Nat.mod_lt number (by decide : 10 > 0))
    have hfold := ih hdiv
    rw [Significand.pushAll] at hfold ⊢
    rw [List.foldl_append, hfold]
    simp [Significand.push, hdigit, hnumber, h]

/-- A natural number of 64 bits is read back. -/
theorem value_spelledNumeral_natural {number : Nat} (h : number < UInt64.size) :
    (spelledNumeral false number).value = .ok (.natural (UInt64.ofNat number)) := by
  simp [Numeral.value, spelledNumeral, pushAll_digits h]
  rfl

/-- A negative number of 64 bits is read back. -/
theorem value_spelledNumeral_negative {number : Nat} (hpos : 0 < number)
    (h : number ≤ Nat.pow 2 63) :
    (spelledNumeral true number).value = .ok (.negative (Int64.ofInt (-number))) := by
  have hsize : number < UInt64.size := Nat.lt_of_le_of_lt h (by decide)
  simp [Numeral.value, spelledNumeral, pushAll_digits hsize, Nat.ne_of_gt hpos, h]
  rfl

end Json

end TreeManifest
