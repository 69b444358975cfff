import TreeManifest.Proofs.Json.Spelling

/-!
# The grammar of blanks, literals, numerals and strings

What JSON allows to be written, as predicates on characters that do not refer to the scanner. Every
text of the grammar is cut into one token without a fault, and blanks make no tokens.

## Main definitions

- `Json.IsBlanks`, `Json.Padded`: blanks, and texts with blanks around them.
- `Json.IsNumeral`: numerals.
- `Json.IsBody`, `Json.Denotes`: the insides of strings, and the texts that they stand for.
- `Json.IsString`, `Json.WritesText`: all strings, and those that write a given text.

## Main statements

- `Json.Spells.padded`: blanks make no difference.
- `Json.IsNumeral.spells`, `Json.IsString.spells`: the tokens of numerals and strings.
- `Json.WritesText.spells`: a string is read as the text that it writes.
-/

namespace TreeManifest.Json

variable {text rest : List Char} {spelled : List Token} {char : Char}

/-! ## Blanks -/

def IsBlanks (text : List Char) : Prop :=
  ∀ char ∈ text, char ∈ [' ', '\n', '\t', '\r']

instance (text : List Char) : Decidable (IsBlanks text) :=
  List.decidableBAll (· ∈ [' ', '\n', '\t', '\r']) text

/-- The texts of a form with blanks around it. -/
def Padded (Form : List Char → Prop) (text : List Char) : Prop :=
  ∃ before inner after, IsBlanks before ∧ Form inner ∧ IsBlanks after ∧
    text = before ++ (inner ++ after)

theorem padded_self {Form : List Char → Prop} (h : Form text) : Padded Form text :=
  ⟨[], text, [], nofun, h, nofun, by simp⟩

theorem isBlank_of_mem (h : char ∈ [' ', '\n', '\t', '\r']) : isBlank char = true := by
  obtain rfl | rfl | rfl | rfl : char = ' ' ∨ char = '\n' ∨ char = '\t' ∨ char = '\r' := by
    simpa using h
  all_goals rfl

theorem tokens_cons_of_blank (h : char ∈ [' ', '\n', '\t', '\r']) (rest : List Char) :
    tokens (char :: rest) = tokens rest := by
  rw [tokens, if_pos (isBlank_of_mem h)]

theorem delimited_cons_of_blank (h : char ∈ [' ', '\n', '\t', '\r']) (rest : List Char) :
    Delimited (char :: rest) := by
  intro first hfirst
  cases hfirst
  obtain rfl | rfl | rfl | rfl : char = ' ' ∨ char = '\n' ∨ char = '\t' ∨ char = '\r' := by
    simpa using h
  all_goals decide

/-- Blanks in front of a text give no token. -/
theorem IsBlanks.tokens_append (h : IsBlanks text) (rest : List Char) :
    tokens (text ++ rest) = tokens rest := by
  induction text with
  | nil => rfl
  | cons char text ih =>
    obtain ⟨hchar, htext⟩ := List.forall_mem_cons.1 h
    rw [List.cons_append, tokens_cons_of_blank hchar, ih htext]

/-- A numeral may be followed by blanks. -/
theorem IsBlanks.delimited (h : IsBlanks text) (hrest : Delimited rest) :
    Delimited (text ++ rest) := by
  cases text with
  | nil => exact hrest
  | cons char text => exact delimited_cons_of_blank (h char List.mem_cons_self) _

/-- Blanks around a written form make no difference. -/
theorem Spells.padded {before after : List Char} (h : Spells text spelled)
    (hbefore : IsBlanks before) (hafter : IsBlanks after) :
    Spells (before ++ (text ++ after)) spelled := by
  intro rest hrest
  rw [List.append_assoc, hbefore.tokens_append, List.append_assoc,
    h _ (hafter.delimited hrest), hafter.tokens_append]

/-- Blanks around a form make no difference to its tokens. -/
theorem Padded.spells {Form : List Char → Prop} {text : List Char} {Property : List Token → Prop}
    (h : Padded Form text)
    (hform : ∀ {inner}, Form inner → ∃ spelled, Spells inner spelled ∧ Property spelled) :
    ∃ spelled, Spells text spelled ∧ Property spelled := by
  obtain ⟨before, inner, after, hbefore, hinner, hafter, rfl⟩ := h
  obtain ⟨spelled, hspells, hproperty⟩ := hform hinner
  exact ⟨spelled, hspells.padded hbefore hafter, hproperty⟩

/-! ## Literals -/

/-- The tokens of a word. -/
theorem spells_word (word : Word) : Spells word.characters [.word (.ok word)] := by
  intro rest _
  cases word with
  | null =>
    show tokens ('n' :: 'u' :: 'l' :: 'l' :: rest) = _
    rw [tokens, if_neg (by decide)]
    rfl
  | boolean value =>
    cases value with
    | false =>
      show tokens ('f' :: 'a' :: 'l' :: 's' :: 'e' :: rest) = _
      rw [tokens, if_neg (by decide)]
      rfl
    | true =>
      show tokens ('t' :: 'r' :: 'u' :: 'e' :: rest) = _
      rw [tokens, if_neg (by decide)]
      rfl

/-! ## Numerals -/

def IsDigits (text : List Char) : Prop :=
  text ≠ [] ∧ ∀ char ∈ text, char.isDigit = true

theorem isDigits_singleton (h : char.isDigit = true) : IsDigits [char] :=
  ⟨nofun, List.forall_mem_singleton.2 h⟩

def IsWhole (text : List Char) : Prop :=
  IsDigits text ∧ (text.head? = some '0' → text = ['0'])

def IsFraction (text : List Char) : Prop :=
  text = [] ∨ ∃ digits, IsDigits digits ∧ text = '.' :: digits

def IsExponent (text : List Char) : Prop :=
  text = [] ∨ ∃ mark ∈ ['e', 'E'], ∃ sign ∈ [[], ['+'], ['-']], ∃ digits, IsDigits digits ∧
    text = mark :: (sign ++ digits)

def IsNumeral (text : List Char) : Prop :=
  ∃ sign ∈ [[], ['-']], ∃ whole fraction exponent, IsWhole whole ∧ IsFraction fraction ∧
    IsExponent exponent ∧ text = sign ++ (whole ++ (fraction ++ exponent))

theorem Delimited.head?_isDigit (h : Delimited rest) : ∀ char ∈ rest.head?, char.isDigit = false :=
  fun char hchar => (h char hchar).1

/-- A row of digits has a first one. -/
theorem IsDigits.exists_cons (h : IsDigits text) :
    ∃ first more, text = first :: more ∧ first.isDigit = true := by
  obtain ⟨first, more, rfl⟩ := List.exists_cons_of_ne_nil h.1
  exact ⟨first, more, rfl, h.2 first List.mem_cons_self⟩

/-- An exponent starts with neither a digit nor a point, so a fraction ends before it. -/
theorem IsExponent.head?_append (h : IsExponent text) (hrest : Delimited rest) :
    ∀ char ∈ (text ++ rest).head?, char.isDigit = false ∧ char ≠ '.' := by
  rcases h with rfl | ⟨mark, hmark, sign, -, digits, -, rfl⟩
  · exact fun char hchar => ⟨(hrest char hchar).1, (hrest char hchar).2.1⟩
  · intro char hchar
    cases hchar
    obtain rfl | rfl : mark = 'e' ∨ mark = 'E' := by simpa using hmark
    · decide
    · decide

/-- A fraction does not start with a digit, so a whole part ends before it. -/
theorem IsFraction.head?_append {exponent : List Char} (h : IsFraction text)
    (hexponent : IsExponent exponent) (hrest : Delimited rest) :
    ∀ char ∈ (text ++ (exponent ++ rest)).head?, char.isDigit = false := by
  rcases h with rfl | ⟨digits, -, rfl⟩
  · exact fun char hchar => (hexponent.head?_append hrest char hchar).1
  · intro char hchar
    cases hchar
    rfl

/-- Only a sign in front of the digits of an exponent is cut off. -/
theorem exists_exponentSign {sign digits : List Char} (hsign : sign ∈ [[], ['+'], ['-']])
    (hdigits : IsDigits digits) :
    ∃ negative, ∀ rest,
      Numeral.exponentSign (sign ++ digits ++ rest) = (negative, digits ++ rest) := by
  obtain ⟨first, more, rfl, hfirst⟩ := hdigits.exists_cons
  obtain rfl | rfl | rfl : sign = [] ∨ sign = ['+'] ∨ sign = ['-'] := by simpa using hsign
  · refine ⟨false, fun rest => ?_⟩
    show Numeral.exponentSign (first :: (more ++ rest)) = _
    unfold Numeral.exponentSign
    split
    · next heq =>
      cases heq
      exact absurd hfirst (by decide)
    · next heq =>
      cases heq
      exact absurd hfirst (by decide)
    · rfl
  · exact ⟨false, fun _ => rfl⟩
  · exact ⟨true, fun _ => rfl⟩

/-- An exponent is scanned completely and nothing behind it. -/
theorem IsExponent.exists_scan (h : IsExponent text) (negative : Bool) (whole : List Char)
    (fraction : Option (List Char)) :
    ∃ exponent, ∀ rest, Delimited rest →
      Numeral.scanExponent negative whole fraction (text ++ rest) =
        ⟨.ok ⟨negative, whole, fraction, exponent⟩, rest⟩ := by
  rcases h with rfl | ⟨mark, hmark, sign, hsign, digits, hdigits, rfl⟩
  · refine ⟨none, fun rest hrest => ?_⟩
    cases rest with
    | nil => rfl
    | cons first more =>
      obtain ⟨-, -, he, hE⟩ := hrest first rfl
      rw [List.nil_append, Numeral.scanExponent, if_neg (by simp [he, hE])]
  · obtain ⟨minus, hminus⟩ := exists_exponentSign hsign hdigits
    have hmark' : mark = 'e' ∨ mark = 'E' := by simpa using hmark
    refine ⟨some ⟨minus, digits⟩, fun rest hrest => ?_⟩
    rw [List.cons_append, Numeral.scanExponent, if_pos hmark', hminus]
    simp only [leadingDigits_append hdigits.2 hrest.head?_isDigit]
    rw [if_neg (by simpa using hdigits.1)]

/-- A fraction and an exponent are scanned completely and nothing behind them. -/
theorem IsFraction.exists_scan {exponent : List Char} (h : IsFraction text)
    (hexponent : IsExponent exponent) (negative : Bool) (whole : List Char) :
    ∃ numeral, ∀ rest, Delimited rest →
      Numeral.scanFraction negative whole (text ++ (exponent ++ rest)) = ⟨.ok numeral, rest⟩ := by
  rcases h with rfl | ⟨digits, hdigits, rfl⟩
  · obtain ⟨scanned, hscanned⟩ := hexponent.exists_scan negative whole none
    refine ⟨⟨negative, whole, none, scanned⟩, fun rest hrest => ?_⟩
    rw [List.nil_append, Numeral.scanFraction.eq_def]
    split
    · next heq => exact absurd rfl (hexponent.head?_append hrest '.' (by rw [heq]; rfl)).2
    · exact hscanned rest hrest
  · obtain ⟨scanned, hscanned⟩ := hexponent.exists_scan negative whole (some digits)
    refine ⟨⟨negative, whole, some digits, scanned⟩, fun rest hrest => ?_⟩
    have hnext : ∀ char ∈ (exponent ++ rest).head?, char.isDigit = false :=
      fun char hchar => (hexponent.head?_append hrest char hchar).1
    rw [List.cons_append, Numeral.scanFraction]
    simp only [leadingDigits_append hdigits.2 hnext]
    rw [if_neg (by simpa using hdigits.1), hscanned rest hrest]

/-- A numeral without sign is scanned completely and nothing behind it. -/
theorem IsWhole.exists_scan {fraction exponent : List Char} (h : IsWhole text)
    (hfraction : IsFraction fraction) (hexponent : IsExponent exponent) (negative : Bool) :
    ∃ numeral, ∀ rest, Delimited rest →
      Numeral.scanUnsigned negative (text ++ (fraction ++ (exponent ++ rest))) =
        ⟨.ok numeral, rest⟩ := by
  obtain ⟨scanned, hscanned⟩ := hfraction.exists_scan hexponent negative text
  refine ⟨scanned, fun rest hrest => ?_⟩
  rw [Numeral.scanUnsigned, leadingDigits_append h.1.2 (hfraction.head?_append hexponent hrest)]
  simp only
  split
  · exact absurd rfl h.1.1
  · cases h.2 rfl
  · exact hscanned rest hrest

/-- A numeral is one token without a fault. -/
theorem IsNumeral.spells (h : IsNumeral text) :
    ∃ numeral, Spells text [.numeral (.ok numeral)] := by
  obtain ⟨sign, hsign, whole, fraction, exponent, hwhole, hfraction, hexponent, rfl⟩ := h
  obtain rfl | rfl : sign = [] ∨ sign = ['-'] := by simpa using hsign
  · obtain ⟨numeral, hscan⟩ := hwhole.exists_scan hfraction hexponent false
    obtain ⟨first, more, rfl, hfirst⟩ := hwhole.1.exists_cons
    refine ⟨numeral, fun rest hrest => ?_⟩
    have hscanned := hscan rest hrest
    rw [List.cons_append, ← scan_cons_of_isDigit hfirst] at hscanned
    rw [List.nil_append, List.append_assoc, List.append_assoc, List.cons_append,
      tokens_of_digit (.inr hfirst), hscanned]
    rfl
  · obtain ⟨numeral, hscan⟩ := hwhole.exists_scan hfraction hexponent true
    refine ⟨numeral, fun rest hrest => ?_⟩
    rw [List.append_assoc, List.append_assoc, List.append_assoc, List.cons_append, List.nil_append,
      tokens_of_digit (.inl rfl), Numeral.scan, hscan rest hrest]
    rfl

/-! ## Strings -/

/-- The characters that have a short escape, behind the mark of the escape. -/
def shortEscapes : List (Char × Char) :=
  [('"', '"'), ('\\', '\\'), ('/', '/'), ('b', '\x08'), ('f', '\x0c'), ('n', '\n'), ('r', '\r'),
    ('t', '\t')]

def hexDigits : List (Char × Nat) :=
  [('0', 0), ('1', 1), ('2', 2), ('3', 3), ('4', 4), ('5', 5), ('6', 6), ('7', 7), ('8', 8), ('9', 9),
    ('a', 10), ('b', 11), ('c', 12), ('d', 13), ('e', 14), ('f', 15),
    ('A', 10), ('B', 11), ('C', 12), ('D', 13), ('E', 14), ('F', 15)]

/-- The inside of a string, with the closing quote, as the given pieces. -/
inductive IsBody : List Piece → List Char → Prop
  | close : IsBody [] ['"']
  | plain {char : Char} {pieces : List Piece} {text : List Char} (hcontrol : 0x20 ≤ char.toNat)
    (hquote : char ≠ '"') (hbackslash : char ≠ '\\') (h : IsBody pieces text) :
    IsBody (.char char :: pieces) (char :: text)
  | short {mark char : Char} {pieces : List Piece} {text : List Char}
    (hmark : (mark, char) ∈ shortEscapes) (h : IsBody pieces text) :
    IsBody (.char char :: pieces) ('\\' :: mark :: text)
  | unit {a b c d : Char} {first second third fourth : Nat} {pieces : List Piece}
    {text : List Char} (ha : (a, first) ∈ hexDigits) (hb : (b, second) ∈ hexDigits)
    (hc : (c, third) ∈ hexDigits) (hd : (d, fourth) ∈ hexDigits) (h : IsBody pieces text) :
    IsBody (.unit (((first * 16 + second) * 16 + third) * 16 + fourth) :: pieces)
      ('\\' :: 'u' :: a :: b :: c :: d :: text)

/-- The text that pieces stand for. The code units of a surrogate pair make one character; a
surrogate alone makes none. -/
inductive Denotes : List Piece → List Char → Prop
  | nil : Denotes [] []
  | char {char : Char} {pieces : List Piece} {text : List Char} (h : Denotes pieces text) :
    Denotes (.char char :: pieces) (char :: text)
  | unit {char : Char} {pieces : List Piece} {text : List Char} (h : Denotes pieces text) :
    Denotes (.unit char.toNat :: pieces) (char :: text)
  | pair {high low : Nat} {char : Char} {pieces : List Piece} {text : List Char}
    (hhigh : 0xD800 ≤ high ∧ high < 0xDC00) (hlow : 0xDC00 ≤ low ∧ low < 0xE000)
    (hchar : char.toNat = 0x10000 + (high - 0xD800) * 0x400 + (low - 0xDC00))
    (h : Denotes pieces text) :
    Denotes (.unit high :: .unit low :: pieces) (char :: text)

def IsString (text : List Char) : Prop :=
  ∃ pieces body, IsBody pieces body ∧ text = '"' :: body

def WritesText (written : String) (text : List Char) : Prop :=
  ∃ pieces body, IsBody pieces body ∧ Denotes pieces written.toList ∧ text = '"' :: body

/-- Four hexadecimal digits give the code unit that they spell. -/
theorem codeUnit?_of_mem {a b c d : Char} {first second third fourth : Nat}
    (ha : (a, first) ∈ hexDigits) (hb : (b, second) ∈ hexDigits) (hc : (c, third) ∈ hexDigits)
    (hd : (d, fourth) ∈ hexDigits) :
    codeUnit? a b c d = some (((first * 16 + second) * 16 + third) * 16 + fourth) := by
  have hvalue : ∀ digit ∈ hexDigits, Bytes.hexValue? digit.1 = some digit.2 := by decide
  simp [codeUnit?, hvalue _ ha, hvalue _ hb, hvalue _ hc, hvalue _ hd]

theorem shortEscape?_of_mem {mark : Char} (h : (mark, char) ∈ shortEscapes) :
    shortEscape? mark = some char := by
  have hall : ∀ escape ∈ shortEscapes, shortEscape? escape.1 = some escape.2 := by decide
  exact hall (mark, char) h

/-- A short escape is scanned as its character. -/
theorem scan_short {mark : Char} (h : (mark, char) ∈ shortEscapes) (rest : List Char) :
    StringBody.scan ('\\' :: mark :: rest) =
      ((StringBody.scan rest).1.cons (.char char), (StringBody.scan rest).2) := by
  have hmark : shortEscape? mark = some char := shortEscape?_of_mem h
  have hunit : mark ≠ 'u' := by
    rintro rfl
    cases hmark
  rw [StringBody.scan.eq_def]
  -- The pattern of a code unit needs another mark, and the last ones need another beginning.
  split
  case h_1 heq => cases heq
  case h_2 heq => cases heq
  case h_3 heq =>
    cases heq
    exact absurd rfl hunit
  case h_4 heq =>
    cases heq
    exact absurd rfl hunit
  case h_5 heq =>
    cases heq
    rw [hmark]
  case h_6 heq => cases heq
  case h_7 hescape _ heq =>
    cases heq
    exact absurd rfl (hescape mark rest rfl)

/-- A string is scanned up to its closing quote into the pieces of its grammar. -/
theorem IsBody.scan {pieces : List Piece} (h : IsBody pieces text) (rest : List Char) :
    StringBody.scan (text ++ rest) = (⟨pieces, none⟩, rest) := by
  induction h with
  | close => rfl
  | plain hcontrol hquote hbackslash h ih =>
    rw [List.cons_append, scan_plain (Nat.not_lt.2 hcontrol) hquote hbackslash, ih]
    rfl
  | short hmark h ih =>
    rw [List.cons_append, List.cons_append, scan_short hmark, ih]
    rfl
  | unit ha hb hc hd h ih =>
    rw [List.cons_append, List.cons_append, List.cons_append, List.cons_append, List.cons_append,
      List.cons_append, StringBody.scan, codeUnit?_of_mem ha hb hc hd, ih]
    rfl

/-- A string is one token without a fault. -/
theorem IsBody.spells {pieces : List Piece} (h : IsBody pieces text) :
    Spells ('"' :: text) [.string ⟨pieces, none⟩] := by
  intro rest _
  rw [List.cons_append, tokens_cons_quote, h.scan]
  rfl

/-- A character is no surrogate. -/
theorem isSurrogate_toNat (char : Char) :
    StringBody.isLowSurrogate char.toNat = false ∧
      StringBody.isHighSurrogate char.toNat = false := by
  have hvalid : char.toNat < 0xD800 ∨ 0xDFFF < char.toNat ∧ char.toNat < 0x110000 := char.valid
  simp only [StringBody.isLowSurrogate, StringBody.isHighSurrogate, Bool.and_eq_false_iff,
    decide_eq_false_iff_not]
  omega

/-- Pieces are decoded to the text that the grammar assigns to them. -/
theorem Denotes.characters_eq {pieces : List Piece} (h : Denotes pieces text) :
    StringBody.characters none pieces = .ok text := by
  induction h with
  | nil => rfl
  | char h ih =>
    rw [StringBody.characters, ih]
    rfl
  | @unit char pieces text h ih =>
    obtain ⟨hlow, hhigh⟩ := isSurrogate_toNat char
    rw [StringBody.characters.eq_def]
    simp only [hlow, hhigh, Bool.false_eq_true, if_false, ih, Char.ofNat_toNat]
    rfl
  | @pair high low char pieces text hhigh hlow hchar h ih =>
    have hnot : StringBody.isLowSurrogate high = false := by
      simp [StringBody.isLowSurrogate]
      omega
    have hfirst : StringBody.isHighSurrogate high = true := by
      simp [StringBody.isHighSurrogate]
      omega
    have hsecond : StringBody.isLowSurrogate low = true := by
      simp [StringBody.isLowSurrogate]
      omega
    have hvalue : StringBody.pairValue high low = char := by
      have hnumber : (high - 0xD800) * 0x400 + (low - 0xDC00) + 0x10000 = char.toNat := by omega
      rw [StringBody.pairValue, hnumber, Char.ofNat_toNat]
    rw [StringBody.characters.eq_def]
    simp only [hnot, hfirst, hsecond, Bool.false_eq_true, if_false, if_true, ih, hvalue]
    rfl

/-- A string of the grammar is one token without a fault. -/
theorem IsString.spells (h : IsString text) :
    ∃ spelled, Spells text spelled ∧
      ∃ body : StringBody, spelled = [.string body] ∧ body.ending = none := by
  obtain ⟨pieces, body, hbody, rfl⟩ := h
  exact ⟨_, hbody.spells, ⟨pieces, none⟩, rfl, rfl⟩

/-- A string that writes a text is read as that text. -/
theorem WritesText.spells {written : String} (h : WritesText written text) :
    ∃ spelled, Spells text spelled ∧
      ∃ body : StringBody, spelled = [.string body] ∧ body.text = .ok written := by
  obtain ⟨pieces, body, hbody, hdenotes, rfl⟩ := h
  refine ⟨_, hbody.spells, ⟨pieces, none⟩, rfl, ?_⟩
  rw [StringBody.text, hdenotes.characters_eq]
  exact congrArg Except.ok String.ofList_toList

/-! ### Quoted texts -/

/-- A written character is a piece of a string. -/
theorem IsBody.escape {pieces : List Piece} (h : IsBody pieces text) (char : Char) :
    IsBody (spelledPiece char :: pieces) (escape char ++ text) := by
  unfold Json.escape
  split
  case h_8 hquote hbackslash hb hf hn hr ht =>
    split
    · next hlt =>
      have hdigit : ∀ unit : Fin 0x20, (Bytes.hexDigit (unit.val / 16), unit.val / 16) ∈ hexDigits ∧
          (Bytes.hexDigit (unit.val % 16), unit.val % 16) ∈ hexDigits := by decide
      obtain ⟨hthird, hfourth⟩ := hdigit ⟨char.toNat, hlt⟩
      have hpiece : spelledPiece char =
          .unit (((0 * 16 + 0) * 16 + char.toNat / 16) * 16 + char.toNat % 16) := by
        rw [spelledPiece, if_pos ⟨hlt, by simp_all⟩]
        congr 1
        omega
      rw [hpiece]
      exact .unit (by decide) (by decide) hthird hfourth h
    · next hge =>
      rw [spelledPiece, if_neg fun h => hge h.1]
      exact .plain (Nat.not_lt.1 hge) hquote hbackslash h
  all_goals exact .short (by decide) h

/-- A written text is a string of the grammar. -/
theorem isBody_flatMap_escape (text : List Char) :
    IsBody (text.map spelledPiece) (text.flatMap escape ++ ['"']) := by
  induction text with
  | nil => exact .close
  | cons char text ih =>
    rw [List.map_cons, List.flatMap_cons, List.append_assoc]
    exact ih.escape char

/-- The pieces of a written text denote that text. -/
theorem denotes_map_spelledPiece (text : List Char) :
    Denotes (text.map spelledPiece) text := by
  induction text with
  | nil => exact .nil
  | cons char text ih =>
    rw [List.map_cons, spelledPiece]
    split
    · exact .unit ih
    · exact .char ih

/-- A quoted text writes that text. -/
theorem writesText_quote (written : String) : WritesText written (quote written) :=
  ⟨_, _, isBody_flatMap_escape written.toList, denotes_map_spelledPiece written.toList, rfl⟩

end TreeManifest.Json
