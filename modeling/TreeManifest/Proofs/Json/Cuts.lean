import Mathlib.Order.Interval.Set.UnorderedInterval
import TreeManifest.Proofs.Json.Spelling

/-!
# Written forms that are cut off

A written form that is cut off before its end gives no token, or one token that is broken, or the
token of a smaller number.

## Main definitions

- `Json.IsCut`: a text is a beginning of another one and ends before it.

## Main statements

- `Json.tokens_of_isCut_quote`: a quoted text.
- `Json.tokens_of_isCut_digits`, `Json.tokens_of_isCut_ofInt`: a number.
-/

namespace TreeManifest.Json

def IsCut (front text : List Char) : Prop :=
  ∃ lost, lost ≠ [] ∧ front ++ lost = text

namespace IsCut

variable {front text first second : List Char} {char : Char}

theorem of_beginning (h : front <+: text) (hne : front ≠ text) : IsCut front text := by
  obtain ⟨lost, rfl⟩ := h
  exact ⟨lost, fun hlost => hne (by rw [hlost, List.append_nil]), rfl⟩

theorem ne_nil (h : IsCut front text) : text ≠ [] := by
  obtain ⟨lost, hlost, rfl⟩ := h
  exact List.append_ne_nil_of_right_ne_nil front hlost

/-- A cut falls before the first character or behind it. -/
theorem cons_cases (h : IsCut front (char :: text)) :
    front = [] ∨ ∃ rest, front = char :: rest ∧ IsCut rest text := by
  obtain ⟨lost, hlost, htext⟩ := h
  cases front with
  | nil => exact .inl rfl
  | cons head rest =>
    obtain ⟨rfl, hrest⟩ := List.cons_eq_cons.1 htext
    exact .inr ⟨rest, rfl, lost, hlost, hrest⟩

/-- A cut falls into the first part or behind it. -/
theorem append_cases (h : IsCut front (first ++ second)) :
    IsCut front first ∨ ∃ rest, front = first ++ rest ∧ IsCut rest second := by
  induction first generalizing front with
  | nil => exact .inr ⟨front, rfl, h⟩
  | cons char first ih =>
    rcases h.cons_cases with rfl | ⟨rest, rfl, hrest⟩
    · exact .inl ⟨char :: first, List.cons_ne_nil _ _, rfl⟩
    · rcases ih hrest with ⟨lost, hlost, rfl⟩ | ⟨more, rfl, hmore⟩
      · exact .inl ⟨lost, hlost, rfl⟩
      · exact .inr ⟨more, rfl, hmore⟩

theorem eq_nil_of_singleton (h : IsCut front [char]) : front = [] := by
  rcases h.cons_cases with rfl | ⟨rest, rfl, hrest⟩
  · rfl
  · exact absurd rfl hrest.ne_nil

end IsCut

variable {front : List Char}

/-! ## Texts -/

theorem scan_of_isCut_short {char : Char} (h : IsCut front ['\\', char]) :
    StringBody.scan front = (⟨[], some .truncated⟩, []) := by
  rcases h.cons_cases with rfl | ⟨rest, rfl, hrest⟩
  · rfl
  · obtain rfl := hrest.eq_nil_of_singleton
    rfl

/-- Too few digits of a control character are an early end, since each of them is one byte. -/
theorem scan_of_isCut_unit {unit : Nat} (hlt : unit < 0x20)
    (h : IsCut front ['\\', 'u', '0', '0', Bytes.hexDigit (unit / 16),
      Bytes.hexDigit (unit % 16)]) :
    StringBody.scan front = (⟨[], some .truncated⟩, []) := by
  have hshort : ∀ unit : Fin 0x20,
      (Bytes.ofChars ['0', '0', Bytes.hexDigit (unit.val / 16)]).length < 4 := by decide
  rcases h.cons_cases with rfl | ⟨rest, rfl, hmark⟩
  · rfl
  rcases hmark.cons_cases with rfl | ⟨rest, rfl, hfirst⟩
  · rfl
  rcases hfirst.cons_cases with rfl | ⟨rest, rfl, hsecond⟩
  · rfl
  rcases hsecond.cons_cases with rfl | ⟨rest, rfl, hthird⟩
  · rfl
  rcases hthird.cons_cases with rfl | ⟨rest, rfl, hfourth⟩
  · rfl
  obtain rfl := hfourth.eq_nil_of_singleton
  rw [StringBody.scan, shortUnitFault, if_pos (hshort ⟨unit, hlt⟩)]
  all_goals simp

/-- An escape that is cut off breaks the string off. -/
theorem scan_of_isCut_escape {char : Char} (h : IsCut front (escape char)) :
    StringBody.scan front = (⟨[], some .truncated⟩, []) := by
  unfold escape at h
  split at h
  case h_8 =>
    split at h
    · next hlt => exact scan_of_isCut_unit hlt h
    · obtain rfl := h.eq_nil_of_singleton
      rfl
  all_goals exact scan_of_isCut_short h

/-- A quoted text that is cut off keeps some of its pieces. -/
theorem exists_scan_of_isCut {text : List Char}
    (h : IsCut front (text.flatMap escape ++ ['"'])) :
    ∃ done : List Char,
      StringBody.scan front = (⟨done.map spelledPiece, some .truncated⟩, []) := by
  induction text generalizing front with
  | nil =>
    obtain rfl : front = [] := h.eq_nil_of_singleton
    exact ⟨[], rfl⟩
  | cons char text ih =>
    rw [List.flatMap_cons, List.append_assoc] at h
    rcases h.append_cases with hescape | ⟨rest, rfl, hrest⟩
    · exact ⟨[], scan_of_isCut_escape hescape⟩
    · obtain ⟨done, hdone⟩ := ih hrest
      refine ⟨char :: done, ?_⟩
      rw [scan_escape, hdone]
      rfl

/-- A quoted text that is cut off is no token, or a string that is broken off. -/
theorem tokens_of_isCut_quote {text : String} (h : IsCut front (quote text)) :
    tokens front = [] ∨
      ∃ body : StringBody, tokens front = [.string body] ∧ body.text = .error .truncated := by
  rcases h.cons_cases with rfl | ⟨rest, rfl, hrest⟩
  · exact .inl tokens_nil
  · obtain ⟨done, hscan⟩ := exists_scan_of_isCut hrest
    refine .inr ⟨⟨done.map spelledPiece, some .truncated⟩, ?_, ?_⟩
    · rw [tokens_cons_quote, hscan, tokens_nil]
    · rw [StringBody.text, characters_map_spelledPiece]
      rfl

/-! ## Numbers -/

/-- Digits that are cut off are those of a smaller number. -/
theorem eq_digits_of_isCut {number : Nat} (h : IsCut front (Decimal.digits number)) :
    front = [] ∨ ∃ smaller, 0 < smaller ∧ smaller < number ∧ front = Decimal.digits smaller := by
  fun_induction Decimal.digits number generalizing front with
  | case1 number hlt => exact .inl h.eq_nil_of_singleton
  | case2 number hle ih =>
    rcases h.append_cases with hcut | ⟨rest, rfl, hrest⟩
    · rcases ih hcut with rfl | ⟨smaller, hpos, hlt, rfl⟩
      · exact .inl rfl
      · exact .inr ⟨smaller, hpos, by omega, rfl⟩
    · obtain rfl := hrest.eq_nil_of_singleton
      exact .inr ⟨number / 10, by omega, by omega, List.append_nil _⟩

/-- A natural number that is cut off is no token, or a smaller number. -/
theorem tokens_of_isCut_digits {number : Nat} (h : IsCut front (Decimal.digits number)) :
    tokens front = [] ∨ ∃ smaller < number, tokens front = [spelledInt smaller] := by
  rcases eq_digits_of_isCut h with rfl | ⟨smaller, -, hlt, rfl⟩
  · exact .inl tokens_nil
  · exact .inr ⟨smaller, hlt, (spells_digits smaller).tokens_eq⟩

/-- An integer that is cut off is no token, or a lone sign, or an integer nearer to zero. -/
theorem tokens_of_isCut_ofInt {number : Int} (h : IsCut front (Decimal.ofInt number)) :
    tokens front = [] ∨ tokens front = [.numeral (.error .truncated)] ∨
      ∃ smaller ∈ Set.uIcc 0 number, tokens front = [spelledInt smaller] := by
  cases number with
  | ofNat magnitude =>
    refine (tokens_of_isCut_digits h).imp_right fun ⟨smaller, hlt, htokens⟩ =>
      .inr ⟨smaller, Set.mem_uIcc.2 (.inl ?_), htokens⟩
    simp only [Int.ofNat_eq_natCast]
    omega
  | negSucc magnitude =>
    rcases h.cons_cases with rfl | ⟨rest, rfl, hrest⟩
    · exact .inl tokens_nil
    · refine .inr ?_
      rcases eq_digits_of_isCut hrest with rfl | ⟨smaller, hpos, hlt, rfl⟩
      · exact .inl (by rw [tokens_of_digit (.inl rfl)]; exact congrArg _ tokens_nil)
      · obtain ⟨less, rfl⟩ : ∃ less, smaller = less + 1 := ⟨smaller - 1, by omega⟩
        refine .inr ⟨.negSucc less, Set.mem_uIcc.2 (.inr ?_), (spells_ofInt (.negSucc less)).tokens_eq⟩
        omega

end TreeManifest.Json
