import TreeManifest.Manifest
import TreeManifest.Proofs.Record.RoundTrip

/-!
# The lines of a manifest

A text inside a record is escaped and a byte string is an array of numbers, so a record holds no
control character, whatever its entry holds. A newline therefore ends a line and nothing else, and
the text of a list of entries is cut into their records again.

## Main definitions

- `Json.Printable`: texts without control characters.
- `Manifest.Frames`: a text that holds one line for each entry, and what is loaded from the lines.

## Main statements

- `Entry.printable_render`: the text of an entry has no control character.
- `Manifest.lines?_render`: the lines of a manifest are the records of its entries.
- `Manifest.frames_render`: a manifest frames its entries.
-/

namespace TreeManifest

/-! ## Texts without control characters -/

namespace Json

def Printable (text : List Char) : Prop :=
  ∀ char ∈ text, 0x20 ≤ char.toNat

@[simp] theorem printable_nil : Printable [] := by
  simp [Printable]

@[simp] theorem printable_cons {char : Char} {text : List Char} :
    Printable (char :: text) ↔ 0x20 ≤ char.toNat ∧ Printable text := by
  simp [Printable]

@[simp] theorem printable_append {first second : List Char} :
    Printable (first ++ second) ↔ Printable first ∧ Printable second := by
  simp [Printable, or_imp, forall_and]

/-- Printable text stays on one line. -/
theorem Printable.newline_notMem {text : List Char} (h : Printable text) : '\n' ∉ text :=
  fun hmem => absurd (h '\n' hmem) (by decide)

theorem printable_hexDigit {value : Nat} (h : value < 16) :
    0x20 ≤ (Bytes.hexDigit value).toNat := by
  have : ∀ value : Fin 16, 0x20 ≤ (Bytes.hexDigit value.val).toNat := by decide
  exact this ⟨value, h⟩

/-- Control characters are written by a letter or by their number. -/
theorem printable_escape (char : Char) : Printable (escape char) := by
  unfold escape
  split
  case h_8 =>
    split
    · next hlt =>
      have hhigh : 0x20 ≤ (Bytes.hexDigit (char.toNat / 16)).toNat :=
        printable_hexDigit (by omega)
      have hlow : 0x20 ≤ (Bytes.hexDigit (char.toNat % 16)).toNat :=
        printable_hexDigit (by omega)
      simp only [printable_cons, printable_nil, hhigh, hlow, and_self, and_true]
      decide
    · next hge => simpa using hge
  all_goals simp only [printable_cons, printable_nil, and_true]; decide

/-- A quoted text is printable, for everything else in it is escaped. -/
theorem printable_quote (text : String) : Printable (quote text) := by
  have hbody : Printable (text.toList.flatMap escape) := by
    intro char hchar
    obtain ⟨source, -, hchar⟩ := List.mem_flatMap.1 hchar
    exact printable_escape source char hchar
  simp only [quote, List.cons_append, printable_cons, printable_append, printable_nil, hbody,
    true_and, and_true]
  decide

theorem printable_digits (number : Nat) : Printable (Decimal.digits number) := by
  intro char hchar
  have hdigit := Decimal.isDigit_of_mem_digits hchar
  rw [Char.isDigit, Bool.and_eq_true, decide_eq_true_eq, decide_eq_true_eq] at hdigit
  have hlow : 48 ≤ char.toNat := hdigit.1
  omega

theorem printable_ofInt (number : Int) : Printable (Decimal.ofInt number) := by
  cases number with
  | ofNat number => exact printable_digits number
  | negSucc number => exact printable_cons.2 ⟨by decide, printable_digits (number + 1)⟩

end Json

namespace Record

open Json (Printable printable_cons printable_append printable_nil printable_quote
  printable_digits printable_ofInt)

/-- Separators keep a text printable. -/
theorem printable_separate {items : List (List Char)} (h : ∀ item ∈ items, Printable item) :
    Printable (separate items) := by
  cases items with
  | nil => exact printable_nil
  | cons first more =>
    obtain ⟨hfirst, hmore⟩ := List.forall_mem_cons.1 h
    rw [separate_cons, printable_append]
    refine ⟨hfirst, fun char hchar => ?_⟩
    obtain ⟨item, hitem, hchar⟩ := List.mem_flatMap.1 hchar
    have hseparated : Printable (',' :: item) := printable_cons.2 ⟨by decide, hmore item hitem⟩
    exact hseparated char hchar

theorem printable_writeBytes (bytes : Bytes) : Printable (writeBytes bytes) := by
  have hitems : Printable (separate (bytes.map fun byte => Decimal.digits byte.toNat)) := by
    refine printable_separate fun item hitem => ?_
    obtain ⟨byte, -, rfl⟩ := List.mem_map.1 hitem
    exact printable_digits byte.toNat
  simp only [writeBytes, List.cons_append, printable_cons, printable_append, printable_nil, hitems,
    true_and, and_true]
  decide

theorem printable_writeBinding (binding : String × Bytes) : Printable (writeBinding binding) :=
  printable_append.2 ⟨printable_quote binding.1,
    printable_cons.2 ⟨by decide, printable_writeBytes binding.2⟩⟩

theorem printable_writeAttributes (map : AttributeMap) : Printable (writeAttributes map) := by
  have hitems : Printable (separate (map.toList.map writeBinding)) := by
    refine printable_separate fun item hitem => ?_
    obtain ⟨binding, -, rfl⟩ := List.mem_map.1 hitem
    exact printable_writeBinding binding
  simp only [writeAttributes, List.cons_append, printable_cons, printable_append, printable_nil,
    hitems, true_and, and_true]
  decide

/-- The value of every field is written without control characters. -/
theorem printable_write? {field : Field} {value : field.Value} {text : List Char}
    (h : field.write? value = some text) : Printable text := by
  cases field with
  | path => cases h; exact printable_writeBytes value
  | size => cases h; exact printable_digits _
  | mode => cases h; exact printable_digits _
  | attributes =>
    obtain ⟨map, -, rfl⟩ := Option.map_eq_some_iff.1 h
    exact printable_writeAttributes map
  | flags =>
    obtain ⟨word, -, rfl⟩ := Option.map_eq_some_iff.1 h
    exact printable_digits _
  | link =>
    obtain ⟨bytes, -, rfl⟩ := Option.map_eq_some_iff.1 h
    exact printable_writeBytes bytes
  | role => cases h; exact printable_quote _
  | modTime => cases h; exact printable_ofInt _
  | uid => cases h; exact printable_ofInt _
  | gid => cases h; exact printable_ofInt _
  | startChunk => cases h; exact printable_ofInt _
  | startOffset => cases h; exact printable_ofInt _

/-- A written record is printable. -/
theorem printable_characters (record : Record) : Printable record.characters := by
  have hmembers : Printable (separate (Field.all.filterMap record.member?)) := by
    refine printable_separate fun item hitem => ?_
    obtain ⟨field, -, hmember⟩ := List.mem_filterMap.1 hitem
    obtain ⟨text, hwrite, rfl⟩ := Option.map_eq_some_iff.1 hmember
    exact printable_append.2 ⟨printable_quote field.name,
      printable_cons.2 ⟨by decide, printable_write? hwrite⟩⟩
  simp only [characters, List.cons_append, printable_cons, printable_append, printable_nil,
    hmembers, true_and, and_true]
  decide

end Record

namespace Entry

/-- The text of an entry has no control character, whatever the entry holds. -/
theorem printable_render (entry : Entry) : Json.Printable entry.render.toList := by
  rw [Entry.render, Record.render, String.toList_ofList]
  exact Record.printable_characters _

end Entry

namespace Manifest

/-! ## Lines -/

/-- A text without newlines in front of a newline is a line. -/
theorem lines?_append_newline {text : List Char} (h : '\n' ∉ text) (rest : List Char) :
    lines? (text ++ '\n' :: rest) = (lines? rest).map (text :: ·) := by
  induction text with
  | nil => rw [List.nil_append, lines?]
  | cons char text ih =>
    obtain ⟨hchar, htext⟩ := not_or.1 (mt List.mem_cons.2 h)
    rw [List.cons_append, lines?, ih htext]
    · cases lines? rest <;> rfl
    · exact fun heq => hchar heq.symm

/-- The lines of a manifest are the records of its entries. -/
theorem lines?_render (entries : List Entry) :
    lines? (render entries).toList = some (entries.map fun entry => entry.render.toList) := by
  rw [render, String.toList_ofList]
  induction entries with
  | nil => rfl
  | cons entry entries ih =>
    rw [List.flatMap_cons, line, List.append_assoc, List.singleton_append,
      lines?_append_newline entry.printable_render.newline_notMem, ih]
    rfl

/-- A text that holds one line for each entry, in their order, and from which other entries are
loaded one by one. -/
structure Frames (entries loaded : List Entry) (text : String) : Prop where
  /-- Every line is a record and ends in a newline, and there are no other characters. -/
  text_eq : text = String.join (entries.map fun entry => entry.render ++ "\n")
  lines_eq : lines? text.toList = some (entries.map fun entry => entry.render.toList)
  printable : ∀ entry ∈ entries, Json.Printable entry.render.toList
  parse_each : (entries.map Entry.render).mapM Entry.parse = .ok loaded
  parse_eq : parse text = .ok loaded

/-- Lines of well-formed entries are read back in order. -/
theorem parseLines_map (number : Nat) {entries : List Entry}
    (h : ∀ entry ∈ entries, entry.WellFormed) :
    parseLines number (entries.map fun entry => entry.render.toList) =
      .ok (entries.map Entry.stored) := by
  induction entries generalizing number with
  | nil => rfl
  | cons entry entries ih =>
    obtain ⟨hentry, hentries⟩ := List.forall_mem_cons.1 h
    rw [List.map_cons, parseLines, String.ofList_toList, Entry.parse_render_stored hentry,
      ih (number + 1) hentries]
    rfl

/-- Every entry has its own line. -/
theorem render_eq_join (entries : List Entry) :
    render entries = String.join (entries.map fun entry => entry.render ++ "\n") := by
  apply String.toList_injective
  rw [render, String.toList_ofList, String.toList_join, List.flatMap_map]
  refine List.flatMap_congr fun entry _ => ?_
  rw [line, String.toList_append]
  rfl

/-- A manifest frames its entries, which are loaded as they are stored. -/
theorem frames_render {entries : List Entry} (h : ∀ entry ∈ entries, entry.WellFormed) :
    Frames entries (entries.map Entry.stored) (render entries) where
  text_eq := render_eq_join entries
  lines_eq := lines?_render entries
  printable entry _ := entry.printable_render
  parse_each := by
    rw [List.mapM_map]
    exact Entry.mapM_parse_render h
  parse_eq := by
    rw [parse, lines?_render]
    exact parseLines_map 1 h

end Manifest

end TreeManifest
