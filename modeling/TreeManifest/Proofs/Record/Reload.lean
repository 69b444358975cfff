import Mathlib.Data.List.DropRight
import TreeManifest.Proofs.Entry.Operations
import TreeManifest.Proofs.Record.RoundTrip

/-!
# Stored entries are rewritten

An entry that was loaded is in the form that loading gives to entries, except for its path: one slash
at the end of the path of a directory is removed each time, however many there are. Rewriting a
stored entry changes nothing when at most one of them was stored, and otherwise it removes one after
the other.

## Main definitions

- `Entry.surplus`: how many slashes loading can remove from a path.
- `Entry.shorten`: an entry with a shorter path.
- `Entry.reloads`: an entry after it has been written and loaded again several times.

## Main statements

- `Entry.reloads_eq`: every time one of the slashes is removed.
- `Entry.reloads_of_parse`: what rewriting does to an entry that was loaded from a text.
-/

namespace TreeManifest

namespace Path

def trailingSlashes (path : Path) : Nat := (path.rtakeWhile (· == Bytes.slash)).length

theorem trailingSlashes_pos_iff {path : Path} :
    0 < trailingSlashes path ↔ path.getLast? = some Bytes.slash := by
  rcases path.eq_nil_or_concat with rfl | ⟨front, last, rfl⟩
  · decide
  · rw [List.concat_eq_append, List.getLast?_concat, trailingSlashes, List.rtakeWhile_concat]
    by_cases hlast : last = Bytes.slash
    · simp [hlast]
    · simp [hlast]

theorem length_takeWhile_drop {α : Type} {test : α → Bool} {items : List α} {count : Nat}
    (h : count ≤ (items.takeWhile test).length) :
    ((items.drop count).takeWhile test).length = (items.takeWhile test).length - count := by
  induction count generalizing items with
  | zero => rfl
  | succ count ih =>
    cases items with
    | nil => exact absurd h (Nat.not_succ_le_zero count)
    | cons item items =>
      by_cases hitem : test item = true
      · rw [List.takeWhile_cons_of_pos hitem, List.length_cons] at h ⊢
        rw [List.drop_succ_cons, ih (by omega)]
        omega
      · rw [List.takeWhile_cons_of_neg hitem] at h
        simp at h

theorem trailingSlashes_rdrop {path : Path} {count : Nat} (h : count ≤ trailingSlashes path) :
    trailingSlashes (path.rdrop count) = trailingSlashes path - count := by
  have hreverse : ∀ path : Path,
      trailingSlashes path = (path.reverse.takeWhile (· == Bytes.slash)).length := by
    intro path
    rw [trailingSlashes, List.rtakeWhile, List.length_reverse]
  rw [hreverse] at h ⊢
  rw [hreverse, List.rdrop_eq_reverse_drop_reverse, List.reverse_reverse]
  exact length_takeWhile_drop h

end Path

namespace Entry

variable {entry : Entry}

/-- The number of slashes that loading can remove from a path, one at a time: those at the end of
the path of a directory, except that the first byte stays. -/
def surplus (entry : Entry) : Nat :=
  if entry.isDirectory then min (Path.trailingSlashes entry.path) (entry.path.length - 1) else 0

/-- The entry without the last bytes of its path. -/
def shorten (entry : Entry) (count : Nat) : Entry :=
  { entry with path := entry.path.rdrop count }

/-- The entry that is left when an entry is written and loaded again so many times. -/
def reloads : Nat → Entry → Except Json.Fault Entry
  | 0, entry => .ok entry
  | count + 1, entry => do reloads count (← Entry.parse entry.render)

theorem surplus_pos_iff : 0 < entry.surplus ↔
    entry.isDirectory = true ∧ entry.path.length > 1 ∧ entry.path.getLast? = some Bytes.slash := by
  unfold surplus
  by_cases hdirectory : entry.isDirectory = true
  · rw [if_pos hdirectory, ← Path.trailingSlashes_pos_iff, and_iff_right hdirectory]
    omega
  · simp [hdirectory]

theorem trimDirectoryPath_eq (entry : Entry) :
    Record.trimDirectoryPath entry = entry.path.rdrop (min 1 entry.surplus) := by
  unfold Record.trimDirectoryPath
  by_cases hsurplus : 0 < entry.surplus
  · rw [if_pos (surplus_pos_iff.1 hsurplus), Nat.min_eq_left hsurplus, List.dropLast_eq_take,
      List.rdrop]
  · rw [if_neg (mt surplus_pos_iff.2 hsurplus), Nat.eq_zero_of_not_pos hsurplus, Nat.min_zero,
      List.rdrop_zero]

theorem shorten_zero (entry : Entry) : entry.shorten 0 = entry := by
  rw [shorten, List.rdrop_zero]

theorem shorten_shorten (entry : Entry) (first second : Nat) :
    (entry.shorten first).shorten second = entry.shorten (first + second) := by
  simp only [shorten, List.rdrop_add]

theorem surplus_shorten {count : Nat} (h : count ≤ entry.surplus) :
    (entry.shorten count).surplus = entry.surplus - count := by
  have hkind : (entry.shorten count).isDirectory = entry.isDirectory := rfl
  unfold surplus at h ⊢
  rw [hkind]
  by_cases hdirectory : entry.isDirectory = true
  · rw [if_pos hdirectory] at h ⊢
    have hslashes : count ≤ Path.trailingSlashes entry.path := by omega
    have hlength : (entry.shorten count).path.length = entry.path.length - count := by
      simp [shorten, List.rdrop]
    have hrest := Path.trailingSlashes_rdrop hslashes
    rw [if_pos hdirectory, hlength]
    show min (Path.trailingSlashes (entry.path.rdrop count)) _ = _
    omega
  · rw [if_neg hdirectory, if_neg hdirectory, Nat.zero_sub]

/-- What is shorter by at least one byte is another entry. -/
theorem shorten_one_ne (h : 0 < entry.surplus) : entry.shorten 1 ≠ entry := by
  intro hsame
  have hlength := congrArg (fun entry : Entry => entry.path.length) hsame
  have hlong := (surplus_pos_iff.1 h).2.1
  simp only [shorten, List.rdrop, List.length_take] at hlength
  omega

/-- A loaded entry is written and read back without one slash, if its path has one to give. -/
theorem parse_render_shorten (hwf : entry.WellFormed) (hidentity : entry.identity = none) :
    Entry.parse entry.render = .ok (entry.shorten (min 1 entry.surplus)) := by
  rw [parse_render_trimmed hwf, trimDirectoryPath_eq, shorten, ← hidentity]

/-- Every time that an entry is rewritten one more slash is removed, while there is one. -/
theorem reloads_eq (hwf : entry.WellFormed) (hidentity : entry.identity = none) (count : Nat) :
    entry.reloads count = .ok (entry.shorten (min count entry.surplus)) := by
  induction count generalizing entry with
  | zero => rw [Nat.zero_min, shorten_zero, reloads]
  | succ count ih =>
    have hrest := surplus_shorten (Nat.min_le_right 1 entry.surplus)
    have hwf' : (entry.shorten (min 1 entry.surplus)).WellFormed := hwf.congr rfl
    have hcount : min 1 entry.surplus + min count (entry.surplus - min 1 entry.surplus) =
        min (count + 1) entry.surplus := by omega
    rw [reloads, parse_render_shorten hwf hidentity]
    show reloads count _ = _
    rw [ih hwf' hidentity, hrest, shorten_shorten, hcount]

theorem normalizeReserved_eq (entry : Entry) : entry.normalizeReserved.2 =
    { entry with
      attributes := entry.normalizeReserved.2.attributes
      flags := entry.normalizeReserved.2.flags } := by
  unfold normalizeReserved
  split <;> rfl

end Entry

namespace Record

/-- Loading takes away one slash of the path, and other than that it works on attributes and
flags. -/
theorem toEntry_eq (record : Record) : record.toEntry =
    { record.rawEntry.shorten (min 1 record.rawEntry.surplus) with
      attributes := record.toEntry.attributes
      flags := record.toEntry.flags } := by
  rw [Entry.shorten, ← Entry.trimDirectoryPath_eq]
  show Entry.putAttributes _ _ = _
  rw [Entry.normalizeReserved_eq]
  rfl

theorem identity_toEntry (record : Record) : record.toEntry.identity = none := by
  rw [toEntry_eq]
  rfl

theorem surplus_toEntry (record : Record) :
    record.toEntry.surplus = record.rawEntry.surplus - 1 := by
  have hrest := Entry.surplus_shorten (Nat.min_le_right 1 record.rawEntry.surplus)
  rw [toEntry_eq]
  show (record.rawEntry.shorten _).surplus = _
  omega

end Record

namespace Entry

/-- An entry that was loaded from a text can be rewritten any number of times, and only the path of
a directory changes: each time it loses one of the slashes that the text had at its end beyond the
first one. So nothing changes at all unless there were two of them. -/
theorem reloads_of_parse {text : String} {entry : Entry} (h : Entry.parse text = .ok entry) :
    ∃ record, Record.parse text = .ok record ∧
      (∀ count, entry.reloads count =
        .ok (entry.shorten (min count (record.rawEntry.surplus - 1)))) ∧
      (record.rawEntry.surplus ≤ 1 → ∀ count, entry.reloads count = .ok entry) ∧
      (1 < record.rawEntry.surplus → Entry.parse entry.render ≠ .ok entry) := by
  obtain ⟨record, hrecord, rfl⟩ := exists_record_of_parse h
  have hwf := record.wellFormed_toEntry
  have hidentity := record.identity_toEntry
  have hsurplus := record.surplus_toEntry
  have hall : ∀ count, record.toEntry.reloads count =
      .ok (record.toEntry.shorten (min count (record.rawEntry.surplus - 1))) := by
    intro count
    rw [← hsurplus]
    exact reloads_eq hwf hidentity count
  refine ⟨record, hrecord, hall, ?_, ?_⟩
  · intro hfew count
    rw [hall, Nat.sub_eq_zero_of_le hfew, Nat.min_zero, shorten_zero]
  · intro hmany hfixed
    have hpos : 0 < record.toEntry.surplus := by omega
    rw [parse_render_shorten hwf hidentity, Nat.min_eq_left hpos] at hfixed
    exact shorten_one_ne hpos (Except.ok.inj hfixed)

/-- A directory as an older version stored it: two slashes at the end of its path, and a flag word
and an empty name among the attributes. -/
def olderFolder : Entry :=
  { Entry.new [0x64, 0x2F, 0x2F] 0o40755 with
    attributes := some (.ofList [("", [1]), ("\x00lf", [16, 0, 0, 0]), ("user.x", [2])]) }

def newerFolder : Entry :=
  { Entry.new [0x64, 0x2F] 0o40755 with
    attributes := some (.ofList [("user.x", [2])])
    flags := some 16 }

theorem parse_olderFolder : Entry.parse olderFolder.render = .ok newerFolder := by
  rw [parse_render_eq]
  exact congrArg Except.ok (by decide)

theorem reloads_of_parse_olderFolder :
    Entry.parse olderFolder.render = .ok newerFolder ∧
    (∀ count, newerFolder.reloads (count + 1) = .ok { newerFolder with path := [0x64] }) ∧
    Entry.parse newerFolder.render ≠ .ok newerFolder := by
  obtain ⟨record, hrecord, hall, -, hmany⟩ := reloads_of_parse parse_olderFolder
  have hstored : Record.ofEntry olderFolder = record := by
    have hsame := Record.parse_render (Record.ofEntry olderFolder)
    exact Except.ok.inj (hsame.symm.trans hrecord)
  have hsurplus : record.rawEntry.surplus = 2 := by
    rw [← hstored]
    decide
  refine ⟨parse_olderFolder, fun count => ?_, hmany (by omega)⟩
  rw [hall, hsurplus, Nat.min_eq_right (by omega)]
  rfl

/-- Loading is not the end of it: a path may lose another slash when it is stored and loaded
again. -/
theorem not_forall_parse_render : ¬ ∀ (text : String) (entry : Entry),
    Entry.parse text = .ok entry → Entry.parse entry.render = .ok entry := by
  intro hall
  have hfixed := hall olderFolder.render newerFolder parse_olderFolder
  rw [parse_render_eq] at hfixed
  have hpath := congrArg (fun entry : Entry => entry.path) (Except.ok.inj hfixed)
  revert hpath
  decide

end Entry

end TreeManifest
