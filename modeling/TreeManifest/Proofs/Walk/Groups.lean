import TreeManifest.Proofs.Walk.Assigned

/-!
# The group of an object in an outcome

The names of an object with several names are one canonical entry and links to it. All of them tell
the owner, the mode and the time of the object. The attributes and the flag word are those of the
canonical entry alone.

## Main definitions

- `Entry.SameStat`: entries with the same owner, mode and time.
- `Hardlink.IsGroup`: a canonical entry with the further names of its object.

## Main statements

- `Walk.Yields.exists_isGroup`: the members of a group in an outcome.
-/

namespace TreeManifest

variable {entry other third : Entry} {identity : ObjectId}

/-- Entries with the same owner, mode and time. -/
structure Entry.SameStat (entry other : Entry) : Prop where
  mode_eq : entry.mode = other.mode
  modTime_eq : entry.modTime = other.modTime
  uid_eq : entry.uid = other.uid
  gid_eq : entry.gid = other.gid

namespace Entry.SameStat

theorem symm (h : entry.SameStat other) : other.SameStat entry :=
  ⟨h.mode_eq.symm, h.modTime_eq.symm, h.uid_eq.symm, h.gid_eq.symm⟩

theorem trans (h : entry.SameStat other) (h' : other.SameStat third) : entry.SameStat third :=
  ⟨h.mode_eq.trans h'.mode_eq, h.modTime_eq.trans h'.modTime_eq, h.uid_eq.trans h'.uid_eq,
    h.gid_eq.trans h'.gid_eq⟩

end Entry.SameStat

/-- What is inspected of an object is the same under all of its paths. -/
theorem Entry.sameStat_ofStat (path other : Path) (stat : Stat) :
    (Entry.ofStat path stat).SameStat (.ofStat other stat) :=
  ⟨rfl, rfl, rfl, rfl⟩

namespace Hardlink

/-- A canonical entry with the further names of its object, which carry nothing. -/
structure IsGroup (canonical : Entry) (links : List Entry) : Prop where
  role_eq : canonical.role = .canonical
  isLink : ∀ link ∈ links, link.role = .linkTo
  attributes_eq_none : ∀ link ∈ links, link.attributes = none
  flags_eq_none : ∀ link ∈ links, link.flags = none
  sameStat : ∀ link ∈ links, link.SameStat canonical

theorem sameStat_outline (entry : Entry) : (outline entry).SameStat entry := by
  unfold outline
  split <;> exact ⟨rfl, rfl, rfl, rfl⟩

end Hardlink

namespace Walk

variable {lister : Lister} {config : WalkConfig} {outcome : WalkOutcome}

/-- An entry of an outcome tells what was inspected of its object. -/
theorem Yields.exists_sameStat (htree : lister.IsTree) (h : Yields lister config outcome)
    (hentry : entry ∈ outcome.entries) : ∃ child kept, StandsFor lister entry child kept ∧
      entry.SameStat (.ofStat child.entry.path child.stat) := by
  obtain ⟨child, kept, hstands, houtline⟩ := h.exists_outline htree hentry
  refine ⟨child, kept, hstands, ?_⟩
  obtain ⟨link, -, hfilled⟩ := hstands.captures.exists_link
  have hkept : kept.SameStat (.ofStat child.entry.path child.stat) := by
    rw [← hstands.captures.isChild.entry_eq, hfilled]
    exact ⟨rfl, rfl, rfl, rfl⟩
  have hclassify : (lister.classify {} kept child.stat.linkCount).1.SameStat kept :=
    ⟨Lister.mode_classify _ _ _, Lister.classify_keeps (fun _ _ => rfl) (fun _ _ => rfl) _ _ _,
      Lister.classify_keeps (fun _ _ => rfl) (fun _ _ => rfl) _ _ _,
      Lister.classify_keeps (fun _ _ => rfl) (fun _ _ => rfl) _ _ _⟩
  have hentryOutline := Hardlink.sameStat_outline entry
  rw [houtline] at hentryOutline
  exact hentryOutline.symm.trans ((Hardlink.sameStat_outline _).trans (hclassify.trans hkept))

/-- Entries of one object tell the same of it. -/
theorem Yields.sameStat (htree : lister.IsTree) (h : Yields lister config outcome)
    (hentry : entry ∈ outcome.entries) (hother : other ∈ outcome.entries)
    (hidentity : entry.identity = other.identity) : entry.SameStat other := by
  obtain ⟨child, kept, hstands, hstat⟩ := h.exists_sameStat htree hentry
  obtain ⟨child', kept', hstands', hstat'⟩ := h.exists_sameStat htree hother
  have hobject : child.stat = child'.stat := by
    refine htree.stat_eq hstands.captures.isChild.hasObject hstands'.captures.isChild.hasObject ?_
    rw [hstands.identity_eq, hstands'.identity_eq] at hidentity
    exact Option.some.inj hidentity
  rw [hobject] at hstat
  exact hstat.trans ((Entry.sameStat_ofStat _ _ _).trans hstat'.symm)

/-- The members of a group in an outcome are a canonical entry and the further names of its
object. -/
theorem Yields.exists_isGroup (htree : lister.IsTree) (h : Yields lister config outcome)
    (hentry : entry ∈ outcome.entries) (hgroup : Hardlink.groupOf entry = some identity) :
    ∃ canonical links, Hardlink.members identity outcome.entries = canonical :: links ∧
      Hardlink.IsGroup canonical links := by
  obtain ⟨front, canonical, back, hsplit, hcanonical, hrole, hfront, hback⟩ :=
    h.consistent.exists_canonical hentry hgroup
  have hmembers : Hardlink.members identity outcome.entries =
      canonical :: Hardlink.members identity back := by
    rw [hsplit, Hardlink.members_of_first hcanonical hfront]
  have hlink : ∀ link ∈ Hardlink.members identity back, link ∈ outcome.entries ∧
      Hardlink.groupOf link = some identity ∧ link.role = .linkTo := by
    intro link hlink
    obtain ⟨hmem, hsame⟩ := List.mem_filter.1 hlink
    have hsame : Hardlink.groupOf link = some identity := by simpa using hsame
    exact ⟨by simp [hsplit, hmem], hsame, hback link hmem hsame⟩
  have hempty := Hardlink.Consistent.content_of_later (hsplit ▸ h.consistent) hcanonical hfront
  refine ⟨canonical, _, hmembers, hrole, fun link hmem => (hlink link hmem).2.2,
    fun link hmem => congrArg Content.attributes (hempty link hmem),
    fun link hmem => congrArg Content.flags (hempty link hmem), fun link hmem => ?_⟩
  obtain ⟨hentries, hsame, -⟩ := hlink link hmem
  refine h.sameStat htree hentries (by simp [hsplit]) ?_
  rw [Hardlink.identity_of_groupOf_eq_some hsame, Hardlink.identity_of_groupOf_eq_some hcanonical]

end Walk

end TreeManifest
