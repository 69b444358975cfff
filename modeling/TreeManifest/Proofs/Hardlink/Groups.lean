import Mathlib.Data.List.Nodup
import TreeManifest.Proofs.Hardlink.Settle

/-!
# Roles in a settled list

In a settled list the first entry of every group is canonical. Every later one is a link to it and
carries nothing.

## Main definitions

- `Hardlink.settleOne`: one entry with its settled role, and what is known after it.
- `Hardlink.firstPath?`: the path of the first entry of a group.
- `Hardlink.Consistent`: lists in which every entry has the role that its place in its group gives.
- `Entry.canonicalPath`: the path of the entry that stands for the object of an entry.

## Main statements

- `Hardlink.map_outline_settle`: settling changes roles, links and contents only.
- `Hardlink.consistent_settle`: settled lists are consistent.
- `Hardlink.Consistent.exists_canonical`: every group has one canonical entry, its first one.
- `Hardlink.Consistent.content_of_later`: behind the first entry of a group nothing is carried.
- `Hardlink.Consistent.exists_of_linkTo`: links lead back to the canonical entry of their group.
- `Hardlink.Consistent.canonicalPath_eq_iff`: the names of one object have one canonical path.
-/

namespace TreeManifest

def Entry.canonicalPath (entry : Entry) : Path :=
  if entry.role = .linkTo then entry.link.getD [] else entry.path

theorem Entry.canonicalPath_of_role_ne {entry : Entry} (h : entry.role ≠ .linkTo) :
    entry.canonicalPath = entry.path :=
  if_neg h

theorem Entry.canonicalPath_of_link {entry : Entry} {path : Path} (h : entry.role = .linkTo)
    (hlink : entry.link = some path) : entry.canonicalPath = path := by
  rw [canonicalPath, if_pos h, hlink]
  rfl

namespace Hardlink

/-- The path of the first entry of a group in a list. -/
def firstPath? (identity : ObjectId) (entries : List Entry) : Option Path :=
  (entries.find? fun entry => groupOf entry = some identity).map (·.path)

/-- The role of an entry by the first entry of its group that stands before it, if one does. -/
def HasRole (entry : Entry) : Option Path → Prop
  | none => entry.role = .canonical ∧ entry.link = none
  | some path => entry.role = .linkTo ∧ entry.link = some path ∧ entry.size = 0 ∧
      entry.attributes = none ∧ entry.flags = none

/-- Lists in which every entry of a group has the role that its place in the group gives. -/
def Consistent (entries : List Entry) : Prop :=
  ∀ front entry back, entries = front ++ entry :: back →
    ∀ identity, groupOf entry = some identity → HasRole entry (firstPath? identity front)

def settleOne (all : List Entry) (tracker : Tracker) (entry : Entry) : Entry × Tracker :=
  match groupOf entry with
  | none => (entry, tracker)
  | some identity =>
    match tracker.observe identity entry.path with
    | (.first, tracker) => (elect (members identity all) entry, tracker)
    | (.linkTo path, tracker) => (demote path entry, tracker)

variable {all entries front back : List Entry} {tracker : Tracker} {entry : Entry}
  {identity : ObjectId}

theorem settleFrom_cons (all : List Entry) (tracker : Tracker) (entry : Entry)
    (rest : List Entry) : settleFrom all tracker (entry :: rest) =
      (settleOne all tracker entry).1 ::
        settleFrom all (settleOne all tracker entry).2 rest := by
  rw [settleFrom, settleOne]
  cases groupOf entry with
  | none => rfl
  | some identity =>
    dsimp only
    rcases tracker.observe identity entry.path with ⟨_ | path, tracker⟩ <;> rfl

/-! ## One entry -/

/-- An entry belongs to a group if it has a role and an identity. -/
theorem groupOf_eq_some_iff : groupOf entry = some identity ↔
    entry.role ≠ .none ∧ entry.identity = some identity := by
  by_cases hrole : entry.role = .none
  · simp [groupOf, hrole]
  · simp [groupOf, hrole]

/-- Members of groups have one outline if they are the same but for role, link and content. -/
theorem outline_of_eq_some {other : Entry} (hgroup : groupOf entry = some identity)
    (hgroup' : groupOf other = some identity)
    (h : { other with
        role := .canonical, link := none, size := 0, attributes := none, flags := none } =
      { entry with
        role := .canonical, link := none, size := 0, attributes := none, flags := none }) :
    outline other = outline entry := by
  rw [outline_of_groupOf_eq_some hgroup, outline_of_groupOf_eq_some hgroup', h]

/-- Settling an entry keeps its outline. -/
theorem outline_settleOne (all : List Entry) (tracker : Tracker) (entry : Entry) :
    outline (settleOne all tracker entry).1 = outline entry := by
  rw [settleOne]
  cases hgroup : groupOf entry with
  | none => rfl
  | some identity =>
    have hidentity := identity_of_groupOf_eq_some hgroup
    dsimp only
    rcases tracker.observe identity entry.path with ⟨_ | path, tracker⟩
    · exact outline_of_eq_some hgroup hidentity rfl
    · exact outline_of_eq_some hgroup hidentity rfl

/-- Settling an entry keeps its group. -/
theorem groupOf_settleOne (all : List Entry) (tracker : Tracker) (entry : Entry) :
    groupOf (settleOne all tracker entry).1 = groupOf entry := by
  rw [← groupOf_outline, outline_settleOne, groupOf_outline]

theorem path_settleOne (all : List Entry) (tracker : Tracker) (entry : Entry) :
    (settleOne all tracker entry).1.path = entry.path := by
  rw [← path_outline, outline_settleOne, path_outline]

/-- An observation makes a path known unless one is known already. -/
theorem path?_observe (tracker : Tracker) (identity other : ObjectId) (path : Path) :
    (tracker.observe identity path).2.path? other =
      (tracker.path? other).or (if identity = other then some path else none) := by
  unfold Tracker.observe
  by_cases hsame : identity = other
  · subst hsame
    cases hpath : tracker.path? identity with
    | none => simp [Tracker.path?]
    | some first => simp [hpath]
  · cases hpath : tracker.path? identity with
    | none => simp [Tracker.path?, hsame]
    | some first => simp [hsame]

/-- Settling an entry makes its path that of its group, unless the group has one. -/
theorem path?_settleOne (all : List Entry) (tracker : Tracker) (entry : Entry)
    (identity : ObjectId) : (settleOne all tracker entry).2.path? identity =
      (tracker.path? identity).or
        (if groupOf entry = some identity then some entry.path else none) := by
  rw [settleOne]
  cases hgroup : groupOf entry with
  | none => simp
  | some own =>
    have hobserve := path?_observe tracker own identity entry.path
    dsimp only
    rcases hfound : tracker.observe own entry.path with ⟨_ | path, tracker'⟩
    · simpa [hfound] using hobserve
    · simpa [hfound] using hobserve

/-- An entry gets its role by what is known of its group. -/
theorem hasRole_settleOne (all : List Entry) (tracker : Tracker)
    (hgroup : groupOf entry = some identity) :
    HasRole (settleOne all tracker entry).1 (tracker.path? identity) := by
  cases hpath : tracker.path? identity with
  | none => simp [settleOne, hgroup, Tracker.observe, hpath, HasRole, elect]
  | some path => simp [settleOne, hgroup, Tracker.observe, hpath, HasRole, demote]

/-! ## Lists -/

/-- Settling entries keeps their outlines and their order. -/
theorem map_outline_settleFrom (all : List Entry) (tracker : Tracker) (entries : List Entry) :
    (settleFrom all tracker entries).map outline = entries.map outline := by
  induction entries generalizing tracker with
  | nil => rfl
  | cons entry rest ih =>
    rw [settleFrom_cons, List.map_cons, List.map_cons, ih, outline_settleOne]

/-- Settling a list changes roles, links and contents only. -/
theorem map_outline_settle (entries : List Entry) :
    (settle entries).map outline = entries.map outline :=
  map_outline_settleFrom entries {} entries

theorem firstPath?_cons (identity : ObjectId) (entry : Entry) (entries : List Entry) :
    firstPath? identity (entry :: entries) =
      (if groupOf entry = some identity then some entry.path else none).or
        (firstPath? identity entries) := by
  unfold firstPath?
  by_cases hgroup : groupOf entry = some identity
  · simp [hgroup]
  · simp [hgroup]

/-- An entry gets its role by the first entry of its group, in the list or seen before it. -/
theorem hasRole_settleFrom (h : settleFrom all tracker entries = front ++ entry :: back)
    (hgroup : groupOf entry = some identity) :
    HasRole entry ((tracker.path? identity).or (firstPath? identity front)) := by
  induction entries generalizing tracker front with
  | nil =>
    rw [settleFrom] at h
    exact absurd h.symm (List.append_ne_nil_of_right_ne_nil _ (List.cons_ne_nil _ _))
  | cons head rest ih =>
    rw [settleFrom_cons] at h
    cases front with
    | nil =>
      obtain ⟨rfl, -⟩ := List.cons.inj h
      rw [groupOf_settleOne] at hgroup
      rw [show firstPath? identity [] = none from rfl, Option.or_none]
      exact hasRole_settleOne all tracker hgroup
    | cons first front =>
      -- The head is seen before the rest, so its path moves from the list to the tracker.
      obtain ⟨rfl, hrest⟩ := List.cons.inj h
      have hrole := ih hrest
      rw [path?_settleOne, Option.or_assoc] at hrole
      rw [firstPath?_cons, groupOf_settleOne, path_settleOne]
      exact hrole

/-- After settling, every entry of a group has the role that its place in the group gives. -/
theorem consistent_settle (entries : List Entry) : Consistent (settle entries) := by
  intro front entry back h identity hgroup
  have hrole := hasRole_settleFrom h hgroup
  rw [show Tracker.path? {} identity = none from rfl, Option.none_or] at hrole
  exact hrole

/-! ## Groups -/

/-- The path of a group is that of its first member. -/
theorem firstPath?_append_cons (hgroup : groupOf entry = some identity)
    (hfront : ∀ other ∈ front, groupOf other ≠ some identity) (back : List Entry) :
    firstPath? identity (front ++ entry :: back) = some entry.path := by
  induction front with
  | nil => rw [List.nil_append, firstPath?_cons, if_pos hgroup, Option.some_or]
  | cons head front ih =>
    rw [List.cons_append, firstPath?_cons, if_neg (hfront head List.mem_cons_self), Option.none_or,
      ih fun other hother => hfront other (List.mem_cons_of_mem _ hother)]

/-- A group without path has no member. -/
theorem firstPath?_eq_none_iff :
    firstPath? identity entries = none ↔ ∀ entry ∈ entries, groupOf entry ≠ some identity := by
  simp [firstPath?]

/-- A group with members has a first one. -/
theorem exists_first (hentry : entry ∈ entries) (hgroup : groupOf entry = some identity) :
    ∃ front first back, entries = front ++ first :: back ∧ groupOf first = some identity ∧
      ∀ other ∈ front, groupOf other ≠ some identity := by
  cases hfind : entries.find? fun entry => groupOf entry = some identity with
  | none => simpa [hgroup] using List.find?_eq_none.1 hfind entry hentry
  | some first =>
    obtain ⟨hfirst, front, back, hentries, hfront⟩ := List.find?_eq_some_iff_append.1 hfind
    refine ⟨front, first, back, hentries, by simpa using hfirst, fun other hother => ?_⟩
    simpa using hfront other hother

/-- The members of a group are the first one and those behind it. -/
theorem members_of_first (hgroup : groupOf entry = some identity)
    (hfront : ∀ other ∈ front, groupOf other ≠ some identity) :
    members identity (front ++ entry :: back) = entry :: members identity back := by
  have hnone : members identity front = [] := by
    simpa [members, List.filter_eq_nil_iff] using hfront
  have hcons : members identity (entry :: back) = entry :: members identity back :=
    List.filter_cons_of_pos (by simpa using hgroup)
  rw [← hcons, ← List.nil_append (members identity (entry :: back)), ← hnone]
  exact List.filter_append ..

/-- Behind the first member of its group an entry is a link to it. -/
theorem Consistent.hasRole_of_later {link : Entry} (h : Consistent (front ++ entry :: back))
    (hgroup : groupOf entry = some identity)
    (hfront : ∀ other ∈ front, groupOf other ≠ some identity) (hlink : link ∈ back)
    (hsame : groupOf link = some identity) : HasRole link (some entry.path) := by
  obtain ⟨middle, rest, rfl⟩ := List.append_of_mem hlink
  have hrole := h (front ++ entry :: middle) link rest (by simp) identity hsame
  rwa [firstPath?_append_cons hgroup hfront] at hrole

/-- Behind the first member of its group an entry carries nothing. -/
theorem Consistent.content_of_later (h : Consistent (front ++ entry :: back))
    (hgroup : groupOf entry = some identity)
    (hfront : ∀ other ∈ front, groupOf other ≠ some identity) :
    ∀ link ∈ members identity back, link.content = .none := by
  intro link hlink
  obtain ⟨hmem, hsame⟩ := List.mem_filter.1 hlink
  obtain ⟨-, -, hsize, hattributes, hflags⟩ :=
    h.hasRole_of_later hgroup hfront hmem (by simpa using hsame)
  rw [Entry.content, hsize, hattributes, hflags]
  rfl

/-- The first entry of a group is canonical, and the others are links. -/
theorem Consistent.exists_canonical (h : Consistent entries) (hentry : entry ∈ entries)
    (hgroup : groupOf entry = some identity) :
    ∃ front canonical back, entries = front ++ canonical :: back ∧
      groupOf canonical = some identity ∧ canonical.role = .canonical ∧
      (∀ other ∈ front, groupOf other ≠ some identity) ∧
      ∀ other ∈ back, groupOf other = some identity → other.role = .linkTo := by
  obtain ⟨front, first, back, rfl, hfirst, hfront⟩ := exists_first hentry hgroup
  refine ⟨front, first, back, rfl, hfirst, ?_, hfront, fun other hother hsame =>
    (h.hasRole_of_later hfirst hfront hother hsame).1⟩
  have hrole := h front first back rfl identity hfirst
  rw [firstPath?_eq_none_iff.2 hfront] at hrole
  exact hrole.1

/-- A link carries nothing and leads back to the canonical entry of its group. -/
theorem Consistent.exists_of_linkTo (h : Consistent (front ++ entry :: back))
    (hgroup : groupOf entry = some identity) (hlink : entry.role = .linkTo) :
    entry.size = 0 ∧ entry.attributes = none ∧ entry.flags = none ∧
      ∃ canonical ∈ front, groupOf canonical = some identity ∧ canonical.role = .canonical ∧
        entry.link = some canonical.path := by
  have hrole := h front entry back rfl identity hgroup
  by_cases hnone : ∀ other ∈ front, groupOf other ≠ some identity
  · rw [firstPath?_eq_none_iff.2 hnone, HasRole, hlink] at hrole
    cases hrole.1
  · push Not at hnone
    obtain ⟨other, hother, hsame⟩ := hnone
    obtain ⟨before, first, after, rfl, hfirst, hbefore⟩ := exists_first hother hsame
    rw [firstPath?_append_cons hfirst hbefore] at hrole
    obtain ⟨-, hpath, hsize, hattributes, hflags⟩ := hrole
    refine ⟨hsize, hattributes, hflags, first, by simp, hfirst, ?_, hpath⟩
    have hcanonical := h before first (after ++ entry :: back) (by simp) identity hfirst
    rw [firstPath?_eq_none_iff.2 hbefore] at hcanonical
    exact hcanonical.1

/-! ## Canonical paths -/

/-- The path of a group is the path of a member. -/
theorem exists_of_firstPath?_eq_some {path : Path} (h : firstPath? identity entries = some path) :
    ∃ entry ∈ entries, groupOf entry = some identity ∧ entry.path = path := by
  obtain ⟨entry, hfind, hpath⟩ := Option.map_eq_some_iff.1 h
  have hgroup := List.find?_some hfind
  exact ⟨entry, List.mem_of_find?_eq_some hfind, by simpa using hgroup, hpath⟩

theorem firstPath?_append (identity : ObjectId) (front back : List Entry) :
    firstPath? identity (front ++ back) =
      (firstPath? identity front).or (firstPath? identity back) := by
  simp only [firstPath?, List.find?_append, Option.map_or]

/-- An entry without a group stands for itself. -/
theorem canonicalPath_of_groupOf_eq_none (h : groupOf entry = none)
    (hidentity : entry.identity ≠ none) : entry.canonicalPath = entry.path := by
  have hrole : entry.role = .none := by
    by_contra hrole
    rw [groupOf, if_neg hrole] at h
    exact hidentity h
  exact Entry.canonicalPath_of_role_ne (by simp [hrole])

/-- The canonical path of an entry is that of the first entry of its group. -/
theorem Consistent.firstPath?_eq (h : Consistent entries) (hentry : entry ∈ entries)
    (hgroup : groupOf entry = some identity) :
    firstPath? identity entries = some entry.canonicalPath := by
  obtain ⟨front, back, rfl⟩ := List.append_of_mem hentry
  have hrole := h front entry back rfl identity hgroup
  rw [firstPath?_append, firstPath?_cons, if_pos hgroup, Option.some_or]
  cases hfirst : firstPath? identity front with
  | none =>
    rw [hfirst] at hrole
    rw [Option.none_or, Entry.canonicalPath_of_role_ne (by simp [hrole.1])]
  | some path =>
    rw [hfirst] at hrole
    rw [Option.some_or, Entry.canonicalPath_of_link hrole.1 hrole.2.1]

/-- The names of one object have one canonical path, and no other entry has it. -/
theorem Consistent.canonicalPath_eq_iff (h : Consistent entries)
    (hnodup : (entries.map (·.path)).Nodup) (hidentity : ∀ entry ∈ entries, entry.identity ≠ none)
    {other : Entry} (hentry : entry ∈ entries) (hother : other ∈ entries)
    (hgroup : groupOf entry = some identity) :
    other.canonicalPath = entry.canonicalPath ↔ groupOf other = some identity := by
  have hentryPath := h.firstPath?_eq hentry hgroup
  constructor
  · intro hsame
    obtain ⟨first, hfirst, hfirstGroup, hfirstPath⟩ := exists_of_firstPath?_eq_some hentryPath
    cases hotherGroup : groupOf other with
    | none =>
      rw [canonicalPath_of_groupOf_eq_none hotherGroup (hidentity other hother)] at hsame
      rw [List.inj_on_of_nodup_map hnodup hother hfirst (hsame.trans hfirstPath.symm), hfirstGroup]
        at hotherGroup
      cases hotherGroup
    | some held =>
      obtain ⟨second, hsecond, hsecondGroup, hsecondPath⟩ :=
        exists_of_firstPath?_eq_some (h.firstPath?_eq hother hotherGroup)
      rw [← hsecondGroup, ← hfirstGroup, List.inj_on_of_nodup_map hnodup hsecond hfirst
        (hsecondPath.trans (hsame.trans hfirstPath.symm))]
  · intro hotherGroup
    exact Option.some.inj ((h.firstPath?_eq hother hotherGroup).symm.trans hentryPath)

end Hardlink

end TreeManifest
