import TreeManifest.Proofs.Hardlink.Groups

/-!
# Settled entries by their places

The entry at a place of a settled list follows from the entry that stood there and from what stood
before it: without a group it stays, as the first of its group it is elected, and otherwise it is
demoted to a link. A list in which every entry already has its role is left alone, so settling a
second time changes nothing.

## Main definitions

- `Hardlink.settledAt`: an entry with its settled role, given what stands before it.
- `Hardlink.HoldsContent`: an entry that carries what its group carries.
- `Hardlink.SettlesTo`: what settling changes in an entry, and what it keeps.

## Main statements

- `Hardlink.getElem?_settle`: a settled list place by place.
- `Hardlink.settlesTo_settledAt`: the first entry of a group gets all that the group carries.
- `Hardlink.settle_eq_self`: lists with settled roles stay as they are.
- `Hardlink.settle_settle`: settling is idempotent.
-/

namespace TreeManifest.Hardlink

/-- An entry of a list with its settled role, given the entries that stand before it. -/
def settledAt (all front : List Entry) (entry : Entry) : Entry :=
  match groupOf entry with
  | none => entry
  | some identity =>
    match firstPath? identity front with
    | none => elect (members identity all) entry
    | some path => demote path entry

variable {all entries front back : List Entry} {tracker : Tracker} {entry : Entry}
  {identity : ObjectId}

theorem settledAt_of_groupOf_eq_none (h : groupOf entry = none) :
    settledAt all front entry = entry := by
  rw [settledAt, h]

/-- The first of a group becomes its canonical entry. -/
theorem settledAt_of_first (h : groupOf entry = some identity)
    (hfirst : firstPath? identity front = none) :
    settledAt all front entry = elect (members identity all) entry := by
  simp only [settledAt, h, hfirst]

/-- Every later one of a group becomes a link to the first. -/
theorem settledAt_of_later {path : Path} (h : groupOf entry = some identity)
    (hfirst : firstPath? identity front = some path) :
    settledAt all front entry = demote path entry := by
  simp only [settledAt, h, hfirst]

/-! ## Lists by their places -/

theorem settleOne_eq_settledAt
    (htracker : ∀ identity, tracker.path? identity = firstPath? identity front) :
    (settleOne all tracker entry).1 = settledAt all front entry := by
  rw [settleOne]
  cases hgroup : groupOf entry with
  | none => rw [settledAt_of_groupOf_eq_none hgroup]
  | some identity =>
    cases hpath : firstPath? identity front with
    | none => simp [settledAt_of_first hgroup hpath, Tracker.observe, htracker, hpath]
    | some path => simp [settledAt_of_later hgroup hpath, Tracker.observe, htracker, hpath]

/-- What an entry is settled to depends on the entries before it and on all members of its group. -/
theorem getElem?_settleFrom (all : List Entry) (entries : List Entry)
    (htracker : ∀ identity, tracker.path? identity = firstPath? identity front) (index : Nat) :
    (settleFrom all tracker entries)[index]? =
      entries[index]?.map (settledAt all (front ++ entries.take index)) := by
  induction entries generalizing tracker front index with
  | nil => rfl
  | cons entry rest ih =>
    rw [settleFrom_cons]
    cases index with
    | zero =>
      rw [List.getElem?_cons_zero, List.getElem?_cons_zero, settleOne_eq_settledAt htracker]
      simp
    | succ index =>
      -- What the tracker knows behind the entry is what stands up to it.
      have hnext : ∀ identity, (settleOne all tracker entry).2.path? identity =
          firstPath? identity (front ++ [entry]) := by
        intro identity
        rw [path?_settleOne, htracker, firstPath?_append, firstPath?_cons]
        simp [firstPath?]
      rw [List.getElem?_cons_succ, List.getElem?_cons_succ, ih hnext, List.take_succ_cons,
        List.append_assoc]
      rfl

/-- A settled list place by place. -/
theorem getElem?_settle (entries : List Entry) (index : Nat) :
    (settle entries)[index]? =
      entries[index]?.map (settledAt entries (entries.take index)) :=
  @getElem?_settleFrom [] {} entries entries (fun _ => rfl) index

/-! ## Contents by their places -/

theorem max_cases (first second : UInt64) :
    first ≤ max first second ∧ second ≤ max first second ∧
      (max first second = first ∨ max first second = second) := by
  have h : max first second = if first ≤ second then second else first := rfl
  rw [h]
  split
  · next hle => exact ⟨hle, UInt64.le_rfl, .inr rfl⟩
  · next hle => exact ⟨UInt64.le_rfl, UInt64.le_of_lt (UInt64.not_le.1 hle), .inl rfl⟩

theorem foldl_max_cases (group : List Entry) (start : UInt64) :
    start ≤ group.foldl (fun size entry => max size entry.size) start ∧
      (∀ entry ∈ group, entry.size ≤ group.foldl (fun size entry => max size entry.size) start) ∧
      (group.foldl (fun size entry => max size entry.size) start = start ∨
        ∃ entry ∈ group,
          entry.size = group.foldl (fun size entry => max size entry.size) start) := by
  induction group generalizing start with
  | nil => exact ⟨UInt64.le_rfl, by simp, .inl rfl⟩
  | cons head rest ih =>
    obtain ⟨hstart, hhead, hmax⟩ := max_cases start head.size
    obtain ⟨hle, hrest, hreached⟩ := ih (max start head.size)
    rw [List.foldl_cons]
    refine ⟨UInt64.le_trans hstart hle, ?_, ?_⟩
    · intro entry hentry
      rcases List.mem_cons.1 hentry with rfl | hentry
      · exact UInt64.le_trans hhead hle
      · exact hrest entry hentry
    · rcases hreached with hreached | ⟨entry, hentry, hsize⟩
      · rw [hreached]
        exact hmax.imp id fun hmax => ⟨head, List.mem_cons_self, hmax.symm⟩
      · exact .inr ⟨entry, List.mem_cons_of_mem _ hentry, hsize⟩

/-- No member of a group is larger than the largest size. -/
theorem size_le_largestSize {group : List Entry} (h : entry ∈ group) :
    entry.size ≤ largestSize group :=
  (foldl_max_cases group 0).2.1 entry h

/-- The largest size is that of a member. -/
theorem exists_size_eq_largestSize {group : List Entry} (h : entry ∈ group) :
    ∃ member ∈ group, member.size = largestSize group := by
  rcases (foldl_max_cases group 0).2.2 with hzero | hmember
  · -- Nothing is smaller than a largest size of zero.
    have hle := size_le_largestSize h
    rw [largestSize, hzero] at hle ⊢
    exact ⟨entry, h, UInt64.le_antisymm hle UInt64.zero_le⟩
  · exact hmember

/-- Without empty maps the first map of a group is kept as it is. -/
theorem filter_findSome?_attributes {group : List Entry}
    (h : ∀ member ∈ group, ∀ map, member.attributes = some map → map.isEmpty = false) :
    ((group.findSome? (·.attributes)).filter fun map => !map.isEmpty) =
      group.findSome? (·.attributes) := by
  cases hfound : group.findSome? (·.attributes) with
  | none => rfl
  | some map =>
    obtain ⟨member, hmember, hmap⟩ := List.exists_of_findSome?_eq_some hfound
    rw [Option.filter_some, h member hmember map hmap]
    rfl

/-- The content of a group: the largest size among its members, and the first map and the first flag
word that one of them has. A map without bindings is dropped. -/
structure HoldsContent (group : List Entry) (entry : Entry) : Prop where
  size_le : ∀ member ∈ group, member.size ≤ entry.size
  exists_size_eq : ∃ member ∈ group, member.size = entry.size
  attributes_eq :
    entry.attributes = (group.findSome? (·.attributes)).filter fun map => !map.isEmpty
  attributes_eq_findSome? :
    (∀ member ∈ group, ∀ map, member.attributes = some map → map.isEmpty = false) →
      entry.attributes = group.findSome? (·.attributes)
  flags_eq : entry.flags = group.findSome? (·.flags)

/-- The canonical entry holds the content of its group. -/
theorem holdsContent_elect {group : List Entry} (h : entry ∈ group) :
    HoldsContent group (elect group entry) where
  size_le _ hmember := size_le_largestSize hmember
  exists_size_eq := exists_size_eq_largestSize h
  attributes_eq := rfl
  attributes_eq_findSome? := filter_findSome?_attributes
  flags_eq := rfl

/-- An entry of a list, and what settling makes of it, given the entries that stand before it. -/
structure SettlesTo (all front : List Entry) (entry settled : Entry) : Prop where
  frame_eq : settled = { entry with
    role := settled.role, link := settled.link, size := settled.size,
    attributes := settled.attributes, flags := settled.flags }
  eq_self : entry.role = .none ∨ entry.identity = none → settled = entry
  holdsContent : ∀ identity, groupOf entry = some identity →
    (∀ other ∈ front, groupOf other ≠ some identity) →
    HoldsContent (members identity all) settled
  content_eq : ∀ identity, groupOf entry = some identity →
    (∃ other ∈ front, groupOf other = some identity) → settled.content = .none

/-- Settling gives an entry its role, its link and, if it is canonical, its content. -/
theorem settlesTo_settledAt (front : List Entry) (h : entry ∈ all) :
    SettlesTo all front entry (settledAt all front entry) := by
  cases hgroup : groupOf entry with
  | none =>
    rw [settledAt_of_groupOf_eq_none hgroup]
    exact ⟨rfl, fun _ => rfl, by simp [hgroup], by simp [hgroup]⟩
  | some identity =>
    obtain ⟨hrole, hidentity⟩ := groupOf_eq_some_iff.1 hgroup
    cases hfirst : firstPath? identity front with
    | none =>
      have hfront := firstPath?_eq_none_iff.1 hfirst
      have hmem : entry ∈ members identity all := List.mem_filter.2 ⟨h, by simpa using hgroup⟩
      rw [settledAt_of_first hgroup hfirst]
      refine ⟨rfl, by simp [hrole, hidentity], ?_, ?_⟩
      · intro other hother _
        obtain rfl := Option.some.inj (hgroup.symm.trans hother)
        exact holdsContent_elect hmem
      · rintro other hother ⟨earlier, hearlier, hsame⟩
        obtain rfl := Option.some.inj (hgroup.symm.trans hother)
        exact absurd hsame (hfront earlier hearlier)
    | some path =>
      obtain ⟨earlier, hearlier, hsame, -⟩ := exists_of_firstPath?_eq_some hfirst
      rw [settledAt_of_later hgroup hfirst]
      refine ⟨rfl, by simp [hrole, hidentity], ?_, fun _ _ _ => rfl⟩
      intro other hother hnone
      obtain rfl := Option.some.inj (hgroup.symm.trans hother)
      exact absurd hsame (hnone earlier hearlier)

/-! ## Settling twice -/

/-- An entry that already carries what its group carries is elected without a change. -/
theorem elect_eq_self {links : List Entry} (hrole : entry.role = .canonical)
    (hlink : entry.link = none) (hmap : entry.putAttributes entry.attributes = entry)
    (hlinks : ∀ link ∈ links, link.content = .none) : elect (entry :: links) entry = entry := by
  have hcarried : ∀ {α : Type} (field : Content → α), ∀ other ∈ entry :: links,
      field other.content = field entry.content ∨ field other.content = field .none := by
    intro α field other hother
    rcases List.mem_cons.1 hother with rfl | hother
    · exact .inl rfl
    · exact .inr (by rw [hlinks other hother])
  have hsize : largestSize (entry :: links) = entry.size :=
    largestSize_eq (hcarried Content.size) ⟨entry, List.mem_cons_self, rfl⟩
  have hattributes : (entry :: links).findSome? (·.attributes) = entry.attributes :=
    findSome?_eq_of_forall (hcarried Content.attributes) ⟨entry, List.mem_cons_self, rfl⟩
  have hflags : (entry :: links).findSome? (·.flags) = entry.flags :=
    findSome?_eq_of_forall (hcarried Content.flags) ⟨entry, List.mem_cons_self, rfl⟩
  rw [elect, hsize, hattributes, hflags, hmap, ← hrole, ← hlink]

theorem eq_take_append_cons_drop {index : Nat} (h : entries[index]? = some entry) :
    entries = entries.take index ++ entry :: entries.drop (index + 1) := by
  obtain ⟨hlt, rfl⟩ := List.getElem?_eq_some_iff.1 h
  rw [← List.drop_eq_getElem_cons hlt, List.take_append_drop]

/-- A list in which every entry has its role, and in which no map is empty, is left alone. -/
theorem settle_eq_self (h : Consistent entries)
    (hmaps : ∀ entry ∈ entries, groupOf entry ≠ none →
      entry.putAttributes entry.attributes = entry) : settle entries = entries := by
  refine List.ext_getElem? fun index => ?_
  rw [getElem?_settle]
  cases hentry : entries[index]? with
  | none => rfl
  | some entry =>
    have hsplit := eq_take_append_cons_drop hentry
    rw [Option.map_some]
    congr 1
    cases hgroup : groupOf entry with
    | none => exact settledAt_of_groupOf_eq_none hgroup
    | some identity =>
      have hrole := h _ _ _ hsplit identity hgroup
      cases hfirst : firstPath? identity (entries.take index) with
      | none =>
        rw [hfirst] at hrole
        have hfront := firstPath?_eq_none_iff.1 hfirst
        have hlater := Consistent.content_of_later (hsplit ▸ h) hgroup hfront
        have hmap := hmaps entry (List.mem_of_getElem? hentry) (by simp [hgroup])
        rw [settledAt_of_first hgroup hfirst, hsplit, members_of_first hgroup hfront]
        exact elect_eq_self hrole.1 hrole.2 hmap hlater
      | some path =>
        rw [hfirst] at hrole
        obtain ⟨hlinkTo, hlink, hsize, hattributes, hflags⟩ := hrole
        rw [settledAt_of_later hgroup hfirst, demote, ← hlinkTo, ← hlink, ← hsize, ← hattributes,
          ← hflags]

/-- Settling gives no entry of a group a map without bindings. -/
theorem putAttributes_settledAt (all front : List Entry) (hgroup : groupOf entry ≠ none) :
    (settledAt all front entry).putAttributes (settledAt all front entry).attributes =
      settledAt all front entry := by
  obtain ⟨identity, hgroup⟩ := Option.ne_none_iff_exists'.1 hgroup
  cases hfirst : firstPath? identity front with
  | none =>
    rw [settledAt_of_first hgroup hfirst]
    simp only [elect, Entry.putAttributes, Option.filter_filter, Bool.and_self]
  | some path =>
    rw [settledAt_of_later hgroup hfirst]
    rfl

/-- Settling keeps the group of an entry. -/
theorem groupOf_settledAt (all front : List Entry) (entry : Entry) :
    groupOf (settledAt all front entry) = groupOf entry := by
  cases hgroup : groupOf entry with
  | none => rw [settledAt_of_groupOf_eq_none hgroup, hgroup]
  | some identity =>
    have hidentity := identity_of_groupOf_eq_some hgroup
    rw [groupOf_eq_some_iff]
    cases hfirst : firstPath? identity front with
    | none =>
      rw [settledAt_of_first hgroup hfirst]
      exact ⟨by simp [elect], hidentity⟩
    | some path =>
      rw [settledAt_of_later hgroup hfirst]
      exact ⟨by simp [demote], hidentity⟩

/-- Settling a second time changes nothing. -/
theorem settle_settle (entries : List Entry) : settle (settle entries) = settle entries := by
  refine settle_eq_self (consistent_settle entries) fun settled hsettled hgroup => ?_
  obtain ⟨index, hindex⟩ := List.getElem?_of_mem hsettled
  rw [getElem?_settle, Option.map_eq_some_iff] at hindex
  obtain ⟨entry, -, rfl⟩ := hindex
  rw [groupOf_settledAt] at hgroup
  exact putAttributes_settledAt _ _ hgroup

end TreeManifest.Hardlink
