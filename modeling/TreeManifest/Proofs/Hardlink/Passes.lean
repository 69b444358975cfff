import TreeManifest.Proofs.Hardlink.Places

/-!
# Settling group by group

The roles can be settled in two passes. The first pass collects the groups: the places of their
members and what these carry, which is taken out of the entries. The second pass goes through the
collected groups and writes each of them back at its places. Different groups have different places,
so the groups may be written back in any order.

## Main definitions

- `Hardlink.Group`: a group as it is collected.
- `Hardlink.collect`: the first pass.
- `Hardlink.writeBack`: the second pass, for one group.
- `Hardlink.writtenBack`: a list in which some of the groups are written back.

## Main statements

- `Hardlink.collects_collect`: the first pass collects every group once.
- `Hardlink.writeBack_writtenBack`: writing one group back leaves the other groups alone.
- `Hardlink.foldl_writeBack_eq_settle`: writing all groups back in any order settles the list.
- `Hardlink.settle_conserving`: settling is idempotent, keeps places and frames, and moves all that
  a group carries to its first member.
-/

namespace TreeManifest.Hardlink

/-- A group as it is collected: the places of its members, the largest size, and the first map and
the first flag word among them. -/
structure Group where
  members : List Nat := []
  size : UInt64 := 0
  attributes : Option AttributeMap := none
  flags : Option UInt32 := none

/-- A group with one more member. What the group has already is kept. -/
def Group.add (index : Nat) (entry : Entry) (group : Group) : Group where
  members := group.members ++ [index]
  size := max group.size entry.size
  attributes := group.attributes.or entry.attributes
  flags := group.flags.or entry.flags

/-- Changes the group of an identity in a list of groups, and begins it where there is none. -/
def updateGroup (identity : ObjectId) (change : Group → Group) :
    List (ObjectId × Group) → List (ObjectId × Group)
  | [] => [(identity, change {})]
  | (other, group) :: rest =>
    if other = identity then (other, change group) :: rest
    else (other, group) :: updateGroup identity change rest

/-- The first pass over a list that begins at the given place: the groups, and the list from which
the maps and the flag words of their members are taken out. -/
def collectFrom (index : Nat) (groups : List (ObjectId × Group)) :
    List Entry → List (ObjectId × Group) × List Entry
  | [] => (groups, [])
  | entry :: rest =>
    match groupOf entry with
    | none =>
      let (groups, rest) := collectFrom (index + 1) groups rest
      (groups, entry :: rest)
    | some identity =>
      let (groups, rest) :=
        collectFrom (index + 1) (updateGroup identity (·.add index entry) groups) rest
      (groups, { entry with attributes := none, flags := none } :: rest)

def collect (entries : List Entry) : List (ObjectId × Group) × List Entry :=
  collectFrom 0 [] entries

/-- The second pass for one group: its first member becomes canonical and gets what was collected,
and the others become links to it. -/
def writeBack (entries : List Entry) (group : Group) : List Entry :=
  match group.members with
  | [] => entries
  | first :: rest =>
    match entries[first]? with
    | none => entries
    | some canonical =>
      let linked := rest.foldl (fun entries index => entries.modify index fun entry =>
        { entry with role := .linkTo, link := some canonical.path, size := 0 }) entries
      linked.modify first fun entry =>
        { entry.putAttributes group.attributes with
          role := .canonical
          link := none
          size := group.size
          flags := group.flags }

variable {entries seen : List Entry} {entry : Entry} {identity : ObjectId}
  {groups : List (ObjectId × Group)} {change : Group → Group}

/-! ## The first pass -/

def places (identity : ObjectId) (entries : List Entry) : List Nat :=
  (List.range entries.length).filter fun index => entries[index]?.bind groupOf = some identity

def collected (identity : ObjectId) (entries : List Entry) : Group where
  members := places identity entries
  size := largestSize (Hardlink.members identity entries)
  attributes := (Hardlink.members identity entries).findSome? (·.attributes)
  flags := (Hardlink.members identity entries).findSome? (·.flags)

/-- The groups of a list, each of them once. -/
structure Collects (groups : List (ObjectId × Group)) (entries : List Entry) : Prop where
  nodup : (groups.map Prod.fst).Nodup
  group_eq : ∀ pair ∈ groups, pair.2 = collected pair.1 entries
  mem_iff : ∀ identity, identity ∈ groups.map Prod.fst ↔
    ∃ entry ∈ entries, groupOf entry = some identity

/-- The places of a group are those of its members. -/
theorem mem_places_iff {index : Nat} :
    index ∈ places identity entries ↔
      ∃ entry, entries[index]? = some entry ∧ groupOf entry = some identity := by
  rw [places, List.mem_filter, List.mem_range, decide_eq_true_eq, Option.bind_eq_some_iff]
  constructor
  · exact And.right
  · rintro ⟨entry, hentry, hgroup⟩
    exact ⟨(List.getElem?_eq_some_iff.1 hentry).1, entry, hentry, hgroup⟩

/-- Places are collected in ascending order. -/
theorem places_ascending (identity : ObjectId) (entries : List Entry) :
    (places identity entries).Pairwise (· < ·) :=
  List.pairwise_lt_range.filter _

theorem places_append_singleton (identity : ObjectId) (entries : List Entry) (entry : Entry) :
    places identity (entries ++ [entry]) = places identity entries ++
      if groupOf entry = some identity then [entries.length] else [] := by
  have hbefore : ∀ index ∈ List.range entries.length,
      (entries ++ [entry])[index]? = entries[index]? := by
    intro index hindex
    exact List.getElem?_append_left (List.mem_range.1 hindex)
  have hfront : ((List.range entries.length).filter fun index =>
      (entries ++ [entry])[index]?.bind groupOf = some identity) = places identity entries :=
    List.filter_congr fun index hindex => by rw [hbefore index hindex]
  rw [places, List.length_append, List.length_singleton, List.range_succ, List.filter_append,
    hfront]
  congr 1
  by_cases hgroup : groupOf entry = some identity
  · simp [hgroup]
  · simp [hgroup]

theorem members_append_singleton (identity : ObjectId) (entries : List Entry) (entry : Entry) :
    members identity (entries ++ [entry]) = members identity entries ++
      if groupOf entry = some identity then [entry] else [] := by
  rw [members, List.filter_append]
  by_cases hgroup : groupOf entry = some identity
  · simp [members, hgroup]
  · simp [members, hgroup]

theorem collected_append_singleton (identity : ObjectId) (entries : List Entry) (entry : Entry) :
    collected identity (entries ++ [entry]) =
      if groupOf entry = some identity then (collected identity entries).add entries.length entry
      else collected identity entries := by
  by_cases hgroup : groupOf entry = some identity
  · simp [collected, Group.add, places_append_singleton, members_append_singleton, hgroup,
      largestSize, List.findSome?_append]
  · simp [collected, places_append_singleton, members_append_singleton, hgroup]

/-- Nothing is collected for a group without members. -/
theorem collected_eq_empty (h : ∀ entry ∈ entries, groupOf entry ≠ some identity) :
    collected identity entries = {} := by
  have hplaces : places identity entries = [] := by
    rw [List.eq_nil_iff_forall_not_mem]
    intro index hindex
    obtain ⟨entry, hentry, hgroup⟩ := mem_places_iff.1 hindex
    exact h entry (List.mem_of_getElem? hentry) hgroup
  have hmembers : members identity entries = [] := by
    simpa [members, List.filter_eq_nil_iff] using h
  rw [collected, hplaces, hmembers]
  rfl

/-- Updating a group adds it at the end if it is new. -/
theorem map_fst_updateGroup (identity : ObjectId) (change : Group → Group)
    (groups : List (ObjectId × Group)) : (updateGroup identity change groups).map Prod.fst =
      groups.map Prod.fst ++ if identity ∈ groups.map Prod.fst then [] else [identity] := by
  induction groups with
  | nil => rfl
  | cons head rest ih =>
    obtain ⟨other, group⟩ := head
    rw [updateGroup]
    by_cases hsame : other = identity
    · simp [hsame]
    · have hmem : identity ∈ ((other, group) :: rest).map Prod.fst ↔
          identity ∈ rest.map Prod.fst := by
        simp [Ne.symm hsame]
      rw [if_neg hsame, if_congr hmem rfl rfl, List.map_cons, ih]
      rfl

theorem mem_map_fst_updateGroup {other : ObjectId} :
    other ∈ (updateGroup identity change groups).map Prod.fst ↔
      other ∈ groups.map Prod.fst ∨ other = identity := by
  rw [map_fst_updateGroup, List.mem_append]
  split
  · next hmem =>
    rw [or_iff_left List.not_mem_nil]
    exact ⟨.inl, fun h => h.elim id fun hsame => hsame ▸ hmem⟩
  · rw [List.mem_singleton]

/-- An update changes the group of its identity alone, or begins it. -/
theorem mem_updateGroup {pair : ObjectId × Group} (hnodup : (groups.map Prod.fst).Nodup)
    (h : pair ∈ updateGroup identity change groups) :
    pair ∈ groups ∧ pair.1 ≠ identity ∨
      (∃ group, (identity, group) ∈ groups ∧ pair = (identity, change group)) ∨
      identity ∉ groups.map Prod.fst ∧ pair = (identity, change {}) := by
  induction groups with
  | nil => exact .inr (.inr ⟨List.not_mem_nil, List.mem_singleton.1 h⟩)
  | cons head rest ih =>
    obtain ⟨other, group⟩ := head
    rw [List.map_cons, List.nodup_cons] at hnodup
    rw [updateGroup] at h
    by_cases hsame : other = identity
    · subst hsame
      rw [if_pos rfl] at h
      rcases List.mem_cons.1 h with rfl | hrest
      · exact .inr (.inl ⟨group, List.mem_cons_self, rfl⟩)
      · refine .inl ⟨List.mem_cons_of_mem _ hrest, ?_⟩
        rintro rfl
        exact hnodup.1 (List.mem_map.2 ⟨pair, hrest, rfl⟩)
    · rw [if_neg hsame] at h
      rcases List.mem_cons.1 h with rfl | hrest
      · exact .inl ⟨List.mem_cons_self, hsame⟩
      · rcases ih hnodup.2 hrest with ⟨hmem, hne⟩ | ⟨group, hmem, hpair⟩ | ⟨hnone, hpair⟩
        · exact .inl ⟨List.mem_cons_of_mem _ hmem, hne⟩
        · exact .inr (.inl ⟨group, List.mem_cons_of_mem _ hmem, hpair⟩)
        · refine .inr (.inr ⟨?_, hpair⟩)
          simpa [Ne.symm hsame] using hnone

theorem collects_nil : Collects [] [] where
  nodup := .nil
  group_eq := by simp
  mem_iff := by simp

/-- An entry without a group leaves the collected groups alone. -/
theorem Collects.append_of_none (h : Collects groups seen) (hgroup : groupOf entry = none) :
    Collects groups (seen ++ [entry]) where
  nodup := h.nodup
  group_eq pair hpair := by
    rw [collected_append_singleton, if_neg (by simp [hgroup]), h.group_eq pair hpair]
  mem_iff identity := by
    rw [h.mem_iff]
    simp [or_and_right, exists_or, hgroup]

/-- An entry of a group is added to this group. -/
theorem Collects.append_of_some (h : Collects groups seen)
    (hgroup : groupOf entry = some identity) :
    Collects (updateGroup identity (·.add seen.length entry) groups) (seen ++ [entry]) where
  nodup := by
    rw [map_fst_updateGroup]
    by_cases hmem : identity ∈ groups.map Prod.fst
    · simpa [hmem] using h.nodup
    · rw [if_neg hmem]
      exact List.nodup_append'.2 ⟨h.nodup, List.nodup_singleton _, by simpa using hmem⟩
  group_eq pair hpair := by
    rw [collected_append_singleton]
    rcases mem_updateGroup h.nodup hpair with ⟨hmem, hne⟩ | ⟨group, hmem, rfl⟩ | ⟨hnone, rfl⟩
    · rw [if_neg fun hsame => hne (Option.some.inj (hsame.symm.trans hgroup)),
        h.group_eq pair hmem]
    · rw [if_pos hgroup, ← h.group_eq _ hmem]
    · have hempty : collected identity seen = {} := by
        refine collected_eq_empty fun other hother hsame => hnone ?_
        exact (h.mem_iff identity).2 ⟨other, hother, hsame⟩
      rw [if_pos hgroup, hempty]
  mem_iff other := by
    rw [mem_map_fst_updateGroup, h.mem_iff]
    simp [or_and_right, exists_or, hgroup, eq_comm]

/-- The first pass collects the places and the content of every group. -/
theorem collects_collectFrom (h : Collects groups seen) (rest : List Entry) :
    Collects (collectFrom seen.length groups rest).1 (seen ++ rest) := by
  induction rest generalizing groups seen with
  | nil => simpa [collectFrom] using h
  | cons entry rest ih =>
    rw [collectFrom, ← List.singleton_append, ← List.append_assoc]
    cases hgroup : groupOf entry with
    | none => simpa using ih (h.append_of_none hgroup)
    | some identity => simpa using ih (h.append_of_some hgroup)

/-- The first pass collects every group once. -/
theorem collects_collect (entries : List Entry) : Collects (collect entries).1 entries :=
  collects_collectFrom collects_nil entries

/-! ## The second pass -/

/-- A list in which the given groups are written back and the others are still stripped. -/
def writtenBack (entries : List Entry) (done : List ObjectId) : List Entry :=
  entries.mapIdx fun index entry =>
    match groupOf entry with
    | none => entry
    | some identity =>
      if identity ∈ done then settledAt entries (entries.take index) entry
      else { entry with attributes := none, flags := none }

/-- After some groups were written back, their members are settled, and those of all other groups
have handed in their attributes and flags. -/
theorem getElem?_writtenBack (entries : List Entry) (done : List ObjectId) (index : Nat) :
    (writtenBack entries done)[index]? = entries[index]?.map fun entry =>
      match groupOf entry with
      | none => entry
      | some identity =>
        if identity ∈ done then settledAt entries (entries.take index) entry
        else { entry with attributes := none, flags := none } :=
  List.getElem?_mapIdx

/-- Behind the first pass no group is written back. -/
theorem collectFrom_eq_writtenBack (index : Nat) (groups : List (ObjectId × Group))
    (entries : List Entry) : (collectFrom index groups entries).2 = writtenBack entries [] := by
  induction entries generalizing index groups with
  | nil => rfl
  | cons entry rest ih =>
    have htail : writtenBack (entry :: rest) [] =
        (match groupOf entry with
          | none => entry
          | some _ => { entry with attributes := none, flags := none }) :: writtenBack rest [] := by
      simp [writtenBack, List.mapIdx_cons]
    rw [collectFrom, htail]
    cases hgroup : groupOf entry with
    | none => simp [ih]
    | some identity => simp [ih]

/-- A list in which all groups are written back is settled. -/
theorem writtenBack_eq_settle {done : List ObjectId}
    (h : ∀ entry ∈ entries, ∀ identity, groupOf entry = some identity → identity ∈ done) :
    writtenBack entries done = settle entries := by
  refine List.ext_getElem? fun index => ?_
  rw [getElem?_writtenBack, getElem?_settle]
  cases hentry : entries[index]? with
  | none => rfl
  | some entry =>
    rw [Option.map_some, Option.map_some]
    congr 1
    cases hgroup : groupOf entry with
    | none => rw [settledAt_of_groupOf_eq_none hgroup]
    | some identity =>
      simp only [if_pos (h entry (List.mem_of_getElem? hentry) identity hgroup)]

/-- Changes at different places reach every one of them once. -/
theorem getElem?_foldl_modify {α : Type} {change : α → α} {indices : List Nat}
    (hnodup : indices.Nodup) (list : List α) (index : Nat) :
    (indices.foldl (fun list index => list.modify index change) list)[index]? =
      if index ∈ indices then list[index]?.map change else list[index]? := by
  induction indices generalizing list with
  | nil => rfl
  | cons first rest ih =>
    obtain ⟨hfirst, hrest⟩ := List.nodup_cons.1 hnodup
    rw [List.foldl_cons, ih hrest, List.getElem?_modify]
    by_cases hindex : index = first
    · subst hindex
      simp [hfirst]
    · simp [hindex, Ne.symm hindex]

/-- The first place of a group, and what stands before it. -/
theorem exists_of_places_eq_cons {first : Nat} {rest : List Nat}
    (h : places identity entries = first :: rest) :
    ∃ canonical, entries[first]? = some canonical ∧ groupOf canonical = some identity ∧
      (∀ other ∈ entries.take first, groupOf other ≠ some identity) ∧
      ∀ index ∈ rest, first < index := by
  have hascending := places_ascending identity entries
  rw [h, List.pairwise_cons] at hascending
  obtain ⟨canonical, hcanonical, hgroup⟩ := mem_places_iff.1 (h ▸ List.mem_cons_self)
  refine ⟨canonical, hcanonical, hgroup, fun other hother hsame => ?_, hascending.1⟩
  obtain ⟨index, hindex⟩ := List.getElem?_of_mem hother
  rw [List.getElem?_take] at hindex
  split at hindex
  · next hlt =>
    -- A member before the first place would be a place of the group before the first one.
    have hplace : index ∈ first :: rest := h ▸ mem_places_iff.2 ⟨other, hindex, hsame⟩
    rcases List.mem_cons.1 hplace with rfl | hrest
    · exact Nat.lt_irrefl _ hlt
    · exact Nat.lt_asymm hlt (hascending.1 index hrest)
  · cases hindex

/-- Behind the first place of a group its first member has become known. -/
theorem firstPath?_take_of_lt {first index : Nat} {canonical : Entry}
    (hcanonical : entries[first]? = some canonical) (hgroup : groupOf canonical = some identity)
    (hfront : ∀ other ∈ entries.take first, groupOf other ≠ some identity) (h : first < index) :
    firstPath? identity (entries.take index) = some canonical.path := by
  have htake : (entries.take index)[first]? = some canonical := by
    rw [List.getElem?_take, if_pos h, hcanonical]
  rw [eq_take_append_cons_drop htake, List.take_take, Nat.min_eq_left (Nat.le_of_lt h)]
  exact firstPath?_append_cons hgroup hfront _

/-- Outside the places of a group nothing depends on whether it is written back. -/
theorem getElem?_writtenBack_of_notMem {done : List ObjectId} {index : Nat}
    (h : index ∉ places identity entries) :
    (writtenBack entries (identity :: done))[index]? = (writtenBack entries done)[index]? := by
  rw [getElem?_writtenBack, getElem?_writtenBack]
  cases hentry : entries[index]? with
  | none => rfl
  | some entry =>
    cases hgroup : groupOf entry with
    | none => simp [hgroup]
    | some other =>
      have hne : other ≠ identity := by
        rintro rfl
        exact h (mem_places_iff.2 ⟨entry, hentry, hgroup⟩)
      simp [hgroup, hne]

/-- Writing one group back leaves the other groups alone. -/
theorem writeBack_writtenBack {done : List ObjectId} (hdone : identity ∉ done) :
    writeBack (writtenBack entries done) (collected identity entries) =
      writtenBack entries (identity :: done) := by
  refine List.ext_getElem? fun index => ?_
  have hmembers : (collected identity entries).members = places identity entries := rfl
  rw [writeBack, hmembers]
  cases hplaces : places identity entries with
  | nil => exact (getElem?_writtenBack_of_notMem (by simp [hplaces])).symm
  | cons first rest =>
    obtain ⟨canonical, hcanonical, hgroup, hfront, hbehind⟩ := exists_of_places_eq_cons hplaces
    have hstripped : (writtenBack entries done)[first]? =
        some { canonical with attributes := none, flags := none } := by
      simp [getElem?_writtenBack, hcanonical, hgroup, hdone]
    have hascending := places_ascending identity entries
    rw [hplaces, List.pairwise_cons] at hascending
    have hnodup : rest.Nodup := hascending.2.imp Nat.ne_of_lt
    simp only [hstripped]
    rw [List.getElem?_modify, getElem?_foldl_modify hnodup]
    by_cases hplace : index ∈ first :: rest
    · obtain ⟨entry, hentry, hsame⟩ := mem_places_iff.1 (hplaces ▸ hplace)
      rw [getElem?_writtenBack, getElem?_writtenBack, hentry]
      rcases List.mem_cons.1 hplace with rfl | hrest
      · -- The first member is elected.
        have hnone := firstPath?_eq_none_iff.2 hfront
        have hnot : index ∉ rest := fun hrest => Nat.lt_irrefl _ (hbehind index hrest)
        simp [hnot, hsame, hdone, settledAt_of_first hsame hnone, elect, collected,
          Entry.putAttributes]
      · -- The others are demoted.
        have hlt := hbehind index hrest
        have hpath := firstPath?_take_of_lt hcanonical hgroup hfront hlt
        simp [hrest, Nat.ne_of_lt hlt, hsame, hdone, settledAt_of_later hsame hpath, demote]
    · rw [getElem?_writtenBack_of_notMem (hplaces ▸ hplace)]
      obtain ⟨hfirst, hrest⟩ := not_or.1 (mt List.mem_cons.2 hplace)
      simp [hrest, Ne.symm hfirst]

/-- Different groups are written back one after the other. -/
theorem foldl_writeBack_writtenBack {order : List (ObjectId × Group)} {done : List ObjectId}
    (hgroups : ∀ pair ∈ order, pair.2 = collected pair.1 entries)
    (hnodup : (order.map Prod.fst).Nodup) (hdone : ∀ pair ∈ order, pair.1 ∉ done) :
    (order.map Prod.snd).foldl writeBack (writtenBack entries done) =
      writtenBack entries ((order.map Prod.fst).reverse ++ done) := by
  induction order generalizing done with
  | nil => rfl
  | cons pair rest ih =>
    obtain ⟨hpair, hrest⟩ := List.nodup_cons.1 hnodup
    rw [List.map_cons, List.foldl_cons, hgroups pair List.mem_cons_self,
      writeBack_writtenBack (hdone pair List.mem_cons_self),
      ih (fun other hother => hgroups other (List.mem_cons_of_mem _ hother)) hrest ?_]
    · simp
    · intro other hother hmem
      rcases List.mem_cons.1 hmem with hsame | hmem
      · exact hpair (hsame ▸ List.mem_map_of_mem hother)
      · exact hdone other (List.mem_cons_of_mem _ hother) hmem

/-- Writing all groups back settles the list, in whatever order they come. -/
theorem foldl_writeBack_eq_settle {order : List (ObjectId × Group)}
    (h : order.Perm (collect entries).1) :
    (order.map Prod.snd).foldl writeBack (collect entries).2 = settle entries := by
  have hcollects := collects_collect entries
  rw [collect, collectFrom_eq_writtenBack,
    foldl_writeBack_writtenBack (fun pair hpair => hcollects.group_eq pair (h.mem_iff.1 hpair))
      ((h.map Prod.fst).nodup_iff.2 hcollects.nodup) (by simp)]
  refine writtenBack_eq_settle fun entry hentry identity hgroup => ?_
  rw [List.append_nil, List.mem_reverse, (h.map Prod.fst).mem_iff, hcollects.mem_iff]
  exact ⟨entry, hentry, hgroup⟩

/-- Settling is idempotent. It keeps the places of the entries and all of an entry but its role, its
link and its content, and it leaves entries without a group alone. The first entry of a group gets
all that the group carries, and the others carry nothing. Collecting the groups and writing them
back in any order gives the same list. -/
theorem settle_conserving (entries : List Entry) :
    settle (settle entries) = settle entries ∧ (settle entries).length = entries.length ∧
      (∀ index entry, entries[index]? = some entry → ∃ settled,
        (settle entries)[index]? = some settled ∧
          SettlesTo entries (entries.take index) entry settled) ∧
      ∀ order : List (ObjectId × Group), order.Perm (collect entries).1 →
        (order.map Prod.snd).foldl writeBack (collect entries).2 = settle entries := by
  refine ⟨settle_settle entries, ?_, fun index entry hentry => ?_, fun order horder =>
    foldl_writeBack_eq_settle horder⟩
  · have houtlines := congrArg List.length (map_outline_settle entries)
    rwa [List.length_map, List.length_map] at houtlines
  · exact ⟨_, by rw [getElem?_settle, hentry, Option.map_some],
      settlesTo_settledAt _ (List.mem_of_getElem? hentry)⟩

/-- The names of two objects in a list that is not in order, and a file with the identity of the
first object but without a role. The content stands with the later name of either object. -/
def twoGroups : List Entry :=
  let file (path : String) (inode : UInt64) (role : HardlinkRole) : Entry :=
    { Entry.new (Bytes.ofString path) 0o100644 with
      role := role, identity := some ⟨1, inode⟩, uid := 7, modTime := 5 }
  [{ file "z" 7 .none with size := 9, flags := some 1 },
    { file "b" 7 .linkTo with link := some (Bytes.ofString "a") },
    { file "c" 8 .linkTo with attributes := some (.ofList [("user.c", [2])]) },
    { file "a" 7 .canonical with
      size := 4, flags := some 16, attributes := some (.ofList [("user.a", [1])]) },
    { file "d" 8 .canonical with
      size := 3, attributes := some (.ofList [("user.d", [3])]) }]

/-- The file without a role stays, the first name of the first object gets its content, the later
one loses it, and the groups can be written back in reverse. -/
theorem settle_conserving_twoGroups :
    (∃ settled, (settle twoGroups)[0]? = some settled ∧ some settled = twoGroups[0]?) ∧
      (∃ settled, (settle twoGroups)[1]? = some settled ∧
        HoldsContent (members ⟨1, 7⟩ twoGroups) settled) ∧
      (∃ settled, (settle twoGroups)[3]? = some settled ∧ settled.content = .none) ∧
      (collect twoGroups).1.reverse.Perm (collect twoGroups).1 ∧
      ((collect twoGroups).1.reverse.map Prod.snd).foldl writeBack (collect twoGroups).2 =
        settle twoGroups := by
  obtain ⟨-, -, hplaces, horders⟩ := settle_conserving twoGroups
  obtain ⟨first, hfirst, hplain⟩ := hplaces 0 _ rfl
  obtain ⟨second, hsecond, hheld⟩ := hplaces 1 _ rfl
  obtain ⟨fourth, hfourth, hlater⟩ := hplaces 3 _ rfl
  have hreverse : (collect twoGroups).1.reverse.Perm (collect twoGroups).1 := List.reverse_perm _
  exact ⟨⟨first, hfirst, congrArg some (hplain.eq_self (.inl rfl))⟩,
    ⟨second, hsecond, hheld.holdsContent ⟨1, 7⟩ (by decide) (by decide)⟩,
    ⟨fourth, hfourth, hlater.content_eq ⟨1, 7⟩ (by decide) (by decide)⟩,
    hreverse, horders _ hreverse⟩

end TreeManifest.Hardlink
