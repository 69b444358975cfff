import TreeManifest.Hardlink
import TreeManifest.Proofs.Order.Sorting

/-!
# Settled roles do not depend on the order of observations

While a tree is walked, the name of an object that happens to be seen first carries what was
captured for the object, and the other names carry nothing. Settling the roles moves what is carried
to the first name in canonical order, so only what is carried matters, and not by whom.

## Main definitions

- `Entry.content`: what an entry carries for its group.
- `Hardlink.outline`: an entry without its content, its role in the group and its link.
- `Hardlink.Carries`: every group has an entry that carries its content, and no entry carries
  anything else.
- `Hardlink.settleWith`: the settled roles, given the contents of the groups.

## Main statements

- `Hardlink.settle_eq_settleWith`: settling finds the contents of the groups.
- `Hardlink.settle_eq_of_outline`: settled lists with the same outlines and contents are equal.
-/

namespace TreeManifest

structure Content where
  size : UInt64
  attributes : Option AttributeMap
  flags : Option UInt32

def Content.none : Content := ⟨0, .none, .none⟩

def Entry.content (entry : Entry) : Content := ⟨entry.size, entry.attributes, entry.flags⟩

namespace Hardlink

/-- An entry of a group without its content and its link, in the role that a group of one name has.
Other entries stay as they are. -/
def outline (entry : Entry) : Entry :=
  match groupOf entry with
  | none => entry
  | some _ =>
    { entry with role := .canonical, link := none, size := 0, attributes := none, flags := none }

def install (content : Content) (entry : Entry) : Entry :=
  { entry.putAttributes content.attributes with
    role := .canonical
    link := none
    size := content.size
    flags := content.flags }

/-- Every entry of a group carries the content of the group or nothing, and some entry of the group
carries it. -/
structure Carries (contents : ObjectId → Content) (entries : List Entry) : Prop where
  content_eq : ∀ entry ∈ entries, ∀ identity, groupOf entry = some identity →
    entry.content = contents identity ∨ entry.content = .none
  exists_carrier : ∀ entry ∈ entries, ∀ identity, groupOf entry = some identity →
    ∃ carrier ∈ entries, groupOf carrier = some identity ∧ carrier.content = contents identity

/-- Settles the roles in a list whose groups have the given contents. -/
def settleWith (contents : ObjectId → Content) (tracker : Tracker) : List Entry → List Entry
  | [] => []
  | entry :: rest =>
    match groupOf entry with
    | none => entry :: settleWith contents tracker rest
    | some identity =>
      match tracker.observe identity entry.path with
      | (.first, tracker) =>
        install (contents identity) entry :: settleWith contents tracker rest
      | (.linkTo path, tracker) => demote path entry :: settleWith contents tracker rest

/-! ## Outlines -/

theorem outline_of_groupOf_eq_none {entry : Entry} (h : groupOf entry = none) :
    outline entry = entry := by
  rw [outline, h]

theorem outline_of_groupOf_eq_some {entry : Entry} {identity : ObjectId}
    (h : groupOf entry = some identity) :
    outline entry = { entry with
      role := .canonical, link := none, size := 0, attributes := none, flags := none } := by
  rw [outline, h]

theorem identity_of_groupOf_eq_some {entry : Entry} {identity : ObjectId}
    (h : groupOf entry = some identity) : entry.identity = some identity := by
  unfold groupOf at h
  split at h
  · cases h
  · exact h

/-- An entry and its outline belong to one group. -/
theorem groupOf_outline (entry : Entry) : groupOf (outline entry) = groupOf entry := by
  cases h : groupOf entry with
  | none => rw [outline_of_groupOf_eq_none h, h]
  | some identity =>
    rw [outline_of_groupOf_eq_some h, groupOf, if_neg fun hrole => by cases hrole]
    show entry.identity = some identity
    exact identity_of_groupOf_eq_some h

/-- An outline keeps the place of its entry in the canonical order. -/
theorem keepsKey_outline : Order.KeepsKey outline := by
  intro entry
  unfold outline
  split <;> exact ⟨rfl, rfl⟩

theorem path_outline (entry : Entry) : (outline entry).path = entry.path :=
  (keepsKey_outline entry).1

/-- The roles of a list can be settled from its outlines. -/
theorem settleWith_map_outline (contents : ObjectId → Content) (tracker : Tracker)
    (entries : List Entry) :
    settleWith contents tracker (entries.map outline) = settleWith contents tracker entries := by
  induction entries generalizing tracker with
  | nil => rfl
  | cons entry rest ih =>
    rw [List.map_cons, settleWith, settleWith, groupOf_outline, path_outline]
    split
    · next hgroup => rw [outline_of_groupOf_eq_none hgroup, ih]
    · next hgroup =>
      rw [outline_of_groupOf_eq_some hgroup]
      split <;> rw [ih] <;> rfl

/-! ## Contents -/

/-- A search in which all hits agree finds that hit. -/
theorem findSome?_eq_of_forall {α β : Type} {find : α → Option β} {found : Option β}
    {list : List α} (hall : ∀ a ∈ list, find a = found ∨ find a = none)
    (hsome : ∃ a ∈ list, find a = found) : list.findSome? find = found := by
  induction list with
  | nil =>
    obtain ⟨a, ha, -⟩ := hsome
    exact absurd ha List.not_mem_nil
  | cons a rest ih =>
    rw [List.findSome?_cons]
    cases hfind : find a with
    | some value =>
      rcases hall a List.mem_cons_self with h | h
      · exact hfind.symm.trans h
      · rw [hfind] at h
        cases h
    | none =>
      cases found with
      | none =>
        rw [List.findSome?_eq_none_iff]
        intro b hb
        exact (hall b (List.mem_cons_of_mem _ hb)).elim id id
      | some value =>
        refine ih (fun b hb => hall b (List.mem_cons_of_mem _ hb)) ?_
        obtain ⟨b, hb, hvalue⟩ := hsome
        rcases List.mem_cons.1 hb with rfl | hb
        · rw [hfind] at hvalue
          cases hvalue
        · exact ⟨b, hb, hvalue⟩

theorem max_zero_right (size : UInt64) : max size 0 = size := by
  show (if size ≤ 0 then 0 else size) = size
  split
  · next hle => exact UInt64.le_antisymm (UInt64.zero_le) hle
  · rfl

theorem max_zero_left (size : UInt64) : max 0 size = size :=
  if_pos UInt64.zero_le

/-- The largest of sizes that are all zero or one value is that value. -/
theorem foldl_max_eq {entries : List Entry} {size start : UInt64}
    (hall : ∀ entry ∈ entries, entry.size = size ∨ entry.size = 0)
    (hstart : start = size ∨ start = 0 ∧ ∃ entry ∈ entries, entry.size = size) :
    entries.foldl (fun size entry => max size entry.size) start = size := by
  induction entries generalizing start with
  | nil =>
    rcases hstart with h | ⟨-, entry, hentry, -⟩
    · exact h
    · exact absurd hentry List.not_mem_nil
  | cons entry rest ih =>
    have hhead := hall entry List.mem_cons_self
    rw [List.foldl_cons]
    refine ih (fun other hother => hall other (List.mem_cons_of_mem _ hother)) ?_
    -- Either the size was met already, or it is met now or later.
    rcases hstart with rfl | ⟨rfl, other, hother, hsize⟩
    · left
      rcases hhead with h | h
      · rw [h]
        exact if_pos UInt64.le_rfl
      · rw [h, max_zero_right]
    · rw [max_zero_left]
      rcases hhead with h | h
      · exact .inl h
      · rcases List.mem_cons.1 hother with rfl | hother
        · exact .inl hsize
        · exact .inr ⟨h, other, hother, hsize⟩

/-- The largest size in a group is the size of its content. -/
theorem largestSize_eq {entries : List Entry} {size : UInt64}
    (hall : ∀ entry ∈ entries, entry.size = size ∨ entry.size = 0)
    (hsome : ∃ entry ∈ entries, entry.size = size) : largestSize entries = size :=
  foldl_max_eq hall (.inr ⟨rfl, hsome⟩)

/-- The elected entry of a group gets the content of the group. -/
theorem elect_eq_install {contents : ObjectId → Content} {all : List Entry} {entry : Entry}
    {identity : ObjectId} (h : Carries contents all) (hentry : entry ∈ all)
    (hgroup : groupOf entry = some identity) :
    elect (members identity all) entry = install (contents identity) entry := by
  have hmem : ∀ other, other ∈ members identity all ↔
      other ∈ all ∧ groupOf other = some identity := fun other => by
    rw [members, List.mem_filter, decide_eq_true_eq]
  have hall : ∀ other ∈ members identity all,
      other.content = contents identity ∨ other.content = .none := fun other hother =>
    h.content_eq other ((hmem other).1 hother).1 identity ((hmem other).1 hother).2
  obtain ⟨carrier, hcarrier, hcarrierGroup, hcontent⟩ :=
    h.exists_carrier entry hentry identity hgroup
  have hcarrierMem : carrier ∈ members identity all := (hmem carrier).2 ⟨hcarrier, hcarrierGroup⟩
  have hsize : largestSize (members identity all) = (contents identity).size :=
    largestSize_eq
      (fun other hother => (hall other hother).imp (congrArg Content.size) (congrArg Content.size))
      ⟨carrier, hcarrierMem, congrArg Content.size hcontent⟩
  have hattributes : (members identity all).findSome? (·.attributes) =
      (contents identity).attributes :=
    findSome?_eq_of_forall
      (fun other hother =>
        (hall other hother).imp (congrArg Content.attributes) (congrArg Content.attributes))
      ⟨carrier, hcarrierMem, congrArg Content.attributes hcontent⟩
  have hflags : (members identity all).findSome? (·.flags) = (contents identity).flags :=
    findSome?_eq_of_forall
      (fun other hother =>
        (hall other hother).imp (congrArg Content.flags) (congrArg Content.flags))
      ⟨carrier, hcarrierMem, congrArg Content.flags hcontent⟩
  rw [elect, hsize, hattributes, hflags]
  rfl

/-- Where one content is carried for each group, settling gives it to the canonical entry. -/
theorem settleFrom_eq_settleWith {contents : ObjectId → Content} {all : List Entry}
    (h : Carries contents all) (tracker : Tracker) {entries : List Entry}
    (hsub : ∀ entry ∈ entries, entry ∈ all) :
    settleFrom all tracker entries = settleWith contents tracker entries := by
  -- The whole list stays the same while its entries are settled one by one.
  induction entries generalizing tracker with
  | nil => rfl
  | cons entry rest ih =>
    have hrest := fun tracker => @ih tracker fun other hother =>
      hsub other (List.mem_cons_of_mem _ hother)
    rw [settleFrom, settleWith]
    cases hgroup : groupOf entry with
    | none =>
      show entry :: settleFrom all tracker rest = entry :: settleWith contents tracker rest
      rw [hrest]
    | some identity =>
      dsimp only
      rcases tracker.observe identity entry.path with ⟨lookup, tracker⟩
      cases lookup with
      | first =>
        show elect _ entry :: settleFrom all tracker rest =
          install _ entry :: settleWith contents tracker rest
        rw [elect_eq_install h (hsub entry List.mem_cons_self) hgroup, hrest]
      | linkTo path =>
        show demote path entry :: settleFrom all tracker rest =
          demote path entry :: settleWith contents tracker rest
        rw [hrest]

/-- Settling finds the contents of the groups. -/
theorem settle_eq_settleWith {contents : ObjectId → Content} {entries : List Entry}
    (h : Carries contents entries) : settle entries = settleWith contents {} entries :=
  settleFrom_eq_settleWith h {} fun _ => id

/-- Lists with the same outlines and the same contents are settled to one list. -/
theorem settle_eq_of_outline {contents : ObjectId → Content} {first second : List Entry}
    (hfirst : Carries contents first) (hsecond : Carries contents second)
    (h : first.map outline = second.map outline) : settle first = settle second := by
  rw [settle_eq_settleWith hfirst, settle_eq_settleWith hsecond, ← settleWith_map_outline, h,
    settleWith_map_outline]

end Hardlink

end TreeManifest
