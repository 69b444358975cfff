import TreeManifest.Proofs.Diff.Storage
import TreeManifest.Proofs.Walk.Assigned
import TreeManifest.Proofs.Walk.Links

/-!
# Walks of trees that look the same

Two trees look the same if the same objects are captured at the same paths, with the same groups of
names. The numbers of the objects may differ, since a listing is compared without them.

## Main definitions

- `Lister.SameCaptures`: the captured objects of two trees correspond path by path.

## Main statements

- `Order.forall₂_of_canonical`: canonical lists with the same keys correspond entry by entry.
- `Walk.forall₂_agrees`: so do the outcomes of walks of trees that look the same, in all metadata.
-/

namespace TreeManifest

namespace Order

/-- What decides the place of an entry. -/
def place (entry : Entry) : Path × Bool := (entry.path, entry.isDirectory)

theorem compareEntries_of_place_eq {a b : Entry} (h : place a = place b) :
    compareEntries a b = .eq := by
  obtain ⟨hpath, hdirectory⟩ := Prod.mk.inj h
  exact compareEntries_of_path_eq hpath hdirectory

/-- Canonical lists with the same keys correspond entry by entry. -/
theorem forall₂_of_canonical {old new : List Entry} (hold : Canonical old) (hnew : Canonical new)
    (hforth : ∀ a ∈ old, ∃ b ∈ new, place a = place b)
    (hback : ∀ b ∈ new, ∃ a ∈ old, place a = place b) :
    List.Forall₂ (fun a b => place a = place b) old new := by
  induction old generalizing new with
  | nil =>
    cases new with
    | nil => exact .nil
    | cons b new =>
      obtain ⟨a, ha, -⟩ := hback b List.mem_cons_self
      exact absurd ha List.not_mem_nil
  | cons a old ih =>
    cases new with
    | nil =>
      obtain ⟨b, hb, -⟩ := hforth a List.mem_cons_self
      exact absurd hb List.not_mem_nil
    | cons b new =>
      obtain ⟨hahead, hold⟩ := List.pairwise_cons.1 hold
      obtain ⟨hbhead, hnew⟩ := List.pairwise_cons.1 hnew
      have hheads : place a = place b := by
        obtain ⟨b', hb', hab'⟩ := hforth a List.mem_cons_self
        obtain ⟨a', ha', ha'b⟩ := hback b List.mem_cons_self
        rcases List.mem_cons.1 hb' with rfl | hb'
        · exact hab'
        rcases List.mem_cons.1 ha' with rfl | ha'
        · exact ha'b
        -- Each head would come before the other one.
        have hab : Precedes a b :=
          (hahead a' ha').congr_right (compareEntries_of_place_eq ha'b)
        have hba : Precedes b a :=
          (hbhead b' hb').congr_right (compareEntries_of_place_eq hab'.symm)
        exact absurd hba hab.asymm
      refine .cons hheads (ih hold hnew (fun a' ha' => ?_) fun b' hb' => ?_)
      · obtain ⟨b', hb', hsame⟩ := hforth a' (List.mem_cons_of_mem _ ha')
        rcases List.mem_cons.1 hb' with rfl | hb'
        · exact absurd (compareEntries_of_place_eq (hheads.trans hsame.symm)) (hahead a' ha').ne_eq
        · exact ⟨b', hb', hsame⟩
      · obtain ⟨a', ha', hsame⟩ := hback b' (List.mem_cons_of_mem _ hb')
        rcases List.mem_cons.1 ha' with rfl | ha'
        · exact absurd (compareEntries_of_place_eq (hheads.symm.trans hsame)) (hbhead b' hb').ne_eq
        · exact ⟨a', ha', hsame⟩

end Order

namespace Hardlink

/-- The first name of a group is at the same path in lists with corresponding groups. -/
theorem firstPath?_eq_of_forall₂ {identity other : ObjectId} {front front' : List Entry}
    (h : List.Forall₂ (fun a b => a.path = b.path ∧
      (groupOf a = some identity ↔ groupOf b = some other)) front front') :
    firstPath? identity front = firstPath? other front' := by
  induction h with
  | nil => rfl
  | cons hpair _ ih =>
    rw [firstPath?_cons, firstPath?_cons, ih, hpair.1]
    simp only [hpair.2]

end Hardlink

namespace Lister

/-- The object whose names are tracked when a child is captured, if they are. -/
def group? (lister : Lister) (child : Child) (kept : Entry) : Option ObjectId :=
  lister.tracked? kept child.stat.linkCount

section

variable {lister : Lister} {child other : Child} {kept held : Entry}
  (htrack : lister.options.trackHardlinks = true)

include htrack

theorem group?_eq_some (h : lister.Captures child kept) (hgroup : lister.group? child kept ≠ none) :
    lister.group? child kept = some child.stat.identity := by
  rw [group?, Walk.tracked?_of_captures htrack h] at hgroup ⊢
  exact if_pos (of_not_not fun hnot => hgroup (if_neg hnot))

/-- Two names are in one group if they are names of one object. -/
theorem group?_eq_iff_identity_eq (htree : lister.IsTree) (h : lister.Captures child kept)
    (h' : lister.Captures other held) (hgroup : lister.group? child kept ≠ none) :
    lister.group? other held = lister.group? child kept ↔
      other.stat.identity = child.stat.identity := by
  constructor
  · intro hsame
    have hsome := group?_eq_some htrack h hgroup
    have hother := group?_eq_some htrack h' (hsame ▸ hgroup)
    exact Option.some.inj (hother.symm.trans (hsame.trans hsome))
  · intro hidentity
    rw [group?, group?, Walk.tracked?_of_captures htrack h, Walk.tracked?_of_captures htrack h',
      htree.stat_eq h'.isChild.hasObject h.isChild.hasObject hidentity]

end

/-- Two captured children are at one path. -/
structure Twins (first second : Lister) (child : Child) (kept : Entry) (child' : Child)
    (kept' : Entry) : Prop where
  captures : first.Captures child kept
  captures' : second.Captures child' kept'
  path_eq : kept.path = kept'.path

/-- The captured objects of two trees correspond path by path. They differ in their numbers only,
and the same of them have several names. -/
structure SameCaptures (first second : Lister) : Prop where
  forth : ∀ {child kept}, first.Captures child kept →
    ∃ child' kept', first.Twins second child kept child' kept'
  back : ∀ {child' kept'}, second.Captures child' kept' →
    ∃ child kept, first.Twins second child kept child' kept'
  eq_of_twins : ∀ {child kept child' kept'}, first.Twins second child kept child' kept' →
    kept' = { kept with identity := kept'.identity }
  group?_eq_none_iff : ∀ {child kept child' kept'}, first.Twins second child kept child' kept' →
    (first.group? child kept = none ↔ second.group? child' kept' = none)
  group?_eq_iff : ∀ {child kept child' kept' other held other' held'},
    first.Twins second child kept child' kept' → first.Twins second other held other' held' →
    first.group? child kept ≠ none →
    (first.group? other held = first.group? child kept ↔
      second.group? other' held' = second.group? child' kept')

end Lister

namespace Walk

variable {first second : Lister} {config config' : WalkConfig} {outcome outcome' : WalkOutcome}

/-- Entries at one path stand for captured children at one path. -/
theorem StandsFor.twins {entry entry' kept kept' : Entry} {child child' : Child}
    (h : StandsFor first entry child kept) (h' : StandsFor second entry' child' kept')
    (hpath : entry.path = entry'.path) : first.Twins second child kept child' kept' :=
  ⟨h.captures, h'.captures, h.path_eq.symm.trans (hpath.trans h'.path_eq)⟩

section

variable (hsame : first.SameCaptures second) (htree : first.IsTree) (htree' : second.IsTree)
  (h : Yields first config outcome) (h' : Yields second config' outcome')

include hsame htree htree' h h'

theorem forall₂_place :
    List.Forall₂ (fun a b => Order.place a = Order.place b) outcome.entries outcome'.entries := by
  have hplace : ∀ {entry entry' child kept child' kept'}, StandsFor first entry child kept →
      StandsFor second entry' child' kept' → first.Twins second child kept child' kept' →
      Order.place entry = Order.place entry' := by
    intro entry entry' child kept child' kept' hstands hstands' htwins
    have hkept := hsame.eq_of_twins htwins
    rw [Order.place, Order.place, hstands.path_eq, hstands'.path_eq, htwins.path_eq,
      hstands.isDirectory_eq, hstands'.isDirectory_eq, hkept]
    rfl
  refine Order.forall₂_of_canonical h.canonical h'.canonical (fun entry hentry => ?_)
    fun entry' hentry' => ?_
  · obtain ⟨child, kept, hstands⟩ := h.exists_child htree hentry
    obtain ⟨child', kept', htwins⟩ := hsame.forth hstands.captures
    obtain ⟨entry', hentry', hstands'⟩ := h'.exists_entry htree' htwins.captures'
    exact ⟨entry', hentry', hplace hstands hstands' htwins⟩
  · obtain ⟨child', kept', hstands'⟩ := h'.exists_child htree' hentry'
    obtain ⟨child, kept, htwins⟩ := hsame.back hstands'.captures
    obtain ⟨entry, hentry, hstands⟩ := h.exists_entry htree htwins.captures
    exact ⟨entry, hentry, hplace hstands hstands' htwins⟩

/-- Corresponding entries belong to corresponding groups. -/
theorem groupOf_iff {entry entry' kept kept' : Entry} {child child' : Child}
    {identity other : ObjectId} (htwins : first.Twins second child kept child' kept')
    (hgroup : first.group? child kept = some identity)
    (hgroup' : second.group? child' kept' = some other)
    (hentry : entry ∈ outcome.entries) (hentry' : entry' ∈ outcome'.entries)
    (hpath : entry.path = entry'.path) :
    Hardlink.groupOf entry = some identity ↔ Hardlink.groupOf entry' = some other := by
  obtain ⟨child₁, kept₁, hstands⟩ := h.exists_child htree hentry
  obtain ⟨child₂, kept₂, hstands'⟩ := h'.exists_child htree' hentry'
  rw [hstands.groupOf_eq, hstands'.groupOf_eq, ← hgroup, ← hgroup']
  exact hsame.group?_eq_iff htwins (hstands.twins hstands' hpath) (by simp [hgroup])

variable (hreads : first.ReadsByObject) (hreads' : second.ReadsByObject)

include hreads hreads'

/-- An entry and the one at the same place of the other outcome agree, whatever their roles are. -/
theorem agrees_of_split {front back front' back' : List Entry} {entry entry' : Entry}
    (hsplit : outcome.entries = front ++ entry :: back)
    (hsplit' : outcome'.entries = front' ++ entry' :: back')
    (hfront : List.Forall₂ (fun a b => Order.place a = Order.place b) front front')
    (hplace : Order.place entry = Order.place entry') : Diff.Agrees entry entry' := by
  obtain ⟨child, kept, hstands, hentry⟩ := Yields.exists_assign htree hreads h hsplit
  obtain ⟨child', kept', hstands', hentry'⟩ := Yields.exists_assign htree' hreads' h' hsplit'
  have htwins := hstands.twins hstands' (congrArg Prod.fst hplace)
  have hkept := hsame.eq_of_twins htwins
  refine ⟨Order.compareEntries_of_place_eq hplace, ?_⟩
  cases hgroup : first.group? child kept with
  | none =>
    have hgroup' := (hsame.group?_eq_none_iff htwins).1 hgroup
    rw [show first.tracked? kept child.stat.linkCount = none from hgroup] at hentry
    rw [show second.tracked? kept' child'.stat.linkCount = none from hgroup'] at hentry'
    rw [hentry, hentry', hkept]
    simp [Entry.sameMetadata]
  | some identity =>
    obtain ⟨other, hgroup'⟩ : ∃ other, second.group? child' kept' = some other := by
      rw [← Option.ne_none_iff_exists']
      intro hnone
      rw [(hsame.group?_eq_none_iff htwins).2 hnone] at hgroup
      cases hgroup
    have hfirst : Hardlink.firstPath? identity front = Hardlink.firstPath? other front' := by
      refine Hardlink.firstPath?_eq_of_forall₂ (List.forall₂_iff_zip.2
        ⟨hfront.length_eq, fun {a b} hzip => ?_⟩)
      have hpath := congrArg Prod.fst ((List.forall₂_iff_zip.1 hfront).2 hzip)
      obtain ⟨ha, hb⟩ := List.of_mem_zip hzip
      refine ⟨hpath, groupOf_iff hsame htree htree' h h' htwins hgroup hgroup' ?_ ?_ hpath⟩
      · rw [hsplit]
        exact List.mem_append_left _ ha
      · rw [hsplit']
        exact List.mem_append_left _ hb
    rw [show first.tracked? kept child.stat.linkCount = some identity from hgroup] at hentry
    rw [show second.tracked? kept' child'.stat.linkCount = some other from hgroup'] at hentry'
    dsimp only at hentry hentry'
    rw [hentry, hentry', hkept, hfirst]
    cases Hardlink.firstPath? other front' <;>
      simp [Hardlink.assign, Hardlink.demote, Entry.sameMetadata]

/-- The outcomes of walks of trees that look the same agree entry by entry. -/
theorem forall₂_agrees : List.Forall₂ Diff.Agrees outcome.entries outcome'.entries := by
  have hplaces := forall₂_place hsame htree htree' h h'
  -- The entries in front of a pair correspond too, so the induction keeps them.
  have hrest : ∀ {old new : List Entry},
      List.Forall₂ (fun a b => Order.place a = Order.place b) old new → ∀ front front' : List Entry,
      outcome.entries = front ++ old → outcome'.entries = front' ++ new →
      List.Forall₂ (fun a b => Order.place a = Order.place b) front front' →
      List.Forall₂ Diff.Agrees old new := by
    intro old new hold
    induction hold with
    | nil => exact fun _ _ _ _ _ => .nil
    | cons hplace _ ih =>
      intro front front' hsplit hsplit' hfront
      refine .cons (agrees_of_split hsame htree htree' h h' hreads hreads' hsplit hsplit' hfront
        hplace) (ih _ _ (List.append_cons _ _ _ ▸ hsplit) (List.append_cons _ _ _ ▸ hsplit') ?_)
      exact List.rel_append hfront (.cons hplace .nil)
  exact hrest hplaces [] [] rfl rfl .nil

end

end Walk

end TreeManifest
