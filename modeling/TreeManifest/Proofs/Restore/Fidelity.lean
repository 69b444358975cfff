import Mathlib.Data.Set.Card
import TreeManifest.Proofs.Restore.Restored
import TreeManifest.Proofs.Walk.Mirror

/-!
# Restored trees look the same

A listing is restored in two passes. What the first one makes has all names of the tree, and what
the second one applies to an object is not disturbed by what it applies to the others. So a walk of
the restored tree finds the same objects at the same paths with the same metadata. The numbers of
the objects are new, but names that had one object in common still do.

## Main definitions

- `Lister.IsClosed`: a tree that has all names of its objects.
- `Restore.Paired`: a captured object and the restored one at its path.

## Main statements

- `Restore.countP_eq_linkCount`: the names of an object of a closed tree have one entry each.
- `Restore.sameCaptures`: the restored tree looks like the one that was listed.
- `Restore.merge_restored`: the listing of the restored tree is unchanged.
-/

namespace TreeManifest

/-- A tree that has all names of its objects, and in which symlinks have one name only. -/
structure Lister.IsClosed (lister : Lister) : Prop where
  linkCount_le_one : ∀ {location stat}, lister.HasObject location stat → stat.kind = .symlink →
    stat.linkCount ≤ 1
  ncard_eq : ∀ {location stat}, lister.HasObject location stat → stat.kind ≠ .directory →
    1 < stat.linkCount →
    {other | ∃ stat', lister.HasObject other stat' ∧ stat'.identity = stat.identity}.ncard =
      stat.linkCount.toNat

namespace Restore

variable {caller : Caller} {root target : Path} {top : Nat} {contents : Entry → Bytes}
  {volume after : Volume} {config : WalkConfig} {outcome : WalkOutcome} {entry kept : Entry}
  {child : Child}

/-! ## Counting names -/

section Counting

variable (hplain : volume.IsPlain) (htree : (caller.lister volume root).IsTree)
  (hclosed : (caller.lister volume root).IsClosed)
  (h : Walk.Yields (caller.lister volume root) config outcome) (hentry : entry ∈ outcome.entries)
  (hstands : Walk.StandsFor (caller.lister volume root) entry child kept)

include htree h hentry

/-- An entry that belongs to no group is the only one for its object. -/
theorem countP_eq_one (hgroup : Hardlink.groupOf entry = none) :
    (outcome.entries.countP fun other => other.canonicalPath = entry.canonicalPath) = 1 := by
  have hnodup := h.nodup_map_path htree
  have hself := Hardlink.canonicalPath_of_groupOf_eq_none hgroup
    (identity_ne_none_of_yields htree h hentry)
  rw [← List.count_eq_one_of_mem hnodup.of_map hentry]
  refine List.countP_congr fun other hother => ?_
  rw [decide_eq_true_iff, beq_iff_eq]
  refine ⟨fun hsame => ?_, fun hsame => by rw [hsame]⟩
  cases hotherGroup : Hardlink.groupOf other with
  | none =>
    rw [Hardlink.canonicalPath_of_groupOf_eq_none hotherGroup
      (identity_ne_none_of_yields htree h hother), hself] at hsame
    exact List.inj_on_of_nodup_map hnodup hother hentry hsame
  | some identity =>
    have hsameGroup := (h.consistent.canonicalPath_eq_iff hnodup
      (fun _ => identity_ne_none_of_yields htree h) hother hentry hotherGroup).1 hsame.symm
    rw [hsameGroup] at hgroup
    cases hgroup

include hplain hclosed hstands

/-- The names of an object that has several of them have one entry each. -/
theorem countP_eq_linkCount (hkind : child.stat.kind ≠ .directory)
    (hlinks : 1 < child.stat.linkCount) :
    (outcome.entries.countP fun other => other.canonicalPath = entry.canonicalPath) =
      child.stat.linkCount.toNat := by
  have hnodup := h.nodup_map_path htree
  have hobject := hstands.captures.isChild.hasObject
  have hgroup : Hardlink.groupOf entry = some child.stat.identity := by
    rw [hstands.groupOf_eq, Walk.tracked?_of_captures rfl hstands.captures, if_pos ⟨hkind, hlinks⟩]
  have hmember : ∀ {other}, other ∈ outcome.entries →
      (other.canonicalPath = entry.canonicalPath ↔
        Hardlink.groupOf other = some child.stat.identity) := fun hother =>
    h.consistent.canonicalPath_eq_iff hnodup (fun _ => identity_ne_none_of_yields htree h) hentry
      hother hgroup
  have hset : {location | ∃ stat, (caller.lister volume root).HasObject location stat ∧
      stat.identity = child.stat.identity} =
      (((outcome.entries.filter fun other => other.canonicalPath = entry.canonicalPath).map
        fun other => Path.join root other.path).toFinset : Set Path) := by
    ext location
    rw [List.coe_toFinset, Set.mem_ofPred_eq, Set.mem_ofPred_eq, List.mem_map]
    constructor
    · rintro ⟨stat, hstat, hidentity⟩
      obtain ⟨other, kept', hcaptures, rfl, rfl⟩ :=
        Caller.exists_captures_of_hasObject hplain htree hstat
      obtain ⟨found, hfound, hstands'⟩ := h.exists_entry htree hcaptures
      have hsame := htree.stat_eq hstat hobject hidentity
      refine ⟨found, List.mem_filter.2 ⟨hfound, decide_eq_true ((hmember hfound).2 ?_)⟩,
        by rw [hstands'.path_eq]⟩
      rw [hstands'.groupOf_eq, Walk.tracked?_of_captures rfl hcaptures, hsame,
        if_pos ⟨hkind, hlinks⟩]
    · rintro ⟨other, hother, rfl⟩
      obtain ⟨hother, hpath⟩ := List.mem_filter.1 hother
      have hidentity := (Hardlink.groupOf_eq_some_iff.1
        ((hmember hother).1 (of_decide_eq_true hpath))).2
      obtain ⟨child', kept', hstands'⟩ := h.exists_child htree hother
      have hobject' := hstands'.captures.isChild.hasObject
      rw [hstands'.captures.isChild.location_eq htree, ← hstands'.captures.path_eq,
        ← hstands'.path_eq] at hobject'
      exact ⟨child'.stat, hobject', Option.some.inj (hstands'.identity_eq.symm.trans hidentity)⟩
  rw [← hclosed.ncard_eq hobject hkind hlinks, hset, Set.ncard_coe_finset,
    List.toFinset_card_of_nodup, List.length_map, List.countP_eq_length_filter]
  refine (hnodup.of_map.filter _).map_on fun first hfirst second hsecond hsame => ?_
  have hfirst := (List.mem_filter.1 hfirst).1
  have hsecond := (List.mem_filter.1 hsecond).1
  exact List.inj_on_of_nodup_map hnodup hfirst hsecond
    ((isProper_of_yields htree h hfirst).eq_of_join_eq (isProper_of_yields htree h hsecond) hsame)

end Counting

/-! ## Twins -/

/-- What is known of a captured object and the restored one at its path. -/
structure Paired (caller : Caller) (volume : Volume) (root : Path) (top : Nat)
    (entries : List Entry) (after : Volume) (child : Child) (kept : Entry) (child' : Child)
    (kept' entry : Entry) (found : Nat) : Prop where
  mem : entry ∈ entries
  standsFor : Walk.StandsFor (caller.lister volume root) entry child kept
  number_eq : after.numberOf? top entry.path = some found
  lt : found < after.next
  identity_eq : child'.stat.identity = ⟨Volume.deviceNumber, .ofNat found⟩
  kept_eq : kept' = { kept with identity := kept'.identity }
  kind_eq : child'.stat.kind = child.stat.kind
  linkCount_eq : child.stat.kind ≠ .directory → child'.stat.linkCount =
    .ofNat (entries.countP fun other => other.canonicalPath = entry.canonicalPath)

/-- The numbers of restored objects tell them apart, as long as they fit a word. -/
theorem Paired.identity_eq_iff {entries : List Entry} {first second held kept₁ kept₂ : Entry}
    {one two child₁ child₂ : Child} {number number' : Nat}
    (h : Paired caller volume root top entries after one kept child₁ kept₁ first number)
    (h' : Paired caller volume root top entries after two held child₂ kept₂ second number')
    (hafter : after.next ≤ 2 ^ 64) :
    child₁.stat.identity = child₂.stat.identity ↔ number = number' := by
  rw [h.identity_eq, h'.identity_eq]
  refine ⟨fun hsame => ?_, fun hsame => by rw [hsame]⟩
  have hinode := congrArg UInt64.toNat (congrArg ObjectId.inode hsame)
  rwa [UInt64.toNat_ofNat_of_lt' (h.lt.trans_le hafter),
    UInt64.toNat_ofNat_of_lt' (h'.lt.trans_le hafter)] at hinode

section Twins

variable (hsuper : caller.isSuperuser = true) (hplain : volume.IsPlain)
  (hnext : volume.next ≤ 2 ^ 64) (htree : (caller.lister volume root).IsTree)
  (hclosed : (caller.lister volume root).IsClosed)
  (hyields : Walk.Yields (caller.lister volume root) config outcome)
  (hcontents : ∀ entry ∈ outcome.entries, entry.role ≠ .linkTo → entry.kind = .regular →
    caller.contentOf volume (entry.fullPath root) = .ok (contents entry))
  (h : Restored caller target top contents outcome.entries after)
  (htimes : after.times = volume.times) (hafter : after.next ≤ 2 ^ 64)

include hplain htree hclosed hyields

/-- An object has several names in the restored tree if it had them before. -/
theorem Paired.shared_iff {child' : Child} {kept' : Entry} {found : Nat}
    (hpaired : Paired caller volume root top outcome.entries after child kept child' kept' entry
      found) :
    (child'.stat.kind ≠ .directory ∧ 1 < child'.stat.linkCount) ↔
      (child.stat.kind ≠ .directory ∧ 1 < child.stat.linkCount) := by
  rw [hpaired.kind_eq]
  refine and_congr_right fun hkind => ?_
  rw [hpaired.linkCount_eq hkind]
  by_cases hlinks : 1 < child.stat.linkCount
  · rw [countP_eq_linkCount hplain htree hclosed hyields hpaired.mem hpaired.standsFor hkind hlinks,
      UInt64.ofNat_toNat]
  · have hgroup : Hardlink.groupOf entry = none := by
      rw [hpaired.standsFor.groupOf_eq, Walk.tracked?_of_captures rfl hpaired.standsFor.captures,
        if_neg fun hand => hlinks hand.2]
    rw [countP_eq_one htree hyields hpaired.mem hgroup]
    exact iff_of_false (by decide) hlinks

/-- An object and its restored twin are both tracked or both not. -/
theorem Paired.group?_eq_none_iff {child' : Child} {kept' : Entry} {found : Nat}
    (hpaired : Paired caller volume root top outcome.entries after child kept child' kept' entry
      found)
    (htwins : (caller.lister volume root).Twins (caller.lister after target) child kept child'
      kept') :
    (caller.lister volume root).group? child kept = none ↔
      (caller.lister after target).group? child' kept' = none := by
  rw [Lister.group?, Lister.group?, Walk.tracked?_of_captures rfl htwins.captures,
    Walk.tracked?_of_captures rfl htwins.captures']
  simp only [hpaired.shared_iff hplain htree hclosed hyields, ite_eq_right_iff, reduceCtorEq,
    imp_false]

include hsuper hnext hcontents h htimes hafter

/-- Every captured child of the restored tree has a pair in the tree that was walked. -/
theorem exists_paired {child' : Child} {kept' : Entry}
    (htwins : (caller.lister volume root).Twins (caller.lister after target) child kept child'
      kept') :
    ∃ entry found,
      Paired caller volume root top outcome.entries after child kept child' kept' entry found := by
  obtain ⟨entry, hentry, hstands⟩ := hyields.exists_entry htree htwins.captures
  obtain ⟨number, source, found, object, hfind, hfound, hobject, hkind, hcaptured, hlinks⟩ :=
    h.exists_object hsuper hplain hnext htree hclosed.linkCount_le_one hyields hcontents htimes
      hentry
  obtain ⟨number', source', -, hfind', hstat, hkept⟩ :=
    Caller.exists_entryOf hsuper hplain htree htwins.captures
  rw [← hstands.path_eq, hfind] at hfind'
  obtain ⟨rfl, rfl⟩ := Prod.mk.inj (Except.ok.inj hfind')
  obtain ⟨names, number', object', hnames, -, hpath, hdescend, hobject', hstat', hkept'⟩ :=
    Caller.exists_descend_of_captures hsuper h.isPlain (h.opens hsuper) h.isTidy hafter
      htwins.captures'
  have hsamePath : kept'.path = entry.path := htwins.path_eq.symm.trans hstands.path_eq.symm
  rw [Volume.numberOf?, ← hsamePath, hpath, Path.components_ofNames hnames] at hfound
  obtain rfl := Option.some.inj (hdescend.symm.trans hfound)
  obtain rfl := Option.some.inj (hobject'.symm.trans hobject)
  have hsource := hplain.object (Caller.find_eq_ok_iff.1 hfind).2
  have hsourceKind : child.stat.kind = source.kind := by rw [hstat, Caller.kind_statOf hsource]
  have hall : kept' = { kept with identity := some ⟨Volume.deviceNumber, .ofNat number'⟩ } := calc
    kept' = caller.entryOf after entry.path number' object' := by rw [← hsamePath]; exact hkept'
    _ = { caller.entryOf volume entry.path number source with
          identity := some ⟨Volume.deviceNumber, .ofNat number'⟩ } := hcaptured
    _ = _ := by rw [hstands.path_eq, ← hkept]
  exact ⟨entry, number', {
    mem := hentry
    standsFor := hstands
    number_eq := by
      rw [Volume.numberOf?, ← hsamePath, hpath, Path.components_ofNames hnames, hdescend]
    lt := h.isPlain.isFresh.lt hobject'
    identity_eq := by rw [hstat']; rfl
    kept_eq := by rw [hall]
    kind_eq := by rw [hstat', Caller.kind_statOf (h.isPlain.object hobject'), hkind, hsourceKind]
    linkCount_eq := fun hfile => by rw [hstat']; exact hlinks (hsourceKind ▸ hfile) }⟩

/-- All captured objects are restored. -/
theorem exists_restored_twin (hnul : Bytes.nul ∉ target)
    (hcaptures : (caller.lister volume root).Captures child kept) : ∃ child' kept',
      (caller.lister volume root).Twins (caller.lister after target) child kept child' kept' := by
  obtain ⟨entry, hentry, hstands⟩ := hyields.exists_entry htree hcaptures
  obtain ⟨-, -, found, -, -, hfound, -⟩ :=
    h.exists_object hsuper hplain hnext htree hclosed.linkCount_le_one hyields hcontents htimes
      hentry
  have hproper := h.isProper hentry
  obtain ⟨child', kept', hcaptures', hpath⟩ := Caller.exists_captures_of_descend hsuper h.isPlain
    hnul (h.opens hsuper) h.isTidy hafter hproper.isName hproper.ne_nil hfound
    fun front hfront hne => by
      obtain ⟨above, habove, habovePath⟩ := exists_of_prefix htree hyields hentry hfront hne
      rw [← habovePath]
      exact h.exists_lstat habove
  exact ⟨child', kept', hcaptures, hcaptures',
    hstands.path_eq.symm.trans (hproper.eq_ofNames.trans hpath.symm)⟩

omit hplain hclosed hnext hcontents htimes in
/-- Nothing else is restored. -/
theorem exists_captured_twin {child' : Child} {kept' : Entry}
    (hcaptures' : (caller.lister after target).Captures child' kept') : ∃ child kept,
      (caller.lister volume root).Twins (caller.lister after target) child kept child' kept' := by
  obtain ⟨names, found, -, hnames, hne, hpath, hdescend, -⟩ := Caller.exists_descend_of_captures
    hsuper h.isPlain (h.opens hsuper) h.isTidy hafter hcaptures'
  rcases h.only hdescend with hnil | ⟨entry, hentry, rfl⟩
  · exact absurd hnil hne
  · obtain ⟨child, kept, hstands⟩ := hyields.exists_child htree hentry
    exact ⟨child, kept, hstands.captures, hcaptures',
      hstands.path_eq.symm.trans ((h.isProper hentry).eq_ofNames.trans hpath.symm)⟩

/-- Names that had one object in common have one in common again, and other names have none. -/
theorem group?_eq_iff_of_twins {child' other other' : Child} {kept' held held' : Entry}
    (htwins : (caller.lister volume root).Twins (caller.lister after target) child kept child'
      kept')
    (htwins' : (caller.lister volume root).Twins (caller.lister after target) other held other'
      held')
    (hgroup : (caller.lister volume root).group? child kept ≠ none) :
    (caller.lister volume root).group? other held = (caller.lister volume root).group? child kept ↔
      (caller.lister after target).group? other' held' =
        (caller.lister after target).group? child' kept' := by
  obtain ⟨entry, found, hpaired⟩ :=
    exists_paired hsuper hplain hnext htree hclosed hyields hcontents h htimes hafter htwins
  obtain ⟨entry', found', hpaired'⟩ :=
    exists_paired hsuper hplain hnext htree hclosed hyields hcontents h htimes hafter htwins'
  have htree' := Caller.isTree h.isPlain (h.opens hsuper) h.isTidy hafter
  have hgroupOf : Hardlink.groupOf entry = some child.stat.identity :=
    hpaired.standsFor.groupOf_eq.trans (Lister.group?_eq_some rfl htwins.captures hgroup)
  have hgroup' : (caller.lister after target).group? child' kept' ≠ none := fun hnone =>
    hgroup ((hpaired.group?_eq_none_iff hplain htree hclosed hyields htwins).2 hnone)
  calc (caller.lister volume root).group? other held =
          (caller.lister volume root).group? child kept
      ↔ Hardlink.groupOf entry' = some child.stat.identity := by
        rw [Lister.group?_eq_some rfl htwins.captures hgroup, hpaired'.standsFor.groupOf_eq,
          Lister.group?]
    _ ↔ entry'.canonicalPath = entry.canonicalPath :=
        (hyields.consistent.canonicalPath_eq_iff (hyields.nodup_map_path htree)
          (fun _ => identity_ne_none_of_yields htree hyields) hpaired.mem hpaired'.mem
          hgroupOf).symm
    _ ↔ after.numberOf? top entry'.path = after.numberOf? top entry.path :=
        (h.number_eq_iff hpaired'.mem hpaired.mem).symm
    _ ↔ other'.stat.identity = child'.stat.identity := by
        rw [hpaired.number_eq, hpaired'.number_eq, Option.some.injEq]
        exact (hpaired'.identity_eq_iff hpaired hafter).symm
    _ ↔ (caller.lister after target).group? other' held' =
          (caller.lister after target).group? child' kept' :=
        (Lister.group?_eq_iff_identity_eq rfl htree' htwins.captures' htwins'.captures'
          hgroup').symm

/-- The restored tree looks the same. -/
theorem sameCaptures (hnul : Bytes.nul ∉ target) :
    (caller.lister volume root).SameCaptures (caller.lister after target) where
  forth := exists_restored_twin hsuper hplain hnext htree hclosed hyields hcontents h htimes hafter
    hnul
  back := exists_captured_twin hsuper htree hyields h hafter
  eq_of_twins htwins := by
    obtain ⟨entry, found, hpaired⟩ :=
      exists_paired hsuper hplain hnext htree hclosed hyields hcontents h htimes hafter htwins
    exact hpaired.kept_eq
  group?_eq_none_iff htwins := by
    obtain ⟨entry, found, hpaired⟩ :=
      exists_paired hsuper hplain hnext htree hclosed hyields hcontents h htimes hafter htwins
    exact hpaired.group?_eq_none_iff hplain htree hclosed hyields htwins
  group?_eq_iff :=
    group?_eq_iff_of_twins hsuper hplain hnext htree hclosed hyields hcontents h htimes hafter

end Twins

/-! ## Walking again -/

/-- A tree without flag words that has all names of its objects, with one name for every symlink, is
listed and restored by the superuser in an empty directory. No object belongs to the number that
stands for keeping an owner, and there are numbers left for all new objects. If every object can be
made and can be finished with its owner, then all walks of the directory end with one listing, and
compared with the one that was restored it is unchanged. -/
theorem merge_restored (hsuper : caller.isSuperuser = true) (hplain : volume.IsPlain)
    (howners : ∀ {number object}, volume.object? number = some object →
      object.uid ≠ Caller.keepId ∧ object.gid ≠ Caller.keepId)
    (htree : (caller.lister volume root).IsTree) (hclosed : (caller.lister volume root).IsClosed)
    (hyields : Walk.Yields (caller.lister volume root) config outcome)
    (hnext : volume.next + outcome.entries.length ≤ 2 ^ 64)
    (hempty : (caller.snapshot volume).readDirectory target = .ok [])
    (hcontents : ∀ entry ∈ outcome.entries, entry.role ≠ .linkTo → entry.kind = .regular →
      caller.contentOf volume (entry.fullPath root) = .ok (contents entry))
    (restorer : FlagRestorer) (options : RestoreOptions) (howner : options.owner = true)
    {created : Run Volume (List (Entry × Except MetadataError (Option FlagOutcome)))}
    (hcreated : (createAll caller.system target restorer options contents outcome.entries).run
      volume = created)
    (hmade : ∀ made ∈ created.value, made.2.isOk = true)
    {finished : Run Volume (List (Entry × Except MetadataError FinishReport))}
    (hfinished : (finishAll caller.system target
      (NativeAttributes.provider .privileged caller.system) restorer options outcome.entries).run
        created.state = finished)
    (hdone : ∀ done ∈ finished.value, done.2.isOk = true) :
    ∃ again, (∀ (order : ReadingOrder) (config : WalkConfig) (workers capacity : Nat),
        Walk.Returns ((caller.lister finished.state target).reordered order)
          ((config.setWorkers workers).setCapacity capacity) (.ok again)) ∧
      Diff.merge outcome.entries again.entries = again.entries.map .unchanged := by
  subst hcreated hfinished
  have hnul := Caller.nul_notMem_of_readDirectory hempty
  obtain ⟨top, hopens, hnames⟩ := Caller.opens_of_readDirectory hempty
  have hbounded : volume.next ≤ 2 ^ 64 := (Nat.le_add_right _ _).trans hnext
  have hfree : volume.names top = [] := List.map_eq_nil_iff.1 hnames.symm
  have hplan := isPlan_of_yields hsuper hplain hbounded htree hclosed.linkCount_le_one hyields
  obtain ⟨hcreated, hgrows, hcreatedTimes⟩ :=
    created_createAll hsuper restorer options hplan hplain hopens hfree hmade
  have hfinished := finished_finishAll hsuper hcreated hplan (fun _ => isApplicable_of_yields hsuper
    hplain hbounded htree hclosed.linkCount_le_one hyields howners) howner restorer hdone
  have hrestored : Restored caller target top contents outcome.entries _ := ⟨_, hcreated, hfinished⟩
  have hafter := hfinished.next_eq.le.trans (hgrows.trans hnext)
  have htimes := hfinished.times_eq.trans hcreatedTimes
  -- The restored tree can be walked, since its root is still a directory.
  have hopens' := hrestored.opens hsuper
  have htree' := Caller.isTree hrestored.isPlain hopens' hrestored.isTidy hafter
  have hreads' : (caller.lister _ target).ReadsByObject :=
    Caller.readsByObject hrestored.isPlain hafter hsuper
  obtain ⟨object, bindings, parent, hobject, hbody⟩ := hopens'.exists_directory
  obtain ⟨again, hreturns, config', hyields'⟩ := Walk.exists_outcome htree' hreads'
    (Caller.rootError?_eq_none hopens' hrestored.isPlain hnul)
    (Caller.readDirectory_of_find hsuper hnul
      (Caller.find_eq_ok_iff.2 ⟨hopens'.resolve_eq, hobject⟩) hbody)
  have hsame := sameCaptures hsuper hplain hbounded htree hclosed hyields hcontents hrestored htimes
    hafter hnul
  have hagrees := Walk.forall₂_agrees hsame htree htree' hyields hyields'
    (Caller.readsByObject hplain hbounded hsuper) hreads'
  exact ⟨again, hreturns, Diff.merge_eq_map_unchanged hagrees⟩

/-! ## A file with two names -/

/-- A volume with two directories. In `s` there are a file, a symlink to it and a directory `d` that
holds a further name of the file. Nothing is in `t`. -/
def twoNames : Volume where
  objects := [
    (0, { inner with body := .directory [([0x73], 1), ([0x74], 5)] 0 }),
    (1, { inner with body := .directory [([0x64], 2), ([0x66], 3), ([0x79], 4)] 0 }),
    (2, inner),
    (3, file),
    (4, link),
    (5, { inner with body := .directory [] 0 })]
  next := 6
  now := 9
where
  /-- The directory `s/d`, which cannot be written. -/
  inner : VolumeObject := ⟨.directory [([0x6C], 3)] 1, 0o500, 7, 8, 5, 2, .empty, none⟩
  /-- The file `s/f`, which is also `s/d/l` and runs as its owner. -/
  file : VolumeObject := ⟨.file [1, 2], 0o4755, 7, 8, 3, 2, .empty, none⟩
  /-- The symlink `s/y`. -/
  link : VolumeObject := ⟨.symlink [0x66], 0o777, 0, 0, 4, 1, .empty, none⟩

theorem isPlain_twoNames : twoNames.IsPlain where
  isFresh := Volume.isFresh_of_forall_lt (by decide)
  object {number object} hobject := by
    have hmem := Volume.mem_of_find? hobject
    simp only [twoNames, List.mem_cons, List.not_mem_nil, or_false, Prod.mk.injEq] at hmem
    obtain ⟨-, rfl⟩ | ⟨-, rfl⟩ | ⟨-, rfl⟩ | ⟨-, rfl⟩ | ⟨-, rfl⟩ | ⟨-, rfl⟩ := hmem
    all_goals
      exact ⟨rfl, by decide, by simp [twoNames.inner, twoNames.file, twoNames.link], by decide⟩

theorem opens_twoNames : ({} : Caller).Opens twoNames [0x73] 1 :=
  ⟨by cbv, _, _, _, rfl, rfl⟩

def twoNamesWays : List (List Bytes × Nat) :=
  [([], 1), ([[0x64]], 2), ([[0x66]], 3), ([[0x79]], 4), ([[0x64], [0x6C]], 3)]

theorem mem_twoNamesWays {names : List Bytes} {number : Nat}
    (h : twoNames.descend 1 names = some number) : (names, number) ∈ twoNamesWays := by
  induction names using List.reverseRecOn generalizing number with
  | nil => exact Option.some.inj h ▸ List.mem_cons_self
  | append_singleton front name ih =>
    obtain ⟨directory, hfront, hchild⟩ := Volume.descend_concat_eq_some_iff.1 h
    have hname := Volume.mem_of_lookup hchild
    have hway := ih hfront
    simp only [twoNamesWays, List.mem_cons, List.not_mem_nil, or_false, Prod.mk.injEq] at hway
    obtain ⟨rfl, rfl⟩ | ⟨rfl, rfl⟩ | ⟨rfl, rfl⟩ | ⟨rfl, rfl⟩ | ⟨rfl, rfl⟩ := hway
    all_goals
      simp [twoNames, twoNames.inner, twoNames.file, twoNames.link, Volume.names, Volume.object?,
        Volume.find?, VolumeObject.names] at hname
    · obtain ⟨rfl, rfl⟩ | ⟨rfl, rfl⟩ | ⟨rfl, rfl⟩ := hname <;> decide
    · obtain ⟨rfl, rfl⟩ := hname
      decide

theorem isTidy_twoNames : twoNames.IsTidy 1 where
  isName {names number name child} hdescend hmem := by
    obtain ⟨found, hfound⟩ := Caller.exists_child?_of_mem hmem
    have hway := mem_twoNamesWays (Volume.descend_concat_eq_some_iff.2 ⟨number, hdescend, hfound⟩)
    have hall : ∀ way ∈ twoNamesWays, ∀ name ∈ way.1, Path.IsName name := by decide
    exact hall _ hway name (List.mem_append_right _ List.mem_cons_self)
  nodup {names number} hdescend := by
    have hall : ∀ way ∈ twoNamesWays, ((twoNames.names way.2).map Prod.fst).Nodup := by decide
    exact hall _ (mem_twoNamesWays hdescend)
  finite := by
    refine (List.finite_toSet (twoNamesWays.map Prod.fst)).subset fun names hnames => ?_
    obtain ⟨number, hdescend⟩ := Option.isSome_iff_exists.1 hnames
    exact List.mem_map.2 ⟨_, mem_twoNamesWays hdescend, rfl⟩

theorem isTree_twoNames : (({} : Caller).lister twoNames [0x73]).IsTree :=
  Caller.isTree isPlain_twoNames opens_twoNames isTidy_twoNames (by decide)

theorem exists_way {location : Path} {stat : Stat}
    (h : (({} : Caller).lister twoNames [0x73]).HasObject location stat) :
    ∃ names number object, (names, number) ∈ twoNamesWays ∧
      location = Path.join [0x73] (Path.ofNames names) ∧
      twoNames.object? number = some object ∧ stat = twoNames.statOf number object := by
  obtain ⟨child, kept, hcaptures, rfl, rfl⟩ :=
    Caller.exists_captures_of_hasObject isPlain_twoNames isTree_twoNames h
  obtain ⟨names, number, object, -, -, hpath, hdescend, hobject, hstat, -⟩ :=
    Caller.exists_descend_of_captures rfl isPlain_twoNames opens_twoNames isTidy_twoNames
      (by decide) hcaptures
  exact ⟨names, number, object, mem_twoNamesWays hdescend, by rw [hpath], hobject, hstat⟩

/-- The file has no names but these. -/
theorem setOf_file_twoNames : {location | ∃ stat,
    (({} : Caller).lister twoNames [0x73]).HasObject location stat ∧ stat.identity = ⟨1, 3⟩} =
      {[0x73, 0x2F, 0x66], [0x73, 0x2F, 0x64, 0x2F, 0x6C]} := by
  ext location
  constructor
  · rintro ⟨stat, hstat, hidentity⟩
    obtain ⟨names, number, object, hway, rfl, -, rfl⟩ := exists_way hstat
    have hall : ∀ way ∈ twoNamesWays, UInt64.ofNat way.2 = 3 →
        Path.join [0x73] (Path.ofNames way.1) ∈
          [[0x73, 0x2F, 0x66], [0x73, 0x2F, 0x64, 0x2F, 0x6C]] := by
      decide
    simpa using hall _ hway (congrArg ObjectId.inode hidentity)
  · have hinner : (({} : Caller).lister twoNames [0x73]).HasDirectory [0x64] :=
      @Lister.HasDirectory.child _ [] [.ok [0x64], .ok [0x66], .ok [0x79]] [0x64]
        (twoNames.statOf 2 twoNames.inner) .root (by cbv) (by decide) (by cbv) (by decide)
    rintro (rfl | rfl)
    · exact ⟨twoNames.statOf 3 twoNames.file, ⟨[], [.ok [0x64], .ok [0x66], .ok [0x79]], [0x66],
        .root, by cbv, by decide, rfl, by cbv⟩, rfl⟩
    · exact ⟨twoNames.statOf 3 twoNames.file, ⟨[0x64], [.ok [0x6C]], [0x6C], hinner, by cbv,
        by decide, rfl, by cbv⟩, rfl⟩

theorem isClosed_twoNames : (({} : Caller).lister twoNames [0x73]).IsClosed where
  linkCount_le_one {location stat} h hkind := by
    obtain ⟨names, number, object, hway, -, hobject, rfl⟩ := exists_way h
    have hall : ∀ way ∈ twoNamesWays, ∀ object ∈ twoNames.object? way.2,
        (twoNames.statOf way.2 object).kind = .symlink →
          (twoNames.statOf way.2 object).linkCount ≤ 1 := by
      decide
    exact hall _ hway _ hobject hkind
  ncard_eq {location stat} h hkind hlinks := by
    obtain ⟨names, number, object, hway, -, hobject, rfl⟩ := exists_way h
    have hall : ∀ way ∈ twoNamesWays, ∀ object ∈ twoNames.object? way.2,
        (twoNames.statOf way.2 object).kind ≠ .directory →
          1 < (twoNames.statOf way.2 object).linkCount → way.2 = 3 := by
      decide
    obtain rfl : number = 3 := hall _ hway _ hobject hkind hlinks
    obtain rfl := Option.some.inj hobject
    exact setOf_file_twoNames ▸ Set.ncard_pair (by decide)

def twoNamesEntries : List Entry :=
  let caller : Caller := {}
  [{ caller.entryOf twoNames [0x66] 3 twoNames.file with role := .canonical },
    caller.entryOf twoNames [0x79] 4 twoNames.link,
    caller.entryOf twoNames [0x64] 2 twoNames.inner,
    { caller.entryOf twoNames [0x64, 0x2F, 0x6C] 3 twoNames.file with
      size := 0, link := some [0x66], role := .linkTo }]

/-- The listing of `s` can be restored in `t`. -/
theorem merge_restored_twoNames : ∃ outcome after again,
    Walk.Yields (({} : Caller).lister twoNames [0x73]) (.ofProcessors 1) outcome ∧
      outcome.entries = twoNamesEntries ∧
      (∀ (order : ReadingOrder) (config : WalkConfig) (workers capacity : Nat),
        Walk.Returns ((({} : Caller).lister after [0x74]).reordered order)
          ((config.setWorkers workers).setCapacity capacity) (.ok again)) ∧
      Diff.merge outcome.entries again.entries = again.entries.map .unchanged := by
  obtain ⟨outcome, hyields, hentries⟩ :=
    @Walk.exists_yields_of_runFrom (({} : Caller).lister twoNames [0x73]) (.ofProcessors 1) _
      WalkOutcome.entries twoNamesEntries 40 (by cbv) (by cbv)
  have howners : ∀ pair ∈ twoNames.objects,
      pair.2.uid ≠ Caller.keepId ∧ pair.2.gid ≠ Caller.keepId := by decide
  have hfile : ∀ entry ∈ twoNamesEntries, entry.role ≠ .linkTo → entry.kind = .regular →
      entry.fullPath [0x73] = [0x73, 0x2F, 0x66] := by decide
  have hcontent : ({} : Caller).contentOf twoNames [0x73, 0x2F, 0x66] = .ok [1, 2] := by cbv
  let restorer : FlagRestorer := ⟨.privileged, .native⟩
  let options : RestoreOptions := { owner := true }
  let created (entries : List Entry) := (createAll ({} : Caller).system [0x74] restorer options
    (fun _ => [1, 2]) entries).run twoNames
  let finished (entries : List Entry) := (finishAll ({} : Caller).system [0x74]
    (NativeAttributes.provider .privileged ({} : Caller).system) restorer options entries).run
      (created entries).state
  have hmade : (created twoNamesEntries).value.all (·.2.isOk) = true := by cbv
  have hdone : (finished twoNamesEntries).value.all (·.2.isOk) = true := by cbv
  rw [← hentries] at hfile hmade hdone
  obtain ⟨again, hreturns, hmerge⟩ := @merge_restored {} [0x73] [0x74] (fun _ => [1, 2]) twoNames
    (.ofProcessors 1) outcome rfl isPlain_twoNames
    (fun hobject => howners _ (Volume.mem_of_find? hobject)) isTree_twoNames isClosed_twoNames
    hyields (by rw [hentries]; decide) (by cbv)
    (fun entry hentry hrole hkind => by rw [hfile entry hentry hrole hkind, hcontent])
    restorer options rfl _ rfl (List.all_eq_true.1 hmade) _ rfl (List.all_eq_true.1 hdone)
  exact ⟨outcome, _, again, hyields, hentries, hreturns, hmerge⟩

end Restore

end TreeManifest
