import TreeManifest.Proofs.Volume.Captured
import TreeManifest.Proofs.Volume.Descent
import TreeManifest.Proofs.Walk.Schedule

/-!
# Walks of volumes

What a walk of a volume captures are the objects to which names lead from its root. Locations with
one identity are names of one object, since no two objects of a volume have one number.

## Main definitions

- `Volume.IsTidy`: the names below a directory are proper, distinct and finitely many.

## Main statements

- `Caller.isTree`, `Caller.readsByObject`: what a walk needs of its tree.
- `Caller.exists_descend_of_captures`, `Caller.exists_captures_of_descend`: what is captured.
-/

namespace TreeManifest

/-- Names that lead down from a directory are proper and distinct, and there are finitely many ways
down. -/
structure Volume.IsTidy (volume : Volume) (top : Nat) : Prop where
  isName : ∀ {names number name child}, volume.descend top names = some number →
    (name, child) ∈ volume.names number → Path.IsName name
  nodup : ∀ {names number}, volume.descend top names = some number →
    ((volume.names number).map Prod.fst).Nodup
  finite : {names | (volume.descend top names).isSome = true}.Finite

namespace Caller

variable {caller : Caller} {volume : Volume} {root path other : Path} {top number found : Nat}
  {object : VolumeObject} {names : List Bytes}

/-! ## One object -/

section Reading

variable (hnul : Bytes.nul ∉ path) (hnul' : Bytes.nul ∉ other)
  (hfind : caller.find volume false path = .ok (number, object))
  (hfind' : caller.find volume false other = .ok (number, object))

include hnul hnul' hfind hfind'

/-- Paths that lead to one object show the same attributes. -/
theorem attributeValue_congr (name : String) :
    (caller.snapshot volume).attributeValue path name =
      (caller.snapshot volume).attributeValue other name := by
  simp only [snapshot, withoutNul, if_neg hnul, if_neg hnul', attributeValue, hfind, hfind']

/-- Paths that lead to one object open the same handle. -/
theorem openForFlags_congr (directory : Bool) :
    (caller.snapshot volume).openForFlags path directory =
      (caller.snapshot volume).openForFlags other directory := by
  have hopen : ∀ mode, (caller.snapshot volume).openObject path mode =
      (caller.snapshot volume).openObject other mode := fun mode => by
    simp only [snapshot, withoutNul, if_neg hnul, if_neg hnul', openObject, hfind, hfind']
  simp only [Snapshot.openForFlags, hopen]

end Reading

/-- Only paths without a zero byte can be listed. -/
theorem nul_notMem_of_readDirectory {found : List (Except IoError Bytes)}
    (h : (caller.snapshot volume).readDirectory path = .ok found) : Bytes.nul ∉ path := by
  intro hnul
  simp only [snapshot, withoutNul, if_pos hnul] at h
  cases h

/-- An object that can be found has metadata. -/
theorem lstat_of_find (hnul : Bytes.nul ∉ path)
    (hfind : caller.find volume false path = .ok (number, object)) :
    (caller.snapshot volume).lstat path = .ok (volume.statOf number object) := by
  simp only [snapshot, withoutNul, if_neg hnul, stat, hfind]
  rfl

/-- The superuser lists every directory completely. -/
theorem readDirectory_of_find {parent : Nat} {bindings : List (Bytes × Nat)}
    (hsuper : caller.isSuperuser = true) (hnul : Bytes.nul ∉ path)
    (hfind : caller.find volume true path = .ok (number, object))
    (hbody : object.body = .directory bindings parent) :
    (caller.snapshot volume).readDirectory path =
      .ok (bindings.map fun binding => .ok binding.1) := by
  have hmay : caller.may .read object = true := by simp [may, hsuper]
  simp only [snapshot, withoutNul, if_neg hnul, readDirectory, hfind, bind, Except.bind, hbody,
    hmay, if_true]
  rfl

/-- What is read in a directory are its names. -/
theorem exists_of_readDirectory {found : List (Except IoError Bytes)}
    (h : (caller.snapshot volume).readDirectory path = .ok found) :
    ∃ number object bindings parent, caller.find volume true path = .ok (number, object) ∧
      object.body = .directory bindings parent ∧
      found = bindings.map fun binding => .ok binding.1 := by
  simp only [snapshot, withoutNul] at h
  split at h
  · cases h
  · have hread := mapError_eq_ok h
    simp only [readDirectory, bind, Except.bind] at hread
    split at hread
    · cases hread
    · next entry hentry =>
      split at hread
      · next bindings parent hbody =>
        split at hread
        · exact ⟨entry.1, entry.2, bindings, parent, hentry, hbody, (Except.ok.inj hread).symm⟩
        · cases hread
      · cases hread

/-- What can be listed is an open root with exactly the listed names. -/
theorem opens_of_readDirectory {found : List (Except IoError Bytes)}
    (h : (caller.snapshot volume).readDirectory root = .ok found) :
    ∃ top, caller.Opens volume root top ∧
      found = (volume.names top).map fun binding => .ok binding.1 := by
  obtain ⟨top, object, bindings, parent, hfind, hbody, rfl⟩ := exists_of_readDirectory h
  obtain ⟨hresolve, hobject⟩ := find_eq_ok_iff.1 hfind
  exact ⟨top, ⟨hresolve, object, bindings, parent, hobject, hbody⟩, by
    rw [Volume.names_eq_of_body hobject hbody]⟩

/-- Identities tell objects apart as long as their numbers fit 64 bits. -/
theorem statOf_identity_inj {other : Nat} {object' : VolumeObject} (hnumber : number < 2 ^ 64)
    (hother : other < 2 ^ 64)
    (h : (volume.statOf number object).identity = (volume.statOf other object').identity) :
    number = other := by
  have hinode : UInt64.ofNat number = UInt64.ofNat other := congrArg ObjectId.inode h
  have hnat := congrArg UInt64.toNat hinode
  rwa [UInt64.toNat_ofNat_of_lt' hnumber, UInt64.toNat_ofNat_of_lt' hother] at hnat

/-- Every symlink of a plain volume can be read. -/
theorem exists_readLink_of_kind (hplain : object.IsPlain) (hnul : Bytes.nul ∉ path)
    (hfind : caller.find volume false path = .ok (number, object))
    (hkind : object.kind = .symlink) :
    ∃ target, (caller.snapshot volume).readLink path = .ok target := by
  obtain ⟨target, htarget⟩ : ∃ target, object.target? = some target := by
    unfold VolumeObject.kind at hkind
    split at hkind
    · cases hkind
    · cases hkind
    · next target hbody => exact ⟨target, by rw [VolumeObject.target?, hbody]⟩
    · next kind rawDevice hbody =>
      have hspecial := hplain.isSpecial kind rawDevice hbody
      rw [hkind] at hspecial
      cases hspecial
  refine ⟨target, ?_⟩
  simp only [snapshot, withoutNul, if_neg hnul, readLink, hfind, bind, Except.bind, htarget]
  rfl

/-- What has metadata in a plain volume can be captured. -/
theorem canCapture_of_lstat (hplain : volume.IsPlain) {stat : Stat}
    (h : (caller.snapshot volume).lstat (Path.join root path) = .ok stat) :
    (caller.lister volume root).CanCapture path := by
  refine ⟨stat, h, fun hsymlink => ?_, fun hexclude => absurd hexclude Bool.false_ne_true⟩
  obtain ⟨number, object, hfind, rfl⟩ := find_of_lstat h
  have hobject := hplain.object (find_eq_ok_iff.1 hfind).2
  rw [kind_statOf hobject] at hsymlink
  exact exists_readLink_of_kind hobject (nul_notMem_of_lstat h) hfind hsymlink

/-! ## Locations -/

section Locations

variable (hplain : volume.IsPlain) (hnext : volume.next ≤ 2 ^ 64)

include hplain hnext

/-- Objects with one identity are one object. -/
theorem exists_find_of_hasObject {first second : Path} {stat stat' : Stat}
    (h : (caller.lister volume root).HasObject first stat)
    (h' : (caller.lister volume root).HasObject second stat')
    (hsame : stat.identity = stat'.identity) : ∃ number object,
      caller.find volume false first = .ok (number, object) ∧
      caller.find volume false second = .ok (number, object) ∧
      stat = volume.statOf number object ∧ stat' = volume.statOf number object ∧
      Bytes.nul ∉ first ∧ Bytes.nul ∉ second := by
  obtain ⟨-, -, -, -, -, -, -, hlstat⟩ := h
  obtain ⟨-, -, -, -, -, -, -, hlstat'⟩ := h'
  obtain ⟨number, object, hfind, rfl⟩ := find_of_lstat hlstat
  obtain ⟨other, object', hfind', rfl⟩ := find_of_lstat hlstat'
  have hobject := (find_eq_ok_iff.1 hfind).2
  have hobject' := (find_eq_ok_iff.1 hfind').2
  have hlt := hplain.isFresh.lt hobject
  have hlt' := hplain.isFresh.lt hobject'
  obtain rfl := statOf_identity_inj (by omega) (by omega) hsame
  obtain rfl := Option.some.inj (hobject.symm.trans hobject')
  exact ⟨number, object, hfind, hfind', rfl, rfl, nul_notMem_of_lstat hlstat,
    nul_notMem_of_lstat hlstat'⟩

/-- What is read of an object does not depend on the name that leads to it. -/
theorem readsByObject (hsuper : caller.isSuperuser = true) :
    (caller.lister volume root).ReadsByObject where
  names h h' hsame := by
    obtain ⟨number, object, hfind, hfind', -, -, hnul, hnul'⟩ :=
      exists_find_of_hasObject hplain hnext h h' hsame
    rw [run_list hsuper hnul hfind, run_list hsuper hnul' hfind']
  value name h h' hsame := by
    obtain ⟨number, object, hfind, hfind', -, -, hnul, hnul'⟩ :=
      exists_find_of_hasObject hplain hnext h h' hsame
    show (NativeAttributes.get (caller.snapshot volume) _ name).toOption =
      (NativeAttributes.get (caller.snapshot volume) _ name).toOption
    unfold NativeAttributes.get
    rw [attributeValue_congr hnul hnul' hfind hfind' name]
    cases (caller.snapshot volume).attributeValue _ name <;> rfl
  flags {first second stat other} h h' hsame := by
    obtain ⟨number, object, hfind, hfind', rfl, rfl, hnul, hnul'⟩ :=
      exists_find_of_hasObject hplain hnext h h' hsame
    show (Flags.read (caller.snapshot volume) first _).toOption =
      (Flags.read (caller.snapshot volume) second _).toOption
    unfold Flags.read
    rw [openForFlags_congr hnul hnul' hfind hfind']
    split
    · rfl
    · cases (caller.snapshot volume).openForFlags second _ with
      | error error => rfl
      | ok handle =>
        simp only [flagWord_eq_error hplain]
        rfl

end Locations

section Objects

variable (hplain : volume.IsPlain) (htree : (caller.lister volume root).IsTree)

include hplain htree

/-- Of a tree in which nothing is left out, all directories are visited. -/
theorem visits_of_hasDirectory {directory : Path}
    (h : (caller.lister volume root).HasDirectory directory) :
    (caller.lister volume root).Visits directory := by
  induction h with
  | root => exact .root
  | @child parent found name stat hparent hfound hname hstat hkind ih =>
    rw [Lister.join_directory htree hparent (htree.isName hparent hfound hname)] at hstat
    obtain ⟨child, kept, hcaptures, hpath⟩ :=
      ih.exists_captures_child htree hfound hname (canCapture_of_lstat hplain hstat)
    rw [← hpath]
    refine hcaptures.visits (beq_iff_eq.2 ?_)
    have hlstat := hcaptures.lstat_eq htree
    rw [hpath, show (caller.lister volume root).view.lstat _ = _ from hstat] at hlstat
    rw [hcaptures.kind_eq, ← Except.ok.inj hlstat, hkind]

/-- All its objects are captured. -/
theorem exists_captures_of_hasObject {location : Path} {stat : Stat}
    (h : (caller.lister volume root).HasObject location stat) :
    ∃ child kept, (caller.lister volume root).Captures child kept ∧
      location = Path.join root kept.path ∧ child.stat = stat := by
  obtain ⟨parent, found, name, hparent, hfound, hname, rfl, hstat⟩ := h
  have hlocation := Lister.join_directory htree hparent (htree.isName hparent hfound hname)
  rw [hlocation] at hstat ⊢
  obtain ⟨child, kept, hcaptures, hpath⟩ :=
    (visits_of_hasDirectory hplain htree hparent).exists_captures_child htree hfound hname
      (canCapture_of_lstat hplain hstat)
  refine ⟨child, kept, hcaptures, by rw [hpath]; rfl, ?_⟩
  have hlstat := hcaptures.lstat_eq htree
  rw [hpath, hstat] at hlstat
  exact (Except.ok.inj hlstat).symm

end Objects

/-! ## The tree -/

theorem exists_child?_of_mem {name : Bytes} {child : Nat}
    (h : (name, child) ∈ volume.names number) :
    ∃ found, volume.child? number name = some found := by
  unfold Volume.child?
  cases hlookup : (volume.names number).lookup name with
  | some found => exact ⟨found, rfl⟩
  | none => simpa using List.lookup_eq_none_iff.1 hlookup _ h

theorem exists_of_mem_found {name : Bytes} {bindings : List (Bytes × Nat)}
    (h : (.ok name : Except IoError Bytes) ∈ bindings.map fun binding => .ok binding.1) :
    ∃ binding ∈ bindings, name = binding.1 := by
  obtain ⟨binding, hmem, hsame⟩ := List.mem_map.1 h
  exact ⟨binding, hmem, (Except.ok.inj hsame).symm⟩

section Tree

variable (hsuper : caller.isSuperuser = true) (hplain : volume.IsPlain) (hnul : Bytes.nul ∉ root)
  (hopens : caller.Opens volume root top) (htidy : volume.IsTidy top)

omit hsuper hplain hnul htidy in
include hopens in
/-- What is read in a directory of the tree are the names in it. -/
theorem readDirectory_eq (hnames : ∀ name ∈ names, Path.IsName name)
    (hdescend : volume.descend top names = some number) {bindings : List (Bytes × Nat)}
    {parent : Nat} (hobject : volume.object? number = some object)
    (hbody : object.body = .directory bindings parent) {found : List (Except IoError Bytes)}
    (h : (caller.snapshot volume).readDirectory
      ((caller.lister volume root).directory (Path.ofNames names)) = .ok found) :
    found = (volume.names number).map fun binding => .ok binding.1 := by
  obtain ⟨other, object', bindings', parent', hfind, hbody', rfl⟩ := exists_of_readDirectory h
  obtain ⟨hresolve, hobject'⟩ := find_eq_ok_iff.1 hfind
  have hother : other = number := by
    by_cases hne : names = []
    · subst hne
      rw [show (caller.lister volume root).directory (Path.ofNames []) = root from rfl,
        hopens.resolve_eq] at hresolve
      exact (Except.ok.inj hresolve).symm.trans (Option.some.inj hdescend)
    · rw [Lister.directory_ofNames _ hnames hne] at hresolve
      exact hopens.eq_of_resolve_join hnames hne hdescend
        (fun _ => Volume.target?_of_directory hobject hbody) hresolve
  rw [← hother, Volume.names_eq_of_body hobject' hbody']

omit hsuper hnul in
include hplain hopens htidy in
/-- The directories of the tree are those to which names lead. -/
theorem exists_descend_of_hasDirectory {directory : Path}
    (h : (caller.lister volume root).HasDirectory directory) :
    ∃ names number object bindings parent, (∀ name ∈ names, Path.IsName name) ∧
      directory = Path.ofNames names ∧ volume.descend top names = some number ∧
      volume.object? number = some object ∧ object.body = .directory bindings parent := by
  induction h with
  | root =>
    obtain ⟨object, bindings, parent, hobject, hbody⟩ := hopens.exists_directory
    exact ⟨[], top, object, bindings, parent, fun _ hname => absurd hname List.not_mem_nil, rfl,
      rfl, hobject, hbody⟩
  | @child directory found name stat _ hfound hname hstat hkind ih =>
    obtain ⟨names, number, object, bindings, parent, hnames, rfl, hdescend, hobject, hbody⟩ := ih
    obtain rfl := readDirectory_eq hopens hnames hdescend hobject hbody hfound
    obtain ⟨⟨name, child⟩, hmem, rfl⟩ := exists_of_mem_found hname
    have hproper := htidy.isName hdescend hmem
    have hall := Path.forall_isName_concat hnames hproper
    obtain ⟨child, hchild⟩ := exists_child?_of_mem hmem
    have hdescend' := Volume.descend_concat_eq_some_iff.2 ⟨number, hdescend, hchild⟩
    rw [Lister.join_directory_ofNames _ hnames hproper, ← Path.ofNames_append_singleton] at hstat
    obtain ⟨found, object', hfind, rfl⟩ := find_of_lstat hstat
    obtain ⟨hresolve, hobject'⟩ := find_eq_ok_iff.1 hfind
    obtain rfl := hopens.eq_of_resolve hall (List.concat_ne_nil _ _) hdescend' hresolve
    rw [kind_statOf (hplain.object hobject')] at hkind
    obtain ⟨bindings', parent', hbody'⟩ :=
      exists_directory_of_kind (hplain.object hobject') hkind
    exact ⟨names ++ [name], found, object', bindings', parent', hall,
      (Path.ofNames_append_singleton names name).symm, hdescend', hobject', hbody'⟩

omit hsuper hnul in
include hplain hopens htidy in
/-- A tidy part of a plain volume is a tree for the lister. -/
theorem isTree (hnext : volume.next ≤ 2 ^ 64) : (caller.lister volume root).IsTree where
  finite := by
    refine (htidy.finite.image Path.ofNames).subset fun directory hdirectory => ?_
    obtain ⟨names, number, -, -, -, -, rfl, hdescend, -, -⟩ :=
      exists_descend_of_hasDirectory hplain hopens htidy hdirectory
    exact ⟨names, by simp [hdescend], rfl⟩
  isName hdirectory hfound hname := by
    obtain ⟨names, number, object, bindings, parent, hnames, rfl, hdescend, hobject, hbody⟩ :=
      exists_descend_of_hasDirectory hplain hopens htidy hdirectory
    obtain rfl := readDirectory_eq hopens hnames hdescend hobject hbody hfound
    obtain ⟨⟨name, child⟩, hmem, rfl⟩ := exists_of_mem_found hname
    exact htidy.isName hdescend hmem
  nodup hdirectory hfound := by
    obtain ⟨names, number, object, bindings, parent, hnames, rfl, hdescend, hobject, hbody⟩ :=
      exists_descend_of_hasDirectory hplain hopens htidy hdirectory
    obtain rfl := readDirectory_eq hopens hnames hdescend hobject hbody hfound
    rw [List.filterMap_map, show Except.toOption ∘ (fun binding : Bytes × Nat =>
      (.ok binding.1 : Except IoError Bytes)) = some ∘ Prod.fst from rfl, List.filterMap_eq_map]
    exact htidy.nodup hdescend
  stat_eq h h' hsame := by
    obtain ⟨number, object, -, -, rfl, rfl, -, -⟩ :=
      exists_find_of_hasObject hplain hnext h h' hsame
    rfl

include hopens in
omit hsuper hplain hnul htidy in
/-- The root of a walk of a plain volume is accepted. -/
theorem rootError?_eq_none (hplain : volume.IsPlain) (hnul : Bytes.nul ∉ root) :
    Walk.rootError? (caller.lister volume root) = none := by
  obtain ⟨object, bindings, parent, hobject, hbody⟩ := hopens.exists_directory
  have hstat : (caller.lister volume root).view.stat root = .ok (volume.statOf top object) := by
    show (caller.snapshot volume).stat root = _
    simp only [snapshot, withoutNul, if_neg hnul, stat,
      find_eq_ok_iff.2 ⟨hopens.resolve_eq, hobject⟩]
    rfl
  have hkind : (volume.statOf top object).kind = .directory := by
    rw [kind_statOf (hplain.object hobject), VolumeObject.kind, hbody]
  unfold Walk.rootError?
  rw [show (caller.lister volume root).root = root from rfl, hstat]
  exact if_pos hkind

include hsuper hplain hopens htidy in
omit hnul in
/-- A captured child is the entry of the object to which the names of its path lead. -/
theorem exists_descend_of_captures (hnext : volume.next ≤ 2 ^ 64) {child : Child} {kept : Entry}
    (h : (caller.lister volume root).Captures child kept) :
    ∃ names number object, (∀ name ∈ names, Path.IsName name) ∧ names ≠ [] ∧
      kept.path = Path.ofNames names ∧ volume.descend top names = some number ∧
      volume.object? number = some object ∧ child.stat = volume.statOf number object ∧
      kept = caller.entryOf volume kept.path number object := by
  have htree := isTree hplain hopens htidy hnext
  obtain ⟨front, name, found, hnames, hpath, hfound, hname, hfront⟩ := h.exists_names htree
  obtain ⟨front', number, object, bindings, parent, hnames', hsame, hdescend, hobject, hbody⟩ :=
    exists_descend_of_hasDirectory hplain hopens htidy
      (hfront front (List.prefix_refl _)).1.hasDirectory
  obtain rfl : front = front' := by
    rw [← Path.components_ofNames hnames', ← hsame, Path.components_ofNames
      fun other hother => hnames other (List.mem_append_left _ hother)]
  obtain rfl := readDirectory_eq hopens hnames' hdescend hobject hbody hfound
  obtain ⟨⟨name, child'⟩, hmem, rfl⟩ := exists_of_mem_found hname
  obtain ⟨target, hchild⟩ := exists_child?_of_mem hmem
  have hdescend' := Volume.descend_concat_eq_some_iff.2 ⟨number, hdescend, hchild⟩
  obtain ⟨found, object', hnul, hfind, hstat, hkept⟩ := exists_entryOf hsuper hplain htree h
  obtain ⟨hresolve, hobject'⟩ := find_eq_ok_iff.1 hfind
  rw [hpath] at hresolve
  obtain rfl := hopens.eq_of_resolve hnames (List.concat_ne_nil _ _) hdescend' hresolve
  exact ⟨_, _, _, hnames, List.concat_ne_nil _ _, hpath, hdescend', hobject', hstat, hkept⟩

include hsuper hplain hnul hopens htidy in
/-- An object to which names lead is captured if all that is on the way can be inspected. -/
theorem exists_captures_of_descend (hnext : volume.next ≤ 2 ^ 64)
    (hnames : ∀ name ∈ names, Path.IsName name) (hne : names ≠ [])
    (hdescend : volume.descend top names = some number)
    (hlstat : ∀ front, front <+: names → front ≠ [] → ∃ stat,
      (caller.snapshot volume).lstat (Path.join root (Path.ofNames front)) = .ok stat) :
    ∃ child kept, (caller.lister volume root).Captures child kept ∧
      kept.path = Path.ofNames names := by
  have htree := isTree hplain hopens htidy hnext
  induction names using List.reverseRecOn generalizing number with
  | nil => exact absurd rfl hne
  | append_singleton front name ih =>
    obtain ⟨directory, hfront, hchild⟩ := Volume.descend_concat_eq_some_iff.1 hdescend
    obtain ⟨object, bindings, parent, hobject, hbody⟩ := Volume.exists_directory_of_child? hchild
    have hproper : ∀ other ∈ front, Path.IsName other := fun other hother =>
      hnames other (List.mem_append_left _ hother)
    -- The directory above is visited, and its names can be read.
    obtain ⟨hvisits, hread⟩ : (caller.lister volume root).Visits (Path.ofNames front) ∧
        (caller.snapshot volume).readDirectory
          ((caller.lister volume root).directory (Path.ofNames front)) =
            .ok (bindings.map fun binding => .ok binding.1) := by
      by_cases hnil : front = []
      · subst hnil
        obtain rfl := Option.some.inj hfront
        exact ⟨.root, readDirectory_of_find hsuper hnul
          (find_eq_ok_iff.2 ⟨hopens.resolve_eq, hobject⟩) hbody⟩
      · obtain ⟨child, kept, hcaptures, hpath⟩ := ih hproper hnil hfront fun others hothers =>
          hlstat others (hothers.trans (List.prefix_append _ _))
        obtain ⟨number', object', hnul', hfind, hstat, -⟩ :=
          exists_entryOf hsuper hplain htree hcaptures
        rw [hpath] at hnul' hfind
        obtain ⟨hresolve, hobject'⟩ := find_eq_ok_iff.1 hfind
        obtain rfl := hopens.eq_of_resolve hproper hnil hfront hresolve
        obtain rfl := Option.some.inj (hobject.symm.trans hobject')
        refine ⟨?_, ?_⟩
        · rw [← hpath]
          refine hcaptures.visits (beq_iff_eq.2 ?_)
          rw [hcaptures.kind_eq, hstat, kind_statOf (hplain.object hobject), VolumeObject.kind,
            hbody]
        · rw [Lister.directory_ofNames _ hproper hnil]
          exact readDirectory_of_find hsuper hnul' (find_eq_ok_iff.2
            ⟨resolve_true hresolve (Volume.target?_of_directory hobject hbody), hobject⟩) hbody
    have hname : (.ok name : Except IoError Bytes) ∈
        bindings.map fun binding => .ok binding.1 := by
      rw [Volume.child?, Volume.names_eq_of_body hobject hbody] at hchild
      exact List.mem_map.2 ⟨_, Volume.mem_of_lookup hchild, rfl⟩
    obtain ⟨stat, hstat⟩ := hlstat _ (List.prefix_refl _) hne
    rw [Path.ofNames_append_singleton] at hstat ⊢
    exact hvisits.exists_captures_child htree hread hname (canCapture_of_lstat hplain hstat)

end Tree

end Caller

end TreeManifest
