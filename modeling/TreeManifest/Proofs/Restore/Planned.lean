import TreeManifest.Proofs.Restore.Finished
import TreeManifest.Proofs.Walk.Assigned
import TreeManifest.Proofs.Walk.Completeness
import TreeManifest.Proofs.Walk.Links

/-!
# Restoring what was walked

The outcome of a walk is a listing that can be restored: every directory and every canonical entry
stands before what needs it, and what was captured of an object can be applied to a new one.

## Main definitions

- `Restore.Describes`: an entry says of an object what can be captured of it.

## Main statements

- `Restore.exists_describes`: the entries of an outcome describe the objects of the volume.
- `Restore.isPlan_of_yields`, `Restore.isApplicable_of_yields`: they can be restored.
-/

namespace TreeManifest

variable {caller : Caller} {volume : Volume} {root path : Path} {number : Nat}
  {object : VolumeObject} {entry : Entry}

namespace Caller

/-- The entry of a plain object has its kind. -/
theorem kind_entryOf (hplain : object.IsPlain) :
    (caller.entryOf volume path number object).kind = object.kind :=
  FileKind.ofMode_or object.kind hplain.permissions_eq

/-- The entry of a plain object has its permissions. -/
theorem permissions_entryOf (hplain : object.IsPlain) :
    (caller.entryOf volume path number object).permissions = object.permissions :=
  FileKind.permissions_or object.kind hplain.permissions_eq

/-- Only attributes that the caller can read are captured. -/
theorem captures_of_contains {name : String}
    (h : ((caller.capturedAttributes object).getD .empty).contains name = true) :
    caller.captures object name = true := by
  unfold capturedAttributes at h
  split at h
  · rw [Option.filter_some] at h
    split at h
    · rw [Option.getD_some, AttributeMap.contains_iff, AttributeMap.mem_keys_filter] at h
      exact h.2
    · cases h
  · cases h

/-- Whether an attribute can be changed depends on the kind of the object only. -/
theorem IsChangeable.congr {other : VolumeObject} {name : String}
    (h : caller.IsChangeable object name) (hkind : other.kind = object.kind) :
    caller.IsChangeable other name :=
  ⟨h.nul_notMem, h.checkLength_eq, h.checkForm_eq, h.sees_eq, hkind ▸ h.hasFlagWord_of_user⟩

end Caller

namespace Restore

/-- An entry says of an object what can be captured of it, unless it is a further name. -/
inductive Describes (caller : Caller) (volume : Volume) (number : Nat) (object : VolumeObject)
    (entry : Entry) : Prop where
  | full (hrole : entry.role ≠ .linkTo)
      (hentry : entry =
        { caller.entryOf volume entry.path number object with role := entry.role })
  | further (canonical : Path)
      (hentry : entry =
        Hardlink.demote canonical (caller.entryOf volume entry.path number object))

namespace Describes

variable (h : Describes caller volume number object entry)

include h

/-- A described entry has the mode of its object, hard links included. -/
theorem mode_eq : entry.mode = (caller.entryOf volume entry.path number object).mode := by
  cases h with
  | full _ hentry | further _ hentry => exact (congrArg Entry.mode hentry :)

/-- A described entry has the kind of its object. -/
theorem kind_eq (hplain : object.IsPlain) : entry.kind = object.kind := by
  rw [Entry.kind, h.mode_eq]
  exact Caller.kind_entryOf hplain

/-- A described entry has the permissions of its object. -/
theorem permissions_eq (hplain : object.IsPlain) : entry.permissions = object.permissions := by
  rw [Entry.permissions, h.mode_eq]
  exact Caller.permissions_entryOf hplain

theorem uid_eq : entry.uid = object.uid.toUInt64.toInt64 := by
  cases h with
  | full _ hentry | further _ hentry => exact congrArg Entry.uid hentry

theorem gid_eq : entry.gid = object.gid.toUInt64.toInt64 := by
  cases h with
  | full _ hentry | further _ hentry => exact congrArg Entry.gid hentry

/-- A described entry has the time that the volume shows of its object. -/
theorem modTime_eq : entry.modTime = volume.times.clamp object.modTime := by
  cases h with
  | full _ hentry | further _ hentry => exact congrArg Entry.modTime hentry

theorem flags_eq : entry.flags = none := by
  cases h with
  | full _ hentry | further _ hentry => exact congrArg Entry.flags hentry

/-- Entries that are no hard links have the captured attributes of their objects. -/
theorem attributes_eq (hrole : entry.role ≠ .linkTo) :
    entry.attributes = caller.capturedAttributes object := by
  cases h with
  | full _ hentry => exact congrArg Entry.attributes hentry
  | further _ hentry => exact absurd (congrArg Entry.role hentry) hrole

/-- Entries that are no hard links point where their objects point. -/
theorem link_eq (hrole : entry.role ≠ .linkTo) : entry.link = object.target? := by
  cases h with
  | full _ hentry => exact congrArg Entry.link hentry
  | further _ hentry => exact absurd (congrArg Entry.role hentry) hrole

/-- The entry of a device node has its device. -/
theorem device?_eq (hplain : object.IsPlain) (hkind : object.kind.isDevice = true) :
    entry.device? = some (.ofRaw (volume.statOf number object).rawDevice) := by
  have hpayload : (entry.startChunk, entry.startOffset) =
      (Device.ofRaw (volume.statOf number object).rawDevice).toPayload := by
    have hdevice : (volume.statOf number object).kind.isDevice = true := by
      rw [Caller.kind_statOf hplain, hkind]
    have hsource : ((caller.entryOf volume entry.path number object).startChunk,
        (caller.entryOf volume entry.path number object).startOffset) =
        (Device.ofRaw (volume.statOf number object).rawDevice).toPayload := by
      simp only [Caller.entryOf, Entry.ofStat, if_pos hdevice]
    rw [← hsource]
    cases h with
    | full _ hentry | further _ hentry =>
      exact congrArg₂ Prod.mk (congrArg Entry.startChunk hentry :)
        (congrArg Entry.startOffset hentry :)
  rw [Entry.device?, h.kind_eq hplain, if_pos hkind,
    ← Device.ofPayload_toPayload (.ofRaw (volume.statOf number object).rawDevice), ← hpayload]

theorem attributes_eq_none (hrole : entry.role = .linkTo) : entry.attributes = none := by
  cases h with
  | full hother => exact absurd hrole hother
  | further _ hentry => exact congrArg Entry.attributes hentry

/-- What was captured of an object can be applied to objects of its kind. -/
theorem isApplicable (hplain : object.IsPlain) (huid : object.uid ≠ Caller.keepId)
    (hgid : object.gid ≠ Caller.keepId) : IsApplicable caller entry where
  exists_owner := ⟨object.uid, object.gid, huid, hgid, h.uid_eq, h.gid_eq⟩
  flags_eq := h.flags_eq
  permissions_of_symlink hkind := by
    rw [h.permissions_eq hplain]
    exact hplain.permissions_of_symlink ((h.kind_eq hplain).symm.trans hkind)
  attributes_of_not_carries hcarries := by
    by_cases hrole : entry.role = .linkTo
    · exact h.attributes_eq_none hrole
    · rw [h.kind_eq hplain] at hcarries
      rw [h.attributes_eq hrole, Caller.capturedAttributes, hcarries]
      rfl
  isChangeable name hname := by
    by_cases hrole : entry.role = .linkTo
    · rw [h.attributes_eq_none hrole] at hname
      cases hname
    · rw [h.attributes_eq hrole] at hname
      have hcaptures := Caller.captures_of_contains hname
      simp only [Caller.captures, Bool.and_eq_true, decide_eq_true_eq] at hcaptures
      exact ⟨hcaptures.1.2, fun other hkind =>
        hcaptures.2.congr (hkind.trans (h.kind_eq hplain))⟩

end Describes

/-! ## Entries of an outcome -/

section Yields

variable {config : WalkConfig} {outcome : WalkOutcome} {front back : List Entry}
  (hsuper : caller.isSuperuser = true) (hplain : volume.IsPlain) (hnext : volume.next ≤ 2 ^ 64)
  (htree : (caller.lister volume root).IsTree)
  (hsymlink : ∀ {location stat}, (caller.lister volume root).HasObject location stat →
    stat.kind = .symlink → stat.linkCount ≤ 1)
  (h : Walk.Yields (caller.lister volume root) config outcome)

include hsuper hplain hnext htree hsymlink h

/-- The entries of an outcome describe the objects of the volume. -/
theorem exists_describes (hentry : entry ∈ outcome.entries) : ∃ child number object,
    Walk.StandsFor (caller.lister volume root) entry child
      (caller.entryOf volume entry.path number object) ∧
    caller.find volume false (Path.join root entry.path) = .ok (number, object) ∧
    child.stat = volume.statOf number object ∧ Describes caller volume number object entry := by
  obtain ⟨front, back, hsplit⟩ := List.append_of_mem hentry
  obtain ⟨child, kept, hstands, hassign⟩ :=
    h.exists_assign htree (Caller.readsByObject hplain hnext hsuper) hsplit
  obtain ⟨number, object, -, hfind, hstat, hkept⟩ :=
    Caller.exists_entryOf hsuper hplain htree hstands.captures
  rw [← hstands.path_eq] at hfind hkept
  have hobject := hplain.object (Caller.find_eq_ok_iff.1 hfind).2
  subst hkept
  refine ⟨child, number, object, hstands, hfind, hstat, ?_⟩
  rw [Walk.tracked?_of_captures rfl hstands.captures] at hassign
  by_cases htracked : child.stat.kind ≠ .directory ∧ 1 < child.stat.linkCount
  · rw [if_pos htracked] at hassign
    dsimp only at hassign
    cases hfirst : Hardlink.firstPath? child.stat.identity front with
    | none =>
      rw [hfirst] at hassign
      -- Nothing is lost of the link of an entry: it is no symlink.
      have hkind : object.kind ≠ .symlink := by
        intro hkind
        have hlinks := hsymlink hstands.captures.isChild.hasObject
          (by rw [hstat, Caller.kind_statOf hobject, hkind])
        exact absurd htracked.2 (UInt64.not_lt.2 hlinks)
      have hlink : (caller.entryOf volume entry.path number object).link = none :=
        Caller.target?_of_kind_ne hkind
      have hrole : entry.role = .canonical := congrArg Entry.role hassign
      refine .full (by simp [hrole]) ?_
      rw [hrole]
      refine hassign.trans ?_
      rw [Hardlink.assign, ← hlink]
    | some first =>
      rw [hfirst] at hassign
      exact .further first hassign
  · rw [if_neg htracked] at hassign
    have hrole : entry.role = .none := congrArg Entry.role hassign
    refine .full (by simp [hrole]) ?_
    rw [hrole]
    exact hassign

omit hsuper hplain hnext hsymlink in
/-- The directory of an entry has an entry in front of it, unless it is the root. -/
theorem exists_above (hsplit : outcome.entries = front ++ entry :: back) :
    ∃ names name, (∀ other ∈ names ++ [name], Path.IsName other) ∧
      entry.path = Path.ofNames (names ++ [name]) ∧ (names = [] ∨ ∃ above ∈ front,
        above.role ≠ .linkTo ∧ above.kind = .directory ∧ above.path = Path.ofNames names) := by
  have hentry : entry ∈ outcome.entries := by simp [hsplit]
  obtain ⟨names, name, -, hnames, hpath, hlisted, -, -⟩ := h.exists_names htree hentry
  refine ⟨names, name, hnames, hpath, ?_⟩
  by_cases hnil : names = []
  · exact .inl hnil
  · obtain ⟨⟨above, habove, habovePath, hdirectory⟩, -⟩ := hlisted names List.prefix_rfl hnil
    have hkind : above.kind = .directory := beq_iff_eq.1 hdirectory
    have hprecedes : Order.Precedes above entry := by
      refine Order.precedes_of_isBeneath ⟨hdirectory, [name], List.cons_ne_nil _ _, ?_⟩
      rw [hpath, habovePath, Path.components_ofNames hnames,
        Path.components_ofNames fun other hother => hnames other (List.mem_append_left _ hother)]
    have hcanonical := h.canonical
    rw [hsplit] at habove hcanonical
    refine .inr ⟨above, ?_, ?_, hkind, habovePath⟩
    · rcases List.mem_append.1 habove with habove | habove
      · exact habove
      · rcases List.mem_cons.1 habove with rfl | habove
        · exact absurd hprecedes (Order.precedes_irrefl _)
        · have hbehind := (List.pairwise_append.1 hcanonical).2.1
          have hlater := (List.pairwise_cons.1 hbehind).1 above habove
          exact absurd hprecedes hlater.asymm
    · obtain ⟨child, kept, hstands⟩ := h.exists_child htree (hsplit ▸ habove)
      have hrole : above.role = .none := by
        by_contra hrole
        exact ((hstands.role_ne_none_iff rfl).1 hrole).1 (hstands.kind_eq.symm.trans hkind)
      simp [hrole]

omit hsuper hplain hnext hsymlink in
/-- A further name has the canonical entry of its group in front of it, which is of its kind. -/
theorem exists_canonical (hsplit : outcome.entries = front ++ entry :: back)
    (hrole : entry.role = .linkTo) : entry.kind ≠ .directory ∧ ∃ canonical ∈ front,
      canonical.role ≠ .linkTo ∧ canonical.kind = entry.kind ∧
        entry.link = some canonical.path := by
  have hentry : entry ∈ outcome.entries := by simp [hsplit]
  obtain ⟨child, kept, hstands⟩ := h.exists_child htree hentry
  have hgroup : Hardlink.groupOf entry = some child.stat.identity :=
    Hardlink.groupOf_eq_some_iff.2 ⟨by simp [hrole], hstands.identity_eq⟩
  have hconsistent := h.consistent
  rw [hsplit] at hconsistent
  obtain ⟨-, -, -, canonical, hcanonical, hsame, hcanonicalRole, hlink⟩ :=
    hconsistent.exists_of_linkTo hgroup hrole
  refine ⟨?_, canonical, hcanonical, by simp [hcanonicalRole], ?_, hlink⟩
  · rw [hstands.kind_eq]
    exact ((hstands.role_ne_none_iff rfl).1 (by simp [hrole])).1
  · obtain ⟨child', kept', hstands'⟩ := h.exists_child htree
      (show canonical ∈ outcome.entries by simp [hsplit, hcanonical])
    have hidentity := (Hardlink.groupOf_eq_some_iff.1 hsame).2
    rw [hstands'.identity_eq] at hidentity
    rw [hstands.kind_eq, hstands'.kind_eq, htree.stat_eq hstands'.captures.isChild.hasObject
      hstands.captures.isChild.hasObject (Option.some.inj hidentity)]

/-- The outcome of a walk is a listing that can be restored. -/
theorem isPlan_of_yields : IsPlan outcome.entries := by
  intro front entry back hsplit
  have hentry : entry ∈ outcome.entries := by simp [hsplit]
  obtain ⟨-, number, object, -, -, -, hdescribes⟩ :=
    exists_describes hsuper hplain hnext htree hsymlink h hentry
  have hnodup := h.nodup_map_path htree
  rw [hsplit, List.map_append, List.map_cons] at hnodup
  exact {
    exists_names := exists_above htree h hsplit
    path_ne := fun other hother => (List.nodup_append.1 hnodup).2.2 _
      (List.mem_map_of_mem hother) _ List.mem_cons_self
    exists_canonical := fun hrole => (exists_canonical htree h hsplit hrole).2
    kind_ne := fun hrole => (exists_canonical htree h hsplit hrole).1
    flags_eq := hdescribes.flags_eq
    attributes_eq := hdescribes.attributes_eq_none }

omit hsuper hplain hnext hsymlink in
/-- A walk gives paths without anything redundant. -/
theorem isProper_of_yields (hentry : entry ∈ outcome.entries) : Path.IsProper entry.path := by
  obtain ⟨names, name, -, hnames, hpath, -⟩ := h.exists_names htree hentry
  rw [hpath]
  exact Path.isProper_ofNames hnames (List.concat_ne_nil _ _)

omit hsuper hplain hnext hsymlink in
/-- All directories on the way to an entry have entries. -/
theorem exists_of_prefix (hentry : entry ∈ outcome.entries) {names : List Bytes}
    (hfront : names <+: Path.components entry.path) (hne : names ≠ []) :
    ∃ above ∈ outcome.entries, above.path = Path.ofNames names := by
  obtain ⟨others, name, -, hnames, hpath, hlisted, -⟩ := h.exists_names htree hentry
  rw [hpath, Path.components_ofNames hnames] at hfront
  rcases List.prefix_concat_iff.1 hfront with rfl | hfront
  · exact ⟨entry, hentry, hpath⟩
  · obtain ⟨⟨above, habove, habovePath, -⟩, -⟩ := hlisted names hfront hne
    exact ⟨above, habove, habovePath⟩

omit hsuper hplain hnext hsymlink in
/-- A walk knows the identity of every object. -/
theorem identity_ne_none_of_yields (hentry : entry ∈ outcome.entries) : entry.identity ≠ none := by
  obtain ⟨child, kept, hstands⟩ := h.exists_child htree hentry
  simp [hstands.identity_eq]

omit hsuper hsymlink in
/-- An entry and the one that stands for its object describe one object. -/
theorem find_eq_of_canonicalPath {canonical : Entry} (hentry : entry ∈ outcome.entries)
    (hcanonical : canonical ∈ outcome.entries) (hrole : canonical.role ≠ .linkTo)
    (hpath : canonical.path = entry.canonicalPath) :
    caller.find volume false (Path.join root canonical.path) =
      caller.find volume false (Path.join root entry.path) := by
  by_cases hlinkTo : entry.role = .linkTo
  · obtain ⟨child, kept, hstands⟩ := h.exists_child htree hentry
    obtain ⟨child', kept', hstands'⟩ := h.exists_child htree hcanonical
    have hgroup : Hardlink.groupOf entry = some child.stat.identity :=
      Hardlink.groupOf_eq_some_iff.2 ⟨by simp [hlinkTo], hstands.identity_eq⟩
    have hsame := (h.consistent.canonicalPath_eq_iff (h.nodup_map_path htree)
      (fun _ => identity_ne_none_of_yields htree h) hentry hcanonical hgroup).1
      ((Entry.canonicalPath_of_role_ne hrole).trans hpath)
    have hidentity := (Hardlink.groupOf_eq_some_iff.1 hsame).2
    rw [hstands'.identity_eq] at hidentity
    have hobject := hstands.captures.isChild.hasObject
    have hobject' := hstands'.captures.isChild.hasObject
    rw [hstands.captures.isChild.location_eq htree, ← hstands.captures.path_eq, ← hstands.path_eq]
      at hobject
    rw [hstands'.captures.isChild.location_eq htree, ← hstands'.captures.path_eq,
      ← hstands'.path_eq] at hobject'
    obtain ⟨number, object, hfind, hfind', -⟩ :=
      Caller.exists_find_of_hasObject hplain hnext hobject' hobject (Option.some.inj hidentity)
    exact hfind.trans hfind'.symm
  · rw [hpath, Entry.canonicalPath_of_role_ne hlinkTo]

/-- What was captured in a walk can be applied to the objects that are made. -/
theorem isApplicable_of_yields (howners : ∀ {number object},
      volume.object? number = some object →
        object.uid ≠ Caller.keepId ∧ object.gid ≠ Caller.keepId)
    (hentry : entry ∈ outcome.entries) : IsApplicable caller entry := by
  obtain ⟨-, number, object, -, hfind, -, hdescribes⟩ :=
    exists_describes hsuper hplain hnext htree hsymlink h hentry
  have hobject := (Caller.find_eq_ok_iff.1 hfind).2
  exact hdescribes.isApplicable (hplain.object hobject) (howners hobject).1 (howners hobject).2

end Yields

end Restore

end TreeManifest
