import TreeManifest.Proofs.Restore.Planned

/-!
# What is captured of restored objects

A restored object consists of the same as the object that its entry describes and has the same
metadata. So what is captured of it differs in the number of the object only.

## Main definitions

- `VolumeBody.Alike`: two objects consist of the same, whatever names a directory holds.
- `Restore.Restored`: the volume after the listing of a walk was restored.

## Main statements

- `Caller.entryOf_eq`: what is captured of objects that consist of the same.
- `Restore.Restored.exists_object`: what is captured of a restored object.
- `Restore.Restored.isTidy`: the restored objects make a tree.
-/

namespace TreeManifest

/-- Two objects consist of the same, whatever names directories hold. The numbers of a device are
the same, though the words that pack them need not be. -/
inductive VolumeBody.Alike : VolumeBody → VolumeBody → Prop where
  | file (content : Bytes) : Alike (.file content) (.file content)
  | directory (names names' : List (Bytes × Nat)) (parent parent' : Nat) :
      Alike (.directory names parent) (.directory names' parent')
  | symlink (target : Bytes) : Alike (.symlink target) (.symlink target)
  | special {kind : FileKind} {rawDevice rawDevice' : UInt64} (hkind : kind.isSpecial = true)
      (hdevice : kind.isDevice = true → Device.ofRaw rawDevice = Device.ofRaw rawDevice') :
      Alike (.special kind rawDevice) (.special kind rawDevice')

variable {caller : Caller} {volume after : Volume} {number other : Nat}
  {object source : VolumeObject} {entry : Entry} {content : Bytes} {path : Path}

theorem VolumeBody.Alike.kind_eq (h : object.body.Alike source.body) :
    object.kind = source.kind := by
  obtain ⟨body⟩ := object
  obtain ⟨body'⟩ := source
  cases h <;> rfl

theorem VolumeBody.Alike.target?_eq (h : object.body.Alike source.body) :
    object.target? = source.target? := by
  obtain ⟨body⟩ := object
  obtain ⟨body'⟩ := source
  cases h <;> rfl

namespace Caller

/-- Objects of the same content have the same size. -/
theorem size_statOf_eq (h : object.body.Alike source.body) :
    (after.statOf number object).size = (volume.statOf other source).size := by
  obtain ⟨body⟩ := object
  obtain ⟨body'⟩ := source
  cases h <;> rfl

/-- Restored device nodes have the device of their source. -/
theorem device_statOf_eq (h : object.body.Alike source.body)
    (hdevice : source.kind.isDevice = true) :
    Device.ofRaw (after.statOf number object).rawDevice =
      Device.ofRaw (volume.statOf other source).rawDevice := by
  obtain ⟨body⟩ := object
  obtain ⟨body'⟩ := source
  cases h with
  | file | directory | symlink => cases hdevice
  | special _ hsame => exact hsame hdevice

/-- Entries made from metadata agree if the parts that are recorded agree. -/
theorem ofStat_congr {first second : Stat} (hmode : first.mode = second.mode)
    (hsize : first.size = second.size) (hmodTime : first.modTime = second.modTime)
    (howner : first.owner = second.owner)
    (hdevice : second.kind.isDevice = true →
      Device.ofRaw first.rawDevice = Device.ofRaw second.rawDevice) (path : Path) :
    Entry.ofStat path first =
      { Entry.ofStat path second with identity := some first.identity } := by
  have hkind : first.kind = second.kind := congrArg FileKind.ofMode hmode
  unfold Entry.ofStat
  rw [hkind, hmode, hsize, hmodTime, howner]
  by_cases hspecial : second.kind.isDevice = true
  · rw [hdevice hspecial]
  · simp only [if_neg hspecial]

/-- What is captured of two objects that consist of the same and have the same metadata differs in
the numbers of the objects only. The time of the first one may be cut already. -/
theorem entryOf_eq (htimes : after.times = volume.times) (hsource : source.IsPlain)
    (halike : object.body.Alike source.body)
    (hpermissions : object.permissions = source.permissions) (huid : object.uid = source.uid)
    (hgid : object.gid = source.gid) (hmodTime : object.modTime = volume.times.clamp source.modTime)
    (hattributes : object.attributes = (caller.capturedAttributes source).getD .empty) :
    caller.entryOf after path number object =
      { caller.entryOf volume path other source with
        identity := some ⟨Volume.deviceNumber, .ofNat number⟩ } := by
  have hkind := halike.kind_eq
  have hmode : (after.statOf number object).mode = (volume.statOf other source).mode :=
    congrArg₂ (fun kind permissions => FileKind.typeBits kind ||| permissions) hkind hpermissions
  have howner : (after.statOf number object).owner = (volume.statOf other source).owner :=
    congrArg₂ (fun uid gid : UInt32 => (uid.toUInt64.toInt64, gid.toUInt64.toInt64)) huid hgid
  have htime : after.times.clamp object.modTime = volume.times.clamp source.modTime := by
    rw [htimes, hmodTime, TimeRange.clamp_clamp]
  have hstat := ofStat_congr hmode (size_statOf_eq halike) htime howner (fun hdevice =>
    device_statOf_eq halike (kind_statOf hsource ▸ hdevice)) path
  rw [entryOf, entryOf, hstat, halike.target?_eq, capturedAttributes_eq hkind hattributes]
  rfl

end Caller

namespace Restore

/-- What an entry says of an object fits objects that consist of the same. -/
theorem Fits.alike {body : VolumeBody} (h : Fits entry content body) (hsource : source.IsPlain)
    (hdescribes : Describes caller volume number source entry) (hrole : entry.role ≠ .linkTo)
    (hcontent : ∀ bytes, source.body = .file bytes → content = bytes) : body.Alike source.body := by
  have hkind := hdescribes.kind_eq hsource
  have hlink := hdescribes.link_eq hrole
  have hdevice : source.kind.isDevice = true → _ := hdescribes.device?_eq hsource
  rw [VolumeObject.target?] at hlink
  rw [VolumeObject.kind] at hkind hdevice
  cases hbody : source.body with
  | file bytes =>
    rw [hbody] at hkind
    cases h with
    | file => rw [hcontent bytes hbody]; exact .file bytes
    | directory hother | symlink hother | special hother =>
      rw [hkind] at hother
      cases hother
  | directory names parent =>
    rw [hbody] at hkind
    cases h with
    | directory => exact .directory ..
    | file hother | symlink hother | special hother =>
      rw [hkind] at hother
      cases hother
  | symlink target =>
    rw [hbody] at hkind hlink
    cases h with
    | symlink _ hother =>
      rw [Option.some.inj (hother.symm.trans hlink)]
      exact .symlink target
    | file hother | directory hother | special hother =>
      rw [hkind] at hother
      cases hother
  | special kind rawDevice =>
    have hspecial := hsource.isSpecial kind rawDevice hbody
    rw [hbody] at hkind hdevice
    dsimp only at hkind hdevice
    subst hkind
    cases h with
    | special =>
      refine .special hspecial fun hisDevice => ?_
      rw [if_pos hisDevice, hdevice hisDevice, Option.getD_some, Device.ofRaw_toRaw,
        Volume.statOf, hbody]
    | file hother | directory hother | symlink hother =>
      rw [hother] at hspecial
      cases hspecial

/-- The volume after a listing was restored in an empty directory. -/
def Restored (caller : Caller) (target : Path) (top : Nat) (content : Entry → Bytes)
    (entries : List Entry) (volume : Volume) : Prop :=
  ∃ made, Created caller target top content entries made ∧
    Finished caller target top made [] entries volume

end Restore

/-- The superuser reads the content of every file. -/
theorem Caller.contentOf_of_find {volume : Volume} (hsuper : caller.isSuperuser = true)
    (hfind : caller.find volume false path = .ok (number, object))
    (hbody : object.body = .file content) : caller.contentOf volume path = .ok content := by
  obtain ⟨hresolve, hobject⟩ := Caller.find_eq_ok_iff.1 hfind
  have htarget : (volume.object? number).bind (·.target?) = none := by
    rw [hobject, Option.bind_some, VolumeObject.target?, hbody]
  have hmay : caller.may .read object = true := by simp [Caller.may, hsuper]
  simp only [Caller.contentOf, find_eq_ok_iff.2 ⟨resolve_true hresolve htarget, hobject⟩, bind,
    Except.bind, hbody, hmay, if_true]
  rfl

namespace Restore.Restored

variable {target root : Path} {top : Nat} {contents : Entry → Bytes} {entries : List Entry}

section Tree

variable (h : Restored caller target top contents entries after)

include h

theorem isPlain : after.IsPlain := by
  obtain ⟨made, -, hfinished⟩ := h
  exact hfinished.isPlain

/-- The target of a restore is an open root. -/
theorem opens (hsuper : caller.isSuperuser = true) : caller.Opens after target top := by
  obtain ⟨made, hcreated, hfinished⟩ := h
  exact hcreated.opens.sameBodies hsuper hfinished.sameBodies

theorem isProper (hentry : entry ∈ entries) : Path.IsProper entry.path := by
  obtain ⟨made, hcreated, -⟩ := h
  exact hcreated.isProper entry hentry

/-- Below the target there is nothing but what the entries name. -/
theorem only {names : List Bytes} (hdescend : after.descend top names = some number) :
    names = [] ∨ ∃ entry ∈ entries, names = Path.components entry.path := by
  obtain ⟨made, hcreated, hfinished⟩ := h
  rw [hfinished.sameBodies.symm.descend_eq] at hdescend
  exact hcreated.only hdescend

/-- Restored paths lead to one object exactly if they belong to one canonical entry. -/
theorem number_eq_iff {first second : Entry} (hfirst : first ∈ entries)
    (hsecond : second ∈ entries) :
    after.numberOf? top first.path = after.numberOf? top second.path ↔
      first.canonicalPath = second.canonicalPath := by
  obtain ⟨made, hcreated, hfinished⟩ := h
  simp only [Volume.numberOf?, hfinished.sameBodies.symm.descend_eq]
  exact hcreated.number_eq_iff first hfirst second hsecond

/-- All restored objects can be inspected. -/
theorem exists_lstat (hentry : entry ∈ entries) : ∃ stat,
    (caller.snapshot after).lstat (Path.join target entry.path) = .ok stat := by
  have hproper := h.isProper hentry
  obtain ⟨made, -, hfinished⟩ := h
  obtain ⟨hnul, number, object, hfind⟩ := hfinished.exists_find entry hentry
  rw [fullPath_eq hproper] at hnul hfind
  exact ⟨_, Caller.lstat_of_find hnul hfind⟩

/-- The restored objects make a tree. -/
theorem isTidy : after.IsTidy top where
  isName {names number name child} hdescend hmem := by
    obtain ⟨found, hfound⟩ := Caller.exists_child?_of_mem hmem
    rcases h.only (Volume.descend_concat_eq_some_iff.2 ⟨number, hdescend, hfound⟩) with
      hnil | ⟨entry, hentry, hnames⟩
    · exact absurd hnil (List.concat_ne_nil _ _)
    · exact (h.isProper hentry).isName name (hnames ▸ by simp)
  nodup {names number} hdescend := by
    obtain ⟨made, hcreated, hfinished⟩ := h
    rw [hfinished.sameBodies.symm.descend_eq] at hdescend
    rw [hfinished.sameBodies.symm.names_eq]
    exact hcreated.nodup hdescend
  finite := by
    refine (List.finite_toSet ([] :: entries.map fun entry => Path.components entry.path)).subset
      fun names hnames => ?_
    obtain ⟨number, hdescend⟩ := Option.isSome_iff_exists.1 hnames
    rcases h.only hdescend with rfl | ⟨entry, hentry, rfl⟩
    · exact List.mem_cons_self
    · exact List.mem_cons_of_mem _ (List.mem_map_of_mem hentry)

end Tree

/-! ## Objects -/

section Objects

variable {config : WalkConfig} {outcome : WalkOutcome}
  (hsuper : caller.isSuperuser = true) (hplain : volume.IsPlain) (hnext : volume.next ≤ 2 ^ 64)
  (htree : (caller.lister volume root).IsTree)
  (hsymlink : ∀ {location stat}, (caller.lister volume root).HasObject location stat →
    stat.kind = .symlink → stat.linkCount ≤ 1)
  (hyields : Walk.Yields (caller.lister volume root) config outcome)
  (hcontents : ∀ entry ∈ outcome.entries, entry.role ≠ .linkTo → entry.kind = .regular →
    caller.contentOf volume (entry.fullPath root) = .ok (contents entry))
  (h : Restored caller target top contents outcome.entries after)
  (htimes : after.times = volume.times)

include hsuper hplain hnext htree hsymlink hyields hcontents h htimes

/-- What is captured of a restored object is what was captured of the object that its entry
describes, and its names are those that were restored. -/
theorem exists_object (hentry : entry ∈ outcome.entries) :
    ∃ number source found object,
      caller.find volume false (Path.join root entry.path) = .ok (number, source) ∧
      after.numberOf? top entry.path = some found ∧ after.object? found = some object ∧
      object.kind = source.kind ∧
      caller.entryOf after entry.path found object =
        { caller.entryOf volume entry.path number source with
          identity := some ⟨Volume.deviceNumber, .ofNat found⟩ } ∧
      (source.kind ≠ .directory → object.linkCount = .ofNat
        (outcome.entries.countP fun other => other.canonicalPath = entry.canonicalPath)) := by
  obtain ⟨made, hcreated, hfinished⟩ := h
  obtain ⟨-, number, source, -, hfind, -⟩ :=
    exists_describes hsuper hplain hnext htree hsymlink hyields hentry
  -- The metadata and the content are those of the canonical entry.
  obtain ⟨canonical, hcanonical, hrole, hpath, -⟩ := hcreated.linked entry hentry
  obtain ⟨-, number', source', -, hcanonicalFind, -, hdescribes⟩ :=
    exists_describes hsuper hplain hnext htree hsymlink hyields hcanonical
  obtain ⟨rfl, rfl⟩ := Prod.mk.inj (Except.ok.inj (hfind.symm.trans
    ((find_eq_of_canonicalPath hplain hnext htree hyields hentry hcanonical hrole hpath).symm.trans
      hcanonicalFind)))
  have hsource := hplain.object (Caller.find_eq_ok_iff.1 hfind).2
  obtain ⟨found, old, hfound, hold, -⟩ := hcreated.exists_object canonical hcanonical
  obtain ⟨hfits, -, hcount⟩ := hcreated.made canonical hcanonical hrole hfound hold
  obtain ⟨object, hobject, hbody⟩ := hfinished.sameBodies.exists_object hold
  have hcarries := hfinished.carried canonical hcanonical hrole hfound hobject
  have halike : object.body.Alike source.body := by
    rw [hbody]
    refine hfits.alike hsource hdescribes hrole fun bytes hbytes => ?_
    have hkind : canonical.kind = .regular := by
      rw [hdescribes.kind_eq hsource, VolumeObject.kind, hbytes]
    have hcontent := hcontents canonical hcanonical hrole hkind
    rw [fullPath_eq (hcreated.isProper canonical hcanonical),
      Caller.contentOf_of_find hsuper hcanonicalFind hbytes] at hcontent
    exact (Except.ok.inj hcontent).symm
  refine ⟨number, source, found, object, hfind, ?_, hobject, halike.kind_eq, ?_, fun hfile => ?_⟩
  · rw [Volume.numberOf?, hfinished.sameBodies.symm.descend_eq, ← hfound]
    exact (hcreated.number_eq_iff entry hentry canonical hcanonical).2
      (hpath.symm.trans (Entry.canonicalPath_of_role_ne hrole).symm)
  · refine Caller.entryOf_eq htimes hsource halike
      (hcarries.permissions_eq.trans (hdescribes.permissions_eq hsource))
      (Ownership.eq_of_toInt64_eq (hcarries.uid_eq.trans hdescribes.uid_eq))
      (Ownership.eq_of_toInt64_eq (hcarries.gid_eq.trans hdescribes.gid_eq))
      (hcarries.modTime_eq.trans hdescribes.modTime_eq) ?_
    rw [hcarries.attributes_eq, hdescribes.attributes_eq hrole]
  · have hlinks := hfinished.linkCount_eq found
    rw [hobject, hold] at hlinks
    have hfile' : old.isDirectory = false := by
      rw [VolumeObject.isDirectory, VolumeObject.kind, ← hbody, ← VolumeObject.kind, halike.kind_eq]
      exact beq_eq_false_iff_ne.2 hfile
    refine (Option.some.inj hlinks).trans ((hcount hfile').trans ?_)
    rw [hpath]

end Objects

end Restore.Restored

end TreeManifest
