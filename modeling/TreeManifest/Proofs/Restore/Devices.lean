import TreeManifest.Proofs.Record.RoundTrip
import TreeManifest.Proofs.Restore.Making
import TreeManifest.Proofs.Volume.Walked

/-!
# Device nodes

The packed word of a device node is split into two numbers, which an entry stores in its payload
words. The node that is made from the stored entry gets the same packed word again.

## Main statements

- `Caller.makeNode_eq_ok_iff`: when a node is made, and what it is.
- `Caller.find_of_names`: a new object is found behind the path of its place.
- `Restore.rawDevice_createSpecial`: the packed word of a captured node is that of the new one.
-/

namespace TreeManifest

/-- The text of an entry keeps what its node consists of, whatever becomes of the other fields. -/
theorem Entry.exists_parse_render (entry : Entry) :
    ∃ stored, Entry.parse entry.render = .ok stored ∧ stored.mode = entry.mode ∧
      stored.startChunk = entry.startChunk ∧ stored.startOffset = entry.startOffset := by
  refine ⟨_, Entry.parse_render_eq entry, ?_⟩
  unfold Record.toEntry Entry.normalizeReserved Entry.putAttributes
  dsimp only
  split <;> exact ⟨rfl, rfl, rfl⟩

namespace Caller

variable {caller : Caller} {volume before after : Volume} {path : Path} {number : Nat}
  {object : VolumeObject}

/-! ## Making a node -/

/-- A node is made where the place is free and the directory admits new names. -/
theorem makeNode_eq_ok_iff {kind : FileKind} {permissions : UInt32} {device : Device} :
    caller.makeNode path kind permissions device before = .ok ((), after) ↔
      ∃ place, caller.freshPlace before path = .ok place ∧
        caller.checkNaming before place.directory = .ok () ∧
        (kind.isDevice = true → caller.isSuperuser = true) ∧
        after = linkName (before.add (caller.newObject before place.directory
          (.special kind (if kind.isDevice then device.toRaw else 0))
          (permissions &&& ~~~caller.withheld))).2 place.directory place.name before.next := by
  simp only [makeNode, makeObject, bind, Except.bind]
  cases hplace : caller.freshPlace before path with
  | error errno => simp
  | ok place =>
    cases hnaming : caller.checkNaming before place.directory with
    | error errno => simp [hnaming]
    | ok admitted =>
      by_cases hdevice : kind.isDevice = true ∧ (!caller.isSuperuser) = true
      · simp only [hnaming, if_pos hdevice]
        constructor
        · intro h
          cases h
        · rintro ⟨other, -, -, hsuper, -⟩
          simp [hsuper hdevice.1] at hdevice
      · simp only [hnaming, if_neg hdevice]
        have hsuper : kind.isDevice = true → caller.isSuperuser = true := by simpa using hdevice
        constructor
        · intro h
          cases h
          exact ⟨place, rfl, hnaming, hsuper, rfl⟩
        · rintro ⟨other, hother, -, -, rfl⟩
          obtain rfl := Except.ok.inj hother
          rfl

/-! ## Finding it -/

theorem asDirectory_of_place {place : Place} (h : caller.place volume path = .ok place) :
    place.asDirectory = decide (path.getLast? = some Bytes.slash) := by
  simp only [Caller.place, bind, Except.bind] at h
  split at h
  · cases h
  · split at h
    · cases h
    · split at h
      · cases h
      · split at h
        · cases h
        · split at h
          · cases h
          · cases h
            rfl

theorem getLast?_ne_of_freshPlace {place : Place}
    (h : caller.freshPlace volume path = .ok place) : path.getLast? ≠ some Bytes.slash := by
  obtain ⟨hplace, hnone⟩ := place_of_freshPlace h
  have hlast := asDirectory_of_place hplace
  simp only [freshPlace, hplace, hnone, bind, Except.bind, Option.isSome_none, Bool.false_eq_true,
    if_false] at h
  split at h
  · cases h
  · next hfile => simpa [hlast] using hfile

theorem follow_concat {followLast : Bool} {links here directory : Nat} {front : List Bytes}
    {name : Bytes} (hfront : caller.follow volume true links here front = .ok directory)
    (hlookup : caller.lookup volume directory name = .ok (some number))
    (htarget : (volume.object? number).bind (·.target?) = none) :
    caller.follow volume followLast links here (front ++ [name]) = .ok number := by
  fun_induction follow caller volume true links here front with
  | case1 links here =>
    obtain rfl := Except.ok.inj hfront
    rw [List.nil_append, follow]
    simp only [hlookup, htarget]
    rw [follow]
  | case2 | case3 | case6 => cases hfront
  | case4 links here other rest next hnext hnone ih =>
    rw [List.cons_append, follow]
    simp only [hnext, hnone]
    exact ih hfront
  | case5 links here other rest next hnext target hsome hlast => simp at hlast
  | case7 here other rest next hnext target hsome hlast links ih =>
    rw [List.cons_append, follow]
    simp only [hnext, hsome, List.isEmpty_eq_false_iff.2 (List.concat_ne_nil name rest),
      Bool.false_and, Bool.false_eq_true, if_false]
    rw [← List.append_assoc]
    exact ih hfront

/-- A new object that is no symlink is found behind the path of its place. -/
theorem find_of_names {place : Place} (hplace : caller.freshPlace before path = .ok place)
    (hnaming : caller.checkNaming before place.directory = .ok ())
    (hleaf : before.IsLeaf number object) (htarget : object.target? = none)
    (hnames : before.Names place.directory place.name number object after) :
    caller.find after false path = .ok (number, object) := by
  obtain ⟨hfound, hnone⟩ := place_of_freshPlace hplace
  have hleads := leads_of_place hfound
  obtain ⟨front, hcomponents, hfront⟩ := hleads.exists_front
  obtain ⟨above, names, parent, links, habove, hbody, hafter⟩ := hnames.exists_above
  have hmay : caller.may .search { above with
      body := .directory (names ++ [(place.name, number)]) parent
      modTime := before.now
      linkCount := links } = true := by
    have hsearch : caller.may .search above = true := by
      simp only [checkNaming, habove] at hnaming
      split at hnaming
      · cases hnaming
      · split at hnaming
        · next hmay => exact (Bool.and_eq_true _ _ ▸ hmay).2
        · cases hnaming
    rw [← hsearch]
    simp [may, VolumeObject.isDirectory, VolumeObject.kind, hbody]
  have hlookup : caller.lookup after place.directory place.name = .ok (some number) := by
    obtain ⟨above', names', parent', habove', hbody', hexisting⟩ := hleads.exists_directory
    cases habove.symm.trans habove'
    cases hbody.symm.trans hbody'
    rw [lookup_eq hafter rfl hmay, if_neg hleads.ne_dot, if_neg hleads.ne_dotDot,
      if_neg (Nat.not_lt.2 hleads.length_le), List.lookup_append, ← hexisting, hnone]
    simp
  have hobject : (after.object? number).bind (·.target?) = none := by
    rw [hnames.object, Option.bind_some, htarget]
  refine find_eq_ok_iff.2 ⟨resolve_eq_ok_iff.2 ⟨hleads.checkPath_eq, ?_⟩, hnames.object⟩
  rw [namesOf, if_neg (getLast?_ne_of_freshPlace hplace), List.append_nil, hcomponents]
  exact follow_concat (follow_names hnames hleaf habove hfront) hlookup hobject

end Caller

namespace Restore

variable {caller : Caller} {before : Volume} {location : Path} {entry : Entry}

/-- The node of an entry is made where the superuser may make one. -/
theorem createSpecial_eq_ok (hsuper : caller.isSuperuser = true) (hnul : Bytes.nul ∉ location)
    (hkind : entry.kind.isSpecial = true) {place : Caller.Place}
    (hplace : caller.freshPlace before location = .ok place)
    (hnaming : caller.checkNaming before place.directory = .ok ()) :
    ((createSpecial caller.system location entry).run before).value = .ok () := by
  obtain ⟨after, hmade⟩ : ∃ after, caller.makeNode location entry.kind entry.permissions
      (entry.device?.getD ⟨0, 0⟩) before = .ok ((), after) :=
    ⟨_, Caller.makeNode_eq_ok_iff.2 ⟨place, hplace, hnaming, fun _ => hsuper, rfl⟩⟩
  have hcall : caller.system.makeNode location entry.kind entry.permissions
      (entry.device?.getD ⟨0, 0⟩) before = (.ok (), after) := by
    show Caller.pathCall _ _ _ before = _
    rw [Caller.pathCall, if_neg hnul, Caller.call, hmade]
  simp only [createSpecial, hkind, Bool.not_true, Bool.false_eq_true, if_false, Task.run_bind,
    Task.run_perform, hcall, Task.run_pure]

/-- A new node consists of what the entry says. -/
theorem lstat_createSpecial (hfresh : before.IsFresh)
    (h : ((createSpecial caller.system location entry).run before).value = .ok ()) :
    ∃ found, (caller.system.view
        ((createSpecial caller.system location entry).run before).state).lstat location = .ok found ∧
      found.kind = entry.kind ∧
      found.rawDevice = if entry.kind.isDevice then (entry.device?.getD ⟨0, 0⟩).toRaw else 0 := by
  obtain ⟨hnul, -, hmade⟩ := makeNode_of_createSpecial h
  obtain ⟨place, hplace, hnaming, -, hafter⟩ := Caller.makeNode_eq_ok_iff.1 hmade
  have hleads := Caller.leads_of_place (Caller.place_of_freshPlace hplace).1
  have hnames := Caller.names_add hfresh hleads (caller.newObject before place.directory
    (.special entry.kind
      (if entry.kind.isDevice then (entry.device?.getD ⟨0, 0⟩).toRaw else 0))
    (entry.permissions &&& ~~~caller.withheld))
  have hfind := Caller.find_of_names hplace hnaming (hfresh.isLeaf rfl) rfl hnames
  rw [hafter]
  exact ⟨_, Caller.lstat_of_find hnul hfind, FileKind.ofMode_or entry.kind
    (FileKind.and_permissionMask_of_and entry.permissions_and_permissionMask _), rfl⟩

/-- The number of a device goes through the payload words of an entry and the text of the entry
without loss. Packing what was unpacked gives the packed word, and unpacking what was packed gives
the low halves of the payload words. So the node that is made from the stored entry of a captured
device has the kind and the packed word of that device, whatever else the entry says; and the
superuser can make it at every place that is free. -/
theorem rawDevice_createSpecial :
    (∀ raw : UInt64,
      let payload := (Device.ofRaw raw).toPayload
      (Device.ofPayload payload.1 payload.2).toRaw = raw) ∧
    (∀ chunk offset : Int64,
      let payload := (Device.ofRaw (Device.ofPayload chunk offset).toRaw).toPayload
      payload.1.toInt = chunk.toInt % 2 ^ 32 ∧ payload.2.toInt = offset.toInt % 2 ^ 32) ∧
    ∀ (path : Path) (stat : Stat) (attributes : Option AttributeMap) (flags : Option UInt32)
      (link : Option Bytes) (role : HardlinkRole), stat.kind.isDevice = true →
      let captured : Entry := { Entry.ofStat path stat with attributes, flags, link, role }
      ∃ stored, Entry.parse captured.render = .ok stored ∧
        ∀ (caller : Caller) (before : Volume) (location : Path), before.IsFresh →
          let run := (createSpecial caller.system location stored).run before
          (caller.isSuperuser = true → Bytes.nul ∉ location →
            ∀ place, caller.freshPlace before location = .ok place →
              caller.checkNaming before place.directory = .ok () → run.value = .ok ()) ∧
          (run.value = .ok () → ∃ found, (caller.system.view run.state).lstat location = .ok found ∧
            found.kind = stat.kind ∧ found.rawDevice = stat.rawDevice) := by
  refine ⟨fun raw => ?_, fun chunk offset => ?_, ?_⟩
  · dsimp only
    rw [Device.ofPayload_toPayload, Device.toRaw_ofRaw]
  · dsimp only
    rw [Device.ofRaw_toRaw]
    exact ⟨Ownership.toInt_lowHalf chunk, Ownership.toInt_lowHalf offset⟩
  · intro path stat attributes flags link role hdevice captured
    obtain ⟨stored, hparse, hmode, hchunk, hoffset⟩ := captured.exists_parse_render
    have hkind : stored.kind = stat.kind := congrArg FileKind.ofMode hmode
    have hnumber : stored.device? = some (Device.ofRaw stat.rawDevice) := by
      have hpayload : (captured.startChunk, captured.startOffset) =
          (Device.ofRaw stat.rawDevice).toPayload := if_pos hdevice
      rw [Entry.device?, hkind, if_pos hdevice, hchunk, hoffset,
        ← Device.ofPayload_toPayload (Device.ofRaw stat.rawDevice), ← hpayload]
    refine ⟨stored, hparse, fun caller before location hfresh => ⟨?_, fun hmade => ?_⟩⟩
    · intro hsuper hnul place hplace hnaming
      refine createSpecial_eq_ok hsuper hnul ?_ hplace hnaming
      rw [hkind]
      revert hdevice
      cases stat.kind <;> decide
    · obtain ⟨found, hlstat, hfound, hraw⟩ := lstat_createSpecial hfresh hmade
      refine ⟨found, hlstat, hfound.trans hkind, ?_⟩
      rw [hraw, hkind, if_pos hdevice, hnumber, Option.getD_some, Device.toRaw_ofRaw]

/-- A character device with all bits of its packed word set, which is made again in an empty
volume. -/
theorem rawDevice_createSpecial_all_bits :
    let stat : Stat := ⟨0o20620, 0, -1, 0, 5, 1, 0xFFFFFFFFFFFFFFFF, ⟨1, 2⟩⟩
    let before := Volume.empty 0 none
    stat.kind.isDevice = true ∧ before.IsFresh ∧
      ∃ stored, Entry.parse (Entry.ofStat [0x74, 0x74, 0x79] stat).render = .ok stored ∧
        let run := (createSpecial ({} : Caller).system [0x6e, 0x6f, 0x64, 0x65] stored).run before
        run.value = .ok () ∧ ∃ found,
          (({} : Caller).system.view run.state).lstat [0x6e, 0x6f, 0x64, 0x65] = .ok found ∧
            found.kind = stat.kind ∧ found.rawDevice = 0xFFFFFFFFFFFFFFFF := by
  intro stat before
  have hdevice : stat.kind.isDevice = true := by decide
  have hfresh : before.IsFresh := Volume.isFresh_empty 0 none
  have hplace : ({} : Caller).freshPlace before [0x6e, 0x6f, 0x64, 0x65] =
      .ok ⟨Volume.top, [0x6e, 0x6f, 0x64, 0x65], false, none⟩ := by
    have hcomponents : Path.components [0x6e, 0x6f, 0x64, 0x65] = [[0x6e, 0x6f, 0x64, 0x65]] := rfl
    have hfollow : ({} : Caller).follow before true Caller.linkLimit
        (Caller.beginning [0x6e, 0x6f, 0x64, 0x65] Volume.top) [] = .ok Volume.top := by
      rw [Caller.follow]
      rfl
    simp only [Caller.freshPlace, Caller.place, hcomponents, List.getLast?_singleton,
      List.dropLast_singleton, hfollow]
    rfl
  obtain ⟨stored, hparse, hnode⟩ :=
    rawDevice_createSpecial.2.2 [0x74, 0x74, 0x79] stat none none none .none hdevice
  obtain ⟨hmade, hfound⟩ := hnode {} before [0x6e, 0x6f, 0x64, 0x65] hfresh
  have hvalue := hmade rfl (by decide) _ hplace rfl
  exact ⟨hdevice, hfresh, stored, hparse, hvalue, hfound hvalue⟩

end Restore

end TreeManifest
