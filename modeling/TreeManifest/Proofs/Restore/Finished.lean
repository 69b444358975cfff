import TreeManifest.Proofs.Restore.Applied
import TreeManifest.Proofs.Restore.Created

/-!
# Finishing the objects of a listing

The objects of a listing are finished from its end. A further name has no attributes and stands
behind the entry for its object, so that entry is the last to be applied, and all that finishing
does to other objects leaves its metadata in place.

## Main definitions

- `Restore.Finished`: the volume after the last entries of a listing were applied.

## Main statements

- `Restore.Finished.step`: one more entry.
- `Restore.finished_finishAll`: all entries of a listing.
-/

namespace TreeManifest

namespace Volume.SameBodies

variable {first second : Volume} {number : Nat} {object : VolumeObject}

theorem exists_object (h : first.SameBodies second) (hobject : first.object? number = some object) :
    ∃ other, second.object? number = some other ∧ other.body = object.body := by
  have hbody := h number
  rw [hobject] at hbody
  exact Option.map_eq_some_iff.1 hbody.symm

end Volume.SameBodies

namespace Restore

/-- The volume after the last entries of a listing were applied, and those in front were not. -/
structure Finished (caller : Caller) (target : Path) (top : Nat) (made : Volume)
    (front done : List Entry) (volume : Volume) : Prop where
  isPlain : volume.IsPlain
  next_eq : volume.next = made.next
  times_eq : volume.times = made.times
  sameBodies : made.SameBodies volume
  linkCount_eq : ∀ number,
    (volume.object? number).map (·.linkCount) = (made.object? number).map (·.linkCount)
  pending : ∀ entry ∈ front, entry.role ≠ .linkTo → ∀ {number object},
    made.numberOf? top entry.path = some number → volume.object? number = some object →
    object.attributes = .empty
  carried : ∀ entry ∈ done, entry.role ≠ .linkTo → ∀ {number object},
    made.numberOf? top entry.path = some number → volume.object? number = some object →
    Carries entry object
  exists_find : ∀ entry ∈ done, Bytes.nul ∉ entry.fullPath target ∧ ∃ number object,
    caller.find volume false (entry.fullPath target) = .ok (number, object)

variable {caller : Caller} {target : Path} {top : Nat} {content : Entry → Bytes}
  {front back done entries : List Entry} {entry : Entry} {made volume after : Volume} {number : Nat}
  {object old : VolumeObject}

theorem IsPlan.path_ne (h : IsPlan entries) (hsplit : entries = front ++ back)
    {first second : Entry} (hfirst : first ∈ front) (hsecond : second ∈ back) :
    first.path ≠ second.path := by
  obtain ⟨before, behind, rfl⟩ := List.append_of_mem hsecond
  rw [← List.append_assoc] at hsplit
  exact (h _ _ _ hsplit).path_ne first (List.mem_append_left _ hfirst)

/-- The entry that stands for the object of an entry is not behind it. -/
theorem IsPlan.exists_canonical (h : IsPlan entries) (hsplit : entries = front ++ entry :: back) :
    ∃ canonical ∈ front ++ [entry], canonical.role ≠ .linkTo ∧
      canonical.path = entry.canonicalPath := by
  by_cases hrole : entry.role = .linkTo
  · obtain ⟨canonical, hcanonical, hcanonicalRole, -, hlink⟩ :=
      (h _ _ _ hsplit).exists_canonical hrole
    exact ⟨canonical, List.mem_append_left _ hcanonical, hcanonicalRole,
      (Entry.canonicalPath_of_link hrole hlink).symm⟩
  · exact ⟨entry, by simp, hrole, (Entry.canonicalPath_of_role_ne hrole).symm⟩

section Step

variable (hsuper : caller.isSuperuser = true)
  (hcreated : Created caller target top content entries made)

include hsuper hcreated

/-- The object that a caller finds at the path of an entry. -/
theorem Finished.numberOf?_of_find (h : Finished caller target top made front done volume)
    (hentry : entry ∈ entries)
    (hfind : caller.find volume false (entry.fullPath target) = .ok (number, object)) :
    made.numberOf? top entry.path = some number ∧ object.kind = entry.kind := by
  obtain ⟨hresolve, hobject⟩ := Caller.find_eq_ok_iff.1 hfind
  have hproper := hcreated.isProper entry hentry
  rw [fullPath_eq hproper] at hresolve
  obtain ⟨found, old, hfound, hold, -⟩ := hcreated.exists_object entry hentry
  obtain rfl := hcreated.eq_of_resolve hentry hfound
    (Caller.resolve_sameBodies hsuper h.sameBodies.symm hresolve)
  obtain ⟨other, hother, hbody⟩ := h.sameBodies.exists_object hold
  obtain rfl := Option.some.inj (hobject.symm.trans hother)
  refine ⟨hfound, ?_⟩
  rw [VolumeObject.kind, hbody]
  exact hcreated.kind_eq hentry hfound hold

omit hsuper in
/-- Two canonical entries for one object would have one path. -/
theorem path_eq_canonicalPath {other : Entry} (hother : other ∈ entries) (hentry : entry ∈ entries)
    (hrole : other.role ≠ .linkTo) (hnumber : made.numberOf? top other.path = some number)
    (hnumber' : made.numberOf? top entry.path = some number) :
    other.path = entry.canonicalPath := by
  rw [← (hcreated.number_eq_iff other hother entry hentry).1 (hnumber.trans hnumber'.symm),
    Entry.canonicalPath_of_role_ne hrole]

section Entry

variable (hplan : IsPlan entries) (hsplit : entries = front ++ entry :: done.reverse)
  (h : Finished caller target top made (front ++ [entry]) done volume)
  (hfind : caller.find volume false (entry.fullPath target) = .ok (number, old))

include hplan hsplit h hfind

/-- The next object is of the kind of its entry and has no attributes yet. -/
theorem Finished.attributes_eq_empty : old.kind = entry.kind ∧ old.attributes = .empty := by
  have hentry : entry ∈ entries := by simp [hsplit]
  obtain ⟨hnumber, hkind⟩ := h.numberOf?_of_find hsuper hcreated hentry hfind
  obtain ⟨canonical, hcanonical, hrole, hpath⟩ := hplan.exists_canonical hsplit
  have hmem : canonical ∈ entries := by
    rw [hsplit, List.append_cons]
    exact List.mem_append_left _ hcanonical
  have hsame : made.numberOf? top canonical.path = some number := by
    rw [← hnumber]
    refine (hcreated.number_eq_iff canonical hmem entry hentry).2 ?_
    rw [Entry.canonicalPath_of_role_ne hrole, hpath]
  exact ⟨hkind, h.pending canonical hcanonical hrole hsame (Caller.find_eq_ok_iff.1 hfind).2⟩

variable (hwrites : volume.Writes number object after)

include hwrites

/-- The objects of the entries behind keep their metadata. -/
theorem Finished.carried_after {other : Entry} (hother : other ∈ done)
    (hrole : other.role ≠ .linkTo) {found : Nat} {now : VolumeObject}
    (hfound : made.numberOf? top other.path = some found)
    (hnow : after.object? found = some now) : Carries other now := by
  have hentry : entry ∈ entries := by simp [hsplit]
  rw [hwrites.object?_eq] at hnow
  split at hnow
  · next hsame =>
    -- The canonical entry of the object would be behind a further name.
    subst hsame
    have hpath := path_eq_canonicalPath hcreated (by simp [hsplit, hother]) hentry hrole hfound
      (h.numberOf?_of_find hsuper hcreated hentry hfind).1
    obtain ⟨canonical, hcanonical, -, hcanonicalPath⟩ := hplan.exists_canonical hsplit
    have hsplit' : entries = (front ++ [entry]) ++ done.reverse := by rw [hsplit, List.append_cons]
    exact absurd (hcanonicalPath.trans hpath.symm)
      (hplan.path_ne hsplit' hcanonical (List.mem_reverse.2 hother))
  · exact h.carried other hother hrole hfound hnow

variable (hcarries : Carries entry object)

include hcarries

/-- The objects of the entries in front have no attributes yet. -/
theorem Finished.pending_after {other : Entry} (hother : other ∈ front)
    (hrole : other.role ≠ .linkTo) {found : Nat} {now : VolumeObject}
    (hfound : made.numberOf? top other.path = some found)
    (hnow : after.object? found = some now) : now.attributes = .empty := by
  have hentry : entry ∈ entries := by simp [hsplit]
  rw [hwrites.object?_eq] at hnow
  split at hnow
  · next hsame =>
    subst hsame
    obtain rfl := Option.some.inj hnow
    have hpath := path_eq_canonicalPath hcreated (by simp [hsplit, hother]) hentry hrole hfound
      (h.numberOf?_of_find hsuper hcreated hentry hfind).1
    -- The entry is a further name, which has no attributes.
    have hlinkTo : entry.role = .linkTo := by
      by_contra hentryRole
      rw [Entry.canonicalPath_of_role_ne hentryRole] at hpath
      exact (hplan _ _ _ hsplit).path_ne other hother hpath
    rw [hcarries.attributes_eq, (hplan _ _ _ hsplit).attributes_eq hlinkTo]
    rfl
  · exact h.pending other (List.mem_append_left _ hother) hrole hfound hnow

end Entry

/-- One more entry is applied. -/
theorem Finished.step (hplan : IsPlan entries) (hsplit : entries = front ++ entry :: done.reverse)
    (h : Finished caller target top made (front ++ [entry]) done volume)
    (happlicable : IsApplicable caller entry) {options : RestoreOptions}
    (howner : options.owner = true) (restorer : FlagRestorer)
    (hvalue : ((finish caller.system target entry (NativeAttributes.provider .privileged
      caller.system) restorer options).run volume).value.isOk = true) :
    Finished caller target top made front (done ++ [entry])
      ((finish caller.system target entry (NativeAttributes.provider .privileged caller.system)
        restorer options).run volume).state := by
  have hentry : entry ∈ entries := by simp [hsplit]
  obtain ⟨number, old, object, hnul, hfind, hwrites, hbody, hlinks, hobjectPlain, hcarries⟩ :=
    exists_carries_of_finish hsuper h.isPlain happlicable howner restorer
      (h.attributes_eq_empty hsuper hcreated hplan hsplit) hvalue
  have hold := (Caller.find_eq_ok_iff.1 hfind).2
  have hbodies := hwrites.sameBodies hold hbody
  exact {
    isPlain := hwrites.isPlain h.isPlain hold hobjectPlain
    next_eq := hwrites.next_eq.trans h.next_eq
    times_eq := hwrites.times_eq.trans h.times_eq
    sameBodies := h.sameBodies.trans hbodies
    linkCount_eq := fun other => by
      rw [← h.linkCount_eq, hwrites.object?_eq]
      split
      · next hother => rw [← hother, hold, Option.map_some, Option.map_some, hlinks]
      · rfl
    pending := fun other hother hrole _ _ =>
      h.pending_after hsuper hcreated hplan hsplit hfind hwrites hcarries hother hrole
    carried := fun other hother hrole found now hfound hnow => by
      rcases List.mem_append.1 hother with hother | hother
      · exact h.carried_after hsuper hcreated hplan hsplit hfind hwrites hother hrole hfound hnow
      · obtain rfl := List.mem_singleton.1 hother
        obtain rfl := Option.some.inj
          (hfound.symm.trans (h.numberOf?_of_find hsuper hcreated hentry hfind).1)
        rw [hwrites.object?_eq, if_pos rfl] at hnow
        exact Option.some.inj hnow ▸ hcarries
    exists_find := fun other hother => by
      rcases List.mem_append.1 hother with hother | hother
      · obtain ⟨hotherNul, found, held, hfound⟩ := h.exists_find other hother
        obtain ⟨hresolve, hheld⟩ := Caller.find_eq_ok_iff.1 hfound
        obtain ⟨now, hnow, -⟩ := hbodies.exists_object hheld
        exact ⟨hotherNul, found, now, Caller.find_eq_ok_iff.2
          ⟨Caller.resolve_sameBodies hsuper hbodies hresolve, hnow⟩⟩
      · obtain rfl := List.mem_singleton.1 hother
        exact ⟨hnul, number, object, hwrites.find hsuper hfind hbody⟩ }

/-- All entries of a listing are applied. -/
theorem finished_finishAll (hplan : IsPlan entries)
    (happlicable : ∀ entry ∈ entries, IsApplicable caller entry) {options : RestoreOptions}
    (howner : options.owner = true) (restorer : FlagRestorer)
    (hvalues : ∀ finished ∈ ((finishAll caller.system target (NativeAttributes.provider .privileged
      caller.system) restorer options entries).run made).value, finished.2.isOk = true) :
    Finished caller target top made [] entries
      ((finishAll caller.system target (NativeAttributes.provider .privileged caller.system)
        restorer options entries).run made).state := by
  have hstart : Finished caller target top made entries [] made :=
    { isPlain := hcreated.isPlain
      next_eq := rfl
      times_eq := rfl
      sameBodies := fun _ => rfl
      linkCount_eq := fun _ => rfl
      pending := fun entry hentry hrole _ _ hnumber hobject =>
        (hcreated.made entry hentry hrole hnumber hobject).2.1
      carried := fun _ h => absurd h List.not_mem_nil
      exists_find := fun _ h => absurd h List.not_mem_nil }
  have hall := @Task.ensures_mapM _ _ _
    (fun done state => ∀ front, entries = front ++ done.reverse →
      Finished caller target top made front done state) _
    (fun finished : Entry × Except MetadataError FinishReport => finished.2.isOk = true)
    entries.reverse (fun done entry back hsplit state hstate hgood front hfront => ?_)
    made (fun front hfront => ?_) hvalues [] (List.reverse_reverse entries).symm
  · exact ⟨hall.isPlain, hall.next_eq, hall.times_eq, hall.sameBodies, hall.linkCount_eq,
      hall.pending, fun entry hentry => hall.carried entry (List.mem_reverse.2 hentry),
      fun entry hentry => hall.exists_find entry (List.mem_reverse.2 hentry)⟩
  · have hfront' : entries = front ++ entry :: done.reverse := by simpa using hfront
    rw [Task.run_bind, Task.run_pure] at hgood ⊢
    exact (hstate (front ++ [entry]) (by simp [hfront'])).step hsuper hcreated hplan hfront'
      (happlicable entry (by simp [hfront'])) howner restorer hgood
  · rw [List.reverse_nil, List.append_nil] at hfront
    exact hfront ▸ hstart

end Step

end Restore

end TreeManifest
