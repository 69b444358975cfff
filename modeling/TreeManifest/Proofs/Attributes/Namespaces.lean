import TreeManifest.Proofs.Attributes.Sync
import TreeManifest.Proofs.Volume.Attributes

/-!
# Restores within namespaces

The provider of a system lists permitted names only, but it writes any name. So a restore cannot see
whether a binding is in place whose name is not permitted, and every restore writes it anew, as far
as the process has the right to. Apart from such bindings, the next restore changes nothing.

## Main definitions

- `NativeAttributes.unseen`: the bindings that every restore writes.

## Main statements

- `NativeAttributes.syncAttributes_again`: what the next restore does after a successful one.
-/

namespace TreeManifest

theorem Verdict.steady_of_eq {error : MetadataError} : (Verdict.fails (· = error)).Steady := by
  rintro _ _ rfl rfl
  rfl

theorem Verdict.steady_works : Verdict.works.Steady := by
  intro _ _ hfault
  exact hfault.elim

namespace NativeAttributes

variable {σ : Type} {rights : AttributeRights} {privilege : Privilege} {target : Path}
  {entry : Entry} {name : String} {value : Bytes} {attempt : Attempt} {refusal : Option IoError}

/-- A call of the native provider works exactly if the system does not refuse it. -/
theorem isWorking_verdict : (verdict attempt target refusal).isWorking = refusal.isNone := by
  cases refusal <;> rfl

/-- A change of a visible name works exactly if the system does not refuse it. -/
theorem isWorking_changeVerdict (h : AttributeName.IsVisible name) :
    (changeVerdict attempt target name refusal).isWorking = refusal.isNone := by
  rw [changeVerdict, AttributeProvider.checkName, AttributeName.check_eq_ok_iff.2 h]
  exact isWorking_verdict

theorem steady_verdict : (verdict attempt target refusal).Steady := by
  cases refusal with
  | none => exact Verdict.steady_works
  | some error => exact Verdict.steady_of_eq

theorem steady_changeVerdict : (changeVerdict attempt target name refusal).Steady := by
  unfold changeVerdict
  cases AttributeProvider.checkName attempt target name with
  | ok _ => exact steady_verdict
  | error error => exact Verdict.steady_of_eq

/-- The native provider answers the same call in the same way each time. -/
theorem steady_callPolicy (rights : AttributeRights) (target : Path) :
    (callPolicy rights target).Steady :=
  ⟨steady_verdict, fun _ => steady_verdict, fun _ _ => steady_changeVerdict,
    fun _ => steady_changeVerdict⟩

/-- A change that works is not refused by the system. -/
theorem eq_none_of_isWorking (h : (changeVerdict attempt target name refusal).isWorking = true) :
    refusal = none := by
  unfold changeVerdict at h
  cases hname : AttributeProvider.checkName attempt target name with
  | ok _ =>
    rw [hname] at h
    exact Option.isNone_iff_eq_none.1 (isWorking_verdict.symm.trans h)
  | error error =>
    rw [hname] at h
    cases h

/-- The value of a name that can be made is read, or withheld in a way that a restore passes
over. -/
theorem lenient_get_of_set (h : ((callPolicy rights target).set name value).isWorking = true) :
    ((callPolicy rights target).get name).Lenient := by
  intro error hfault
  simp only [callPolicy, verdict] at hfault
  cases hget : rights.get name with
  | none =>
    rw [hget] at hfault
    exact hfault.elim
  | some source =>
    rw [hget] at hfault
    rw [show error = _ from hfault]
    exact rights.isRefusal_of_set (eq_none_of_isWorking h) hget

/-- The bindings of an entry that a process can make but not see, since their names are not
permitted. -/
def unseen (privilege : Privilege) (rights : AttributeRights) (entry : Entry) :
    List (String × Bytes) :=
  if entry.kind.carriesAttributes && rights.list.isNone then
    (entry.attributes.getD .empty).toList.filter fun binding =>
      !isPermitted privilege binding.1 && (rights.set binding.1 binding.2).isNone
  else []

theorem isVisible_of_mem (h : entry.WellFormed) {binding : String × Bytes}
    (hmem : binding ∈ (entry.attributes.getD .empty).toList) :
    AttributeName.IsVisible binding.1 :=
  h.isVisible (List.mem_map_of_mem hmem)

/-- What is written again are the attributes that the system accepts and the namespace hides. -/
theorem rewritten_eq_unseen (h : entry.WellFormed) :
    Course.rewritten (callPolicy rights target) (shows privilege rights) entry =
      unseen privilege rights entry := by
  have hlist : (callPolicy rights target).list.isWorking = rights.list.isNone := isWorking_verdict
  rw [Course.rewritten, unseen, hlist]
  split
  · refine List.filter_congr fun binding hmem => ?_
    have hset : ((callPolicy rights target).set binding.1 binding.2).isWorking =
        (rights.set binding.1 binding.2).isNone :=
      isWorking_changeVerdict (isVisible_of_mem h hmem)
    rw [hset]
    cases hright : rights.set binding.1 binding.2 with
    | some error => simp
    | none => simp [shows, rights.shows_of_set hright]
  · rfl

/-- A synchronization does nothing exactly if it writes and removes nothing. -/
theorem isNoop_eq_true_iff {sync : AttributeSync} :
    sync.isNoop = true ↔ sync.written = 0 ∧ sync.removed = 0 := by
  simp [AttributeSync.isNoop]

/-- After a successful restore the next one succeeds too and removes nothing. It writes the bindings
that it cannot see, and leaves the attributes as they are. So it does nothing at all when every name
of the entry that the process can make is permitted. -/
theorem syncAttributes_again {system : System σ} {held : σ → AttributeMap} {valid : σ → Prop}
    (h : system.GivesMap target held rights valid) {state : σ} (hvalid : valid state)
    (hwf : entry.WellFormed) {sync : AttributeSync}
    (hok : ((syncAttributes (provider privilege system) entry target).run state).value =
      .ok sync) :
    let first := (syncAttributes (provider privilege system) entry target).run state
    let second := (syncAttributes (provider privilege system) entry target).run first.state
    ∃ again : AttributeSync, second.value = .ok again ∧
      again.written = (unseen privilege rights entry).length ∧ again.removed = 0 ∧
      (again.isNoop = true ↔ unseen privilege rights entry = []) ∧
      ((syncAttributes (provider privilege system).journaled entry target).run
        (first.state, [])).state =
          (second.state, (unseen privilege rights entry).map (.set ·.1)) ∧
      held second.state = held first.state := by
  intro first second
  obtain ⟨_, hmiddle, -, hfirst⟩ := Course.synced_run (serves h privilege) hvalid entry
  obtain ⟨changes, -, hjournal, hsecond⟩ :=
    Course.synced_run (serves h privilege) hmiddle entry
  obtain ⟨again, hagain, hwritten, hremoved⟩ :=
    hfirst.again_ok (steady_callPolicy rights target) (fun _ _ => lenient_get_of_set) hsecond hok
  obtain ⟨hheld, hchanges⟩ := hfirst.again hsecond
  rw [rewritten_eq_unseen hwf] at hwritten hchanges
  refine ⟨again, hagain, hwritten, hremoved, ?_, hjournal.trans (by rw [hchanges]), hheld⟩
  rw [isNoop_eq_true_iff, hwritten, hremoved, List.length_eq_zero_iff]
  exact and_iff_left rfl

/-! ## A file on a volume -/

def markedFile : VolumeObject where
  body := .file []
  permissions := 0o644
  uid := 0
  gid := 0
  modTime := 0
  linkCount := 1
  attributes := .ofList [("user.b", [1])]
  flagWord := some 0

def oneFile : Volume where
  objects := [
    (0, { markedFile with
      body := .directory [([0x66], 1)] 0
      permissions := 0o755
      linkCount := 2
      attributes := .empty }),
    (1, markedFile)]
  next := 2
  now := 0

/-- An entry for the file, with one name that is permitted to all and one that is not. -/
def twoNames : Entry :=
  { Entry.new [0x66] 0o100644 with
    attributes := some (.ofList [("trusted.a", [2]), ("user.a", [3])]) }

def superuser : Caller := {}

theorem finds_oneFile : superuser.Finds [0x66] 1 markedFile oneFile := by
  refine ⟨_, Caller.find_eq_ok_iff.2 ⟨by cbv, rfl⟩, fun hkind => ?_⟩
  cases hkind

theorem givesMap_superuser :
    superuser.system.GivesMap [0x66] (Caller.attributesOf 1)
      (superuser.attributeRights markedFile) (superuser.Finds [0x66] 1 markedFile) :=
  superuser.givesMap (by decide) 1 markedFile

theorem wellFormed_twoNames : twoNames.WellFormed := by
  intro map hmap
  cases hmap
  decide

/-- The superuser can restore the entry without the privilege of seeing all names. -/
theorem exists_ok_twoNames : ∃ sync,
    ((syncAttributes (provider .unprivileged superuser.system) twoNames [0x66]).run oneFile).value =
      .ok sync := by
  obtain ⟨_, -, -, hsynced⟩ := Course.synced_run
    (serves givesMap_superuser .unprivileged) finds_oneFile twoNames
  refine hsynced.exists_ok (steady_callPolicy _ _) ?_ ?_ ?_
  · exact Verdict.lenient_of_isWorking rfl
  · intro binding hbinding
    have hmem : binding = ("trusted.a", [2]) ∨ binding = ("user.a", [3]) := by
      simpa using (show binding ∈ [("trusted.a", [2]), ("user.a", [3])] from hbinding)
    rcases hmem with rfl | rfl
    · exact ⟨Verdict.lenient_of_isWorking (by decide), Verdict.lenient_of_isWorking (by decide)⟩
    · exact ⟨Verdict.lenient_of_isWorking (by decide), Verdict.lenient_of_isWorking (by decide)⟩
  · intro name hname
    have hmem : name = "user.b" := by
      rw [AttributeMap.contains_iff] at hname
      simpa using (show name ∈ ["user.b"] from hname)
    subst hmem
    exact Verdict.lenient_of_isWorking (by decide)

theorem unseen_twoNames :
    unseen .unprivileged (superuser.attributeRights markedFile) twoNames =
      [("trusted.a", [2])] := by decide

theorem syncAttributes_again_twoNames :
    let first :=
      (syncAttributes (provider .unprivileged superuser.system) twoNames [0x66]).run oneFile
    let second :=
      (syncAttributes (provider .unprivileged superuser.system) twoNames [0x66]).run first.state
    ∃ sync again, first.value = .ok sync ∧ second.value = .ok again ∧
      again.written = 1 ∧ again.removed = 0 ∧
      Caller.attributesOf 1 second.state = Caller.attributesOf 1 first.state := by
  intro first second
  obtain ⟨sync, hok⟩ := exists_ok_twoNames
  obtain ⟨again, hagain, hwritten, hremoved, -, -, hheld⟩ :=
    syncAttributes_again givesMap_superuser finds_oneFile wellFormed_twoNames hok
  rw [unseen_twoNames] at hwritten
  exact ⟨sync, again, hok, hagain, hwritten, hremoved, hheld⟩

/-- A restore that has succeeded is not always followed by one that does nothing. -/
theorem not_forall_again_isNoop :
    ¬ ∀ (privilege : Privilege) (caller : Caller) (volume : Volume) (entry : Entry)
        (target : Path) (sync : AttributeSync), entry.WellFormed →
      ((syncAttributes (provider privilege caller.system) entry target).run volume).value =
        .ok sync →
      ∃ again : AttributeSync,
        ((syncAttributes (provider privilege caller.system) entry target).run
          ((syncAttributes (provider privilege caller.system) entry target).run
            volume).state).value = .ok again ∧ again.isNoop = true := by
  intro hall
  obtain ⟨sync, hok⟩ := exists_ok_twoNames
  obtain ⟨again, hagain, hnoop⟩ :=
    hall .unprivileged superuser oneFile twoNames [0x66] sync wellFormed_twoNames hok
  have hserves := serves givesMap_superuser .unprivileged
  obtain ⟨_, hmiddle, -, hfirst⟩ := Course.synced_run hserves finds_oneFile twoNames
  obtain ⟨_, -, -, hsecond⟩ := Course.synced_run hserves hmiddle twoNames
  obtain ⟨other, hother, hwritten, -⟩ :=
    hfirst.again_ok (steady_callPolicy _ _) (fun _ _ => lenient_get_of_set) hsecond hok
  rw [rewritten_eq_unseen wellFormed_twoNames, unseen_twoNames] at hwritten
  obtain rfl : again = other := Except.ok.inj (hagain.symm.trans hother)
  have hnone := (isNoop_eq_true_iff.1 hnoop).1
  rw [hwritten] at hnone
  cases hnone

end NativeAttributes

end TreeManifest
