import Mathlib.Logic.Basic
import TreeManifest.Proofs.Flags.Phases
import TreeManifest.System.Product
import TreeManifest.Volume.Change

/-!
# How a phase ends

A phase opens its target, reads the flag word and writes the merged word if that is another one. It
reports a word exactly when the system took it. A call that is refused ends the phase with an
outcome if the object has no flag word or the caller lacks a right, and with an error otherwise, so
a refused write is not always an outcome.

## Main definitions

- `FlagTarget.opening`: how a target is opened.
- `IoError.IsHard`: the errors of a call on the flag word that are no outcome.
- `FlagRestorer.Ends`: the ways in which a phase ends.
- `FlagRestorer.Cause`, `FlagRestorer.Answers`: why it fails, and what its answer says.
- `FlagRestorer.written`: the words that the system takes in a phase.

## Main statements

- `FlagRestorer.ends_restore`: a phase ends in one of these ways.
- `FlagRestorer.restore_answers`: errors, refused writes and written words.
- `FlagRestorer.not_forall_error_opening_or_reading`: a refused write can end in an error.
-/

namespace TreeManifest

def FlagTarget.path : FlagTarget → Path
  | .named path | .opened _ path => path

/-- The answer when a target is opened. An object that is open already stays as it is. -/
def FlagTarget.opening (view : Snapshot) (directory : Bool) : FlagTarget → Except IoError Handle
  | .named path => view.openForFlags path directory
  | .opened handle _ => .ok handle

/-- An error of a call on the flag word that neither says that the object has no such word nor that
the caller lacks a right. -/
structure IoError.IsHard (error : IoError) : Prop where
  meansNoFlagWord_eq : error.meansNoFlagWord = false
  errorClass_ne : error.errorClass ≠ .permissionDenied

/-- A refused write leaves the word of every object as it was. -/
def System.KeepsRefused {σ : Type} (system : System σ) : Prop :=
  ∀ handle word state error, (system.setFlagWord handle word state).1 = .error error →
    (system.view (system.setFlagWord handle word state).2).flagWord handle =
      (system.view state).flagWord handle

/-- A system that lists the flag words that it takes. -/
def System.listing {σ : Type} (system : System σ) : System (σ × List UInt32) :=
  { system.beside with
    setFlagWord := fun handle word state =>
      match system.setFlagWord handle word state.1 with
      | (.ok (), after) => (.ok (), after, state.2 ++ [word])
      | (.error error, after) => (.error error, after, state.2) }

namespace FlagRestorer

variable {σ : Type} {system : System σ} {restorer : FlagRestorer} {phase : FlagPhase}
  {entry : Entry} {target : FlagTarget} {mask : FlagMask} {state : σ}

/-! ## Refusals -/

/-- What a phase answers to a refused call on the flag word. -/
def refusal (path : Path) (error : IoError) : Except MetadataError FlagOutcome :=
  if error.meansNoFlagWord then .ok .unsupported
  else if error.errorClass = .permissionDenied then .ok .denied
  else .error ⟨.restoreFlags, path, error⟩

theorem value_softFailure (path : Path) (error : IoError) (state : σ) :
    ((softFailure path error).run state).value = refusal path error := by
  unfold softFailure refusal
  split
  · rfl
  · split <;> rfl

theorem state_softFailure (path : Path) (error : IoError) (state : σ) :
    ((softFailure path error).run state).state = state := by
  unfold softFailure
  split
  · rfl
  · split <;> rfl

theorem refusal_ne_applied (path : Path) (error : IoError) (word : UInt32) :
    refusal path error ≠ .ok (.applied word) := by
  unfold refusal
  split
  · nofun
  · split <;> nofun

/-- A refused call ends in an error exactly when its own error is hard. -/
theorem refusal_eq_error_iff {path : Path} {error : IoError} {failure : MetadataError} :
    refusal path error = .error failure ↔
      error.IsHard ∧ failure = ⟨.restoreFlags, path, error⟩ := by
  unfold refusal
  split
  · next hword => exact ⟨nofun, fun h => absurd h.1.meansNoFlagWord_eq (by simp [hword])⟩
  · next hword =>
    split
    · next hclass => exact ⟨nofun, fun h => absurd hclass h.1.errorClass_ne⟩
    · next hclass =>
      rw [Except.error.injEq, eq_comm]
      exact ⟨fun h => ⟨⟨by simpa using hword, hclass⟩, h⟩, fun h => h.2⟩

/-! ## Ways to end -/

/-- What a phase may change and takes from the entry, if it has anything to do at all. -/
structure Acts (restorer : FlagRestorer) (phase : FlagPhase) (entry : Entry) (mask : FlagMask)
    (stored : UInt32) : Prop where
  flags_eq : entry.flags = some stored
  family_eq : restorer.family = .ioctl
  hasFlagWord_eq : entry.kind.hasFlagWord = true
  effectiveBits_ne : restorer.effectiveBits phase mask ≠ 0

def opening (system : System σ) (phase : FlagPhase) (entry : Entry) (target : FlagTarget)
    (state : σ) : Except IoError Handle :=
  target.opening (system.view state) (phase = .earlyDirectory || entry.kind = .directory)

/-- The ways in which a phase ends: its answer and the state that it leaves. -/
inductive Ends (system : System σ) (restorer : FlagRestorer) (phase : FlagPhase) (entry : Entry)
    (target : FlagTarget) (mask : FlagMask) (state : σ) :
    Except MetadataError FlagOutcome → σ → Prop
  | idle (hidle : ∀ stored, ¬ restorer.Acts phase entry mask stored) :
    Ends system restorer phase entry target mask state (.ok .nothingToDo) state
  | unopened {stored error} (hacts : restorer.Acts phase entry mask stored)
      (hopening : opening system phase entry target state = .error error) :
    Ends system restorer phase entry target mask state
      (.error ⟨.openForFlagRestore, target.path, error⟩) state
  | unread {stored handle error} (hacts : restorer.Acts phase entry mask stored)
      (hopening : opening system phase entry target state = .ok handle)
      (hread : (system.view state).flagWord handle = .error error) :
    Ends system restorer phase entry target mask state (refusal target.path error) state
  | unchanged {stored handle current} (hacts : restorer.Acts phase entry mask stored)
      (hopening : opening system phase entry target state = .ok handle)
      (hread : (system.view state).flagWord handle = .ok current)
      (hmerge : Flags.merge current stored (restorer.effectiveBits phase mask) = current) :
    Ends system restorer phase entry target mask state (.ok .nothingToDo) state
  | refused {stored handle current word error after} (hacts : restorer.Acts phase entry mask stored)
      (hopening : opening system phase entry target state = .ok handle)
      (hread : (system.view state).flagWord handle = .ok current)
      (hmerge : Flags.merge current stored (restorer.effectiveBits phase mask) = word)
      (hne : word ≠ current)
      (hwrite : system.setFlagWord handle word state = (.error error, after)) :
    Ends system restorer phase entry target mask state (refusal target.path error) after
  | applied {stored handle current word after} (hacts : restorer.Acts phase entry mask stored)
      (hopening : opening system phase entry target state = .ok handle)
      (hread : (system.view state).flagWord handle = .ok current)
      (hmerge : Flags.merge current stored (restorer.effectiveBits phase mask) = word)
      (hne : word ≠ current)
      (hwrite : system.setFlagWord handle word state = (.ok (), after)) :
    Ends system restorer phase entry target mask state (.ok (.applied word)) after

/-- Without a word to act on, nothing is opened. -/
theorem run_restore_of_idle (h : ∀ stored, ¬ restorer.Acts phase entry mask stored) :
    (restorer.restore system phase entry target mask).run state =
      ⟨.ok .nothingToDo, state, []⟩ := by
  unfold restore
  cases hstored : entry.flags with
  | none => rfl
  | some stored =>
    dsimp only
    split
    · rfl
    · next happlies =>
      simp only [not_or, ne_eq, Decidable.not_not, Bool.not_eq_true', Bool.not_eq_false]
        at happlies
      exact absurd ⟨hstored, happlies.2.2.1, happlies.2.2.2, happlies.2.1⟩ (h stored)

/-- A phase that has something to do goes on with the object of its target. -/
theorem run_restore_of_acts {stored : UInt32} (h : restorer.Acts phase entry mask stored) :
    (restorer.restore system phase entry target mask).run state =
      match opening system phase entry target state with
      | .error error => ⟨.error ⟨.openForFlagRestore, target.path, error⟩, state, []⟩
      | .ok handle => (restoreOpened system handle target.path stored
          (restorer.effectiveBits phase mask)).run state := by
  have hmask : mask.isNone = false := by
    refine Bool.eq_false_iff.2 fun hnone => h.effectiveBits_ne ?_
    simp only [FlagMask.isNone, beq_iff_eq] at hnone
    simp [effectiveBits, FlagPhase.effectiveBits, hnone]
  unfold restore
  simp only [h.flags_eq, hmask, h.effectiveBits_ne, h.family_eq, h.hasFlagWord_eq, ne_eq,
    not_true_eq_false, Bool.not_true, Bool.false_eq_true, or_self, if_false]
  cases target with
  | opened handle path => rfl
  | named path =>
    simp only [Task.run_bind, Task.run_inspect, opening, FlagTarget.opening, FlagTarget.path]
    cases (system.view state).openForFlags path
      (decide (phase = .earlyDirectory) || decide (entry.kind = .directory)) <;> rfl

/-- A phase ends in one of the ways. -/
theorem ends_restore (system : System σ) (restorer : FlagRestorer) (phase : FlagPhase)
    (entry : Entry) (target : FlagTarget) (mask : FlagMask) (state : σ) :
    Ends system restorer phase entry target mask state
      ((restorer.restore system phase entry target mask).run state).value
      ((restorer.restore system phase entry target mask).run state).state := by
  by_cases hidle : ∀ stored, ¬ restorer.Acts phase entry mask stored
  · rw [run_restore_of_idle hidle]
    exact .idle hidle
  obtain ⟨stored, hacts⟩ := not_forall_not.1 hidle
  rw [run_restore_of_acts hacts]
  cases hopening : opening system phase entry target state with
  | error error => exact .unopened hacts hopening
  | ok handle =>
    simp only [restoreOpened, Task.run_bind, Task.run_inspect]
    cases hread : (system.view state).flagWord handle with
    | error error =>
      simp only [value_softFailure, state_softFailure]
      exact .unread hacts hopening hread
    | ok current =>
      dsimp only
      split
      · next hmerge => exact .unchanged hacts hopening hread hmerge
      · next hne =>
        simp only [Task.run_bind, Task.run_perform]
        rcases hwrite : system.setFlagWord handle (Flags.merge current stored
            (restorer.effectiveBits phase mask)) state with ⟨_ | _, after⟩
        · simp only [value_softFailure, state_softFailure]
          exact .refused hacts hopening hread rfl hne hwrite
        · exact .applied hacts hopening hread rfl hne hwrite

/-! ## Written words -/

/-- The words that the system takes in a phase, in order. -/
def written (system : System σ) (restorer : FlagRestorer) (phase : FlagPhase) (entry : Entry)
    (target : FlagTarget) (mask : FlagMask) (state : σ) : List UInt32 :=
  ((restorer.restore system.listing phase entry target mask).run (state, [])).state.2

def reported : Except MetadataError FlagOutcome → List UInt32
  | .ok (.applied word) => [word]
  | _ => []

theorem reported_refusal (path : Path) (error : IoError) :
    reported (refusal path error) = [] := by
  unfold refusal
  split
  · rfl
  · split <;> rfl

/-- Listing the words changes nothing about a phase, and those that are listed are the reported
ones. -/
theorem run_listing (system : System σ) (restorer : FlagRestorer) (phase : FlagPhase)
    (entry : Entry) (target : FlagTarget) (mask : FlagMask) (state : σ) :
    let run := (restorer.restore system phase entry target mask).run state
    let listed := (restorer.restore system.listing phase entry target mask).run (state, [])
    listed.value = run.value ∧ listed.state = (run.state, reported run.value) := by
  dsimp only
  by_cases hidle : ∀ stored, ¬ restorer.Acts phase entry mask stored
  · rw [run_restore_of_idle hidle, run_restore_of_idle hidle]
    exact ⟨rfl, rfl⟩
  obtain ⟨stored, hacts⟩ := not_forall_not.1 hidle
  rw [run_restore_of_acts hacts, run_restore_of_acts hacts]
  have hopening : opening system.listing phase entry target (state, []) =
      opening system phase entry target state := rfl
  rw [hopening]
  cases opening system phase entry target state with
  | error error => exact ⟨rfl, rfl⟩
  | ok handle =>
    have hread : (system.listing.view (state, [])).flagWord handle =
        (system.view state).flagWord handle := rfl
    simp only [restoreOpened, Task.run_bind, Task.run_inspect, hread]
    cases (system.view state).flagWord handle with
    | error error =>
      simp only [value_softFailure, state_softFailure, reported_refusal, and_self]
    | ok current =>
      dsimp only
      split
      · exact ⟨rfl, rfl⟩
      · simp only [Task.run_bind, Task.run_perform, System.listing]
        rcases system.setFlagWord handle (Flags.merge current stored
            (restorer.effectiveBits phase mask)) state with ⟨_ | _, after⟩
        · simp only [value_softFailure, state_softFailure, reported_refusal, and_self]
        · exact ⟨rfl, rfl⟩

/-- A word is written exactly if it is reported. -/
theorem written_eq (system : System σ) (restorer : FlagRestorer) (phase : FlagPhase)
    (entry : Entry) (target : FlagTarget) (mask : FlagMask) (state : σ) :
    written system restorer phase entry target mask state =
      reported ((restorer.restore system phase entry target mask).run state).value :=
  congrArg Prod.snd (run_listing system restorer phase entry target mask state).2

/-! ## Answers -/

inductive Cause (system : System σ) (phase : FlagPhase) (entry : Entry) (target : FlagTarget)
    (state : σ) (failure : MetadataError) : Prop
  | unopened {error} (hopening : opening system phase entry target state = .error error)
      (hfailure : failure = ⟨.openForFlagRestore, target.path, error⟩)
  | unread {handle error} (hopening : opening system phase entry target state = .ok handle)
      (hread : (system.view state).flagWord handle = .error error) (hhard : error.IsHard)
      (hfailure : failure = ⟨.restoreFlags, target.path, error⟩)
  | unwritten {handle word error} (hopening : opening system phase entry target state = .ok handle)
      (hwrite : (system.setFlagWord handle word state).1 = .error error) (hhard : error.IsHard)
      (hfailure : failure = ⟨.restoreFlags, target.path, error⟩)

/-- What the answer of a phase says about the calls that it made. -/
structure Answers (system : System σ) (restorer : FlagRestorer) (phase : FlagPhase) (entry : Entry)
    (target : FlagTarget) (mask : FlagMask) (state : σ)
    (run : Run σ (Except MetadataError FlagOutcome)) : Prop where
  error_cause : ∀ failure, run.value = .error failure →
    Cause system phase entry target state failure
  /-- A refused write is an outcome unless its error is hard, and the object keeps its word. -/
  refused_write : ∀ stored handle current error, restorer.Acts phase entry mask stored →
    opening system phase entry target state = .ok handle →
    (system.view state).flagWord handle = .ok current →
    let word := Flags.merge current stored (restorer.effectiveBits phase mask)
    word ≠ current → (system.setFlagWord handle word state).1 = .error error →
      (run.value = .ok .unsupported ∨ run.value = .ok .denied ∨
        error.IsHard ∧ run.value = .error ⟨.restoreFlags, target.path, error⟩) ∧
      (system.view run.state).flagWord handle = .ok current
  /-- A word is reported exactly when the system took it. -/
  applied_iff : ∀ word, run.value = .ok (.applied word) ↔
    word ∈ written system restorer phase entry target mask state
  length_written_le : (written system restorer phase entry target mask state).length ≤ 1
  /-- A reported word agrees with the one before in all bits that the phase may not change. -/
  applied_bits : ∀ word, run.value = .ok (.applied word) →
    ∃ handle current, opening system phase entry target state = .ok handle ∧
      (system.view state).flagWord handle = .ok current ∧
      word &&& ~~~restorer.effectiveBits phase mask =
        current &&& ~~~restorer.effectiveBits phase mask

theorem mem_reported_iff {value : Except MetadataError FlagOutcome} {word : UInt32} :
    word ∈ reported value ↔ value = .ok (.applied word) := by
  unfold reported
  split
  · next other => rw [List.mem_singleton, Except.ok.injEq, FlagOutcome.applied.injEq, eq_comm]
  · next hother => exact ⟨nofun, fun h => absurd h (hother word)⟩

theorem length_reported_le (value : Except MetadataError FlagOutcome) :
    (reported value).length ≤ 1 := by
  unfold reported
  split <;> simp

/-- An error is reported as missing support, as missing rights or as a hard failure, by its
class. -/
theorem refusal_cases (path : Path) (error : IoError) :
    refusal path error = .ok .unsupported ∨ refusal path error = .ok .denied ∨
      error.IsHard ∧ refusal path error = .error ⟨.restoreFlags, path, error⟩ := by
  cases hvalue : refusal path error with
  | error failure =>
    obtain ⟨hhard, rfl⟩ := refusal_eq_error_iff.1 hvalue
    exact .inr (.inr ⟨hhard, rfl⟩)
  | ok outcome =>
    unfold refusal at hvalue
    split at hvalue
    · cases hvalue
      exact .inl rfl
    · split at hvalue
      · cases hvalue
        exact .inr (.inl rfl)
      · cases hvalue

/-- A failure of a restore is that of one of its calls, and hard. -/
theorem Ends.cause {failure : MetadataError} {after : σ}
    (h : Ends system restorer phase entry target mask state (.error failure) after) :
    Cause system phase entry target state failure := by
  generalize hvalue : (Except.error failure : Except MetadataError FlagOutcome) = value at h
  cases h with
  | idle | unchanged | applied => cases hvalue
  | unopened hacts hopening =>
    cases hvalue
    exact .unopened hopening rfl
  | unread hacts hopening hread =>
    obtain ⟨hhard, hfailure⟩ := refusal_eq_error_iff.1 hvalue.symm
    exact .unread hopening hread hhard hfailure
  | refused hacts hopening hread hmerge hne hwrite =>
    obtain ⟨hhard, hfailure⟩ := refusal_eq_error_iff.1 hvalue.symm
    exact .unwritten hopening (congrArg Prod.fst hwrite) hhard hfailure

/-- There is one word to act on. -/
theorem Acts.unique {stored other : UInt32} (h : restorer.Acts phase entry mask stored)
    (h' : restorer.Acts phase entry mask other) : stored = other :=
  Option.some.inj (h.flags_eq.symm.trans h'.flags_eq)

/-- After a refused write, a phase ends with the answer to it and in the state that the call
left. -/
theorem Ends.eq_of_refused {value : Except MetadataError FlagOutcome} {after : σ}
    (h : Ends system restorer phase entry target mask state value after)
    {stored current : UInt32} {handle : Handle} {error : IoError}
    (hacts : restorer.Acts phase entry mask stored)
    (hopening : opening system phase entry target state = .ok handle)
    (hread : (system.view state).flagWord handle = .ok current)
    (hne : Flags.merge current stored (restorer.effectiveBits phase mask) ≠ current)
    (hwrite : (system.setFlagWord handle
      (Flags.merge current stored (restorer.effectiveBits phase mask)) state).1 = .error error) :
    value = refusal target.path error ∧ after = (system.setFlagWord handle
      (Flags.merge current stored (restorer.effectiveBits phase mask)) state).2 := by
  cases h with
  | idle hidle => exact absurd hacts (hidle stored)
  | unopened hacts' hopening' => cases hopening.symm.trans hopening'
  | unread hacts' hopening' hread' =>
    cases hopening.symm.trans hopening'
    cases hread.symm.trans hread'
  | unchanged hacts' hopening' hread' hmerge =>
    cases hopening.symm.trans hopening'
    cases hread.symm.trans hread'
    obtain rfl := hacts.unique hacts'
    exact absurd hmerge hne
  | refused hacts' hopening' hread' hmerge hne' hwrite' =>
    cases hopening.symm.trans hopening'
    cases hread.symm.trans hread'
    obtain rfl := hacts.unique hacts'
    subst hmerge
    rw [hwrite'] at hwrite ⊢
    cases hwrite
    exact ⟨rfl, rfl⟩
  | applied hacts' hopening' hread' hmerge hne' hwrite' =>
    cases hopening.symm.trans hopening'
    cases hread.symm.trans hread'
    obtain rfl := hacts.unique hacts'
    subst hmerge
    rw [hwrite'] at hwrite
    cases hwrite

/-- An applied word differs from the one found in the effective bits only. -/
theorem Ends.applied_bits {word : UInt32} {after : σ}
    (h : Ends system restorer phase entry target mask state (.ok (.applied word)) after) :
    ∃ handle current, opening system phase entry target state = .ok handle ∧
      (system.view state).flagWord handle = .ok current ∧
      word &&& ~~~restorer.effectiveBits phase mask =
        current &&& ~~~restorer.effectiveBits phase mask := by
  generalize hvalue : (Except.ok (.applied word) : Except MetadataError FlagOutcome) = value at h
  cases h with
  | idle | unopened | unchanged => cases hvalue
  | unread | refused => exact absurd hvalue.symm (refusal_ne_applied _ _ word)
  | applied hacts hopening hread hmerge =>
    cases hvalue
    refine ⟨_, _, hopening, hread, ?_⟩
    rw [← hmerge]
    exact Flags.merge_and_of_disjoint (UInt32.and_not_self)

/-- The answer of a phase tells the truth about its calls. It is an error only if one of them
failed, a word only if the system took that word, and an outcome after a refusal only if the object
kept its word. -/
theorem restore_answers (hkeeps : system.KeepsRefused) (restorer : FlagRestorer) (phase : FlagPhase)
    (entry : Entry) (target : FlagTarget) (mask : FlagMask) (state : σ) :
    Answers system restorer phase entry target mask state
      ((restorer.restore system phase entry target mask).run state) := by
  have hends := ends_restore system restorer phase entry target mask state
  have hwritten := written_eq system restorer phase entry target mask state
  refine ⟨fun failure hfailure => ?_, ?_, fun word => ?_, ?_, fun word hword => ?_⟩
  · rw [hfailure] at hends
    exact hends.cause
  · intro stored handle current error hacts hopening hread word hne hwrite
    obtain ⟨hvalue, hafter⟩ := hends.eq_of_refused hacts hopening hread hne hwrite
    rw [hvalue, hafter, hkeeps _ _ _ _ hwrite]
    exact ⟨refusal_cases target.path error, hread⟩
  · rw [hwritten, mem_reported_iff]
  · rw [hwritten]
    exact length_reported_le _
  · rw [hword] at hends
    exact hends.applied_bits

/-- A volume on a disk that cannot be written any more. -/
def failingDisk : System Volume :=
  { ({} : Caller).system with setFlagWord := fun _ _ volume => (.error (.os ⟨5⟩), volume) }

/-- An entry of a directory that backups leave out. -/
def skippedDirectory : Entry :=
  { Entry.new [0x64] 0o40755 with flags := some Flags.Ioctl.noDump }

theorem resolve_slash :
    ({} : Caller).resolve (Volume.empty 0 (some 0)) false [0x2F] = .ok Volume.top := by
  have hlookup : ({} : Caller).lookup (Volume.empty 0 (some 0)) Volume.top Path.dot =
      .ok (some Volume.top) := rfl
  show ({} : Caller).follow (Volume.empty 0 (some 0)) false Caller.linkLimit Volume.top
    [Path.dot] = .ok Volume.top
  rw [Caller.follow, hlookup]
  exact Caller.follow.eq_1 ..

theorem opening_failingDisk : opening failingDisk .late skippedDirectory (.named [0x2F])
    (Volume.empty 0 (some 0)) = .ok ⟨0⟩ := by
  have hopen : (failingDisk.view (Volume.empty 0 (some 0))).openObject [0x2F] ⟨true, true⟩ =
      .ok ⟨0⟩ := by
    show (({} : Caller).openObject _ [0x2F] ⟨true, true⟩).mapError IoError.os = _
    rw [Caller.openObject, Caller.find, resolve_slash]
    rfl
  show Snapshot.openForFlags _ _ true = _
  rw [Snapshot.openForFlags, hopen]

theorem keepsRefused_failingDisk : failingDisk.KeepsRefused := fun _ _ _ _ _ => rfl

theorem acts_skippedDirectory :
    ({ privilege := .privileged : FlagRestorer}).Acts .late skippedDirectory .all
      Flags.Ioctl.noDump :=
  ⟨rfl, rfl, by decide, by decide⟩

theorem run_failingDisk :
    (({ privilege := .privileged : FlagRestorer}.restore failingDisk .late skippedDirectory
      (.named [0x2F]) .all).run (Volume.empty 0 (some 0))).value =
        .error ⟨.restoreFlags, [0x2F], .os ⟨5⟩⟩ :=
  ((ends_restore failingDisk _ _ _ _ _ _).eq_of_refused acts_skippedDirectory opening_failingDisk
    rfl (by decide) rfl).1

/-- The write is refused with a hard error, which is what the phase answers; the directory keeps its
word, and no word is listed. -/
theorem restore_answers_failingDisk :
    let restorer : FlagRestorer := { privilege := .privileged }
    let volume := Volume.empty 0 (some 0)
    let run := (restorer.restore failingDisk .late skippedDirectory (.named [0x2F]) .all).run volume
    failingDisk.KeepsRefused ∧ run.value = .error ⟨.restoreFlags, [0x2F], .os ⟨5⟩⟩ ∧
      (failingDisk.view run.state).flagWord ⟨0⟩ = .ok 0 ∧
      written failingDisk restorer .late skippedDirectory (.named [0x2F]) .all volume = [] := by
  have hanswers := restore_answers keepsRefused_failingDisk { privilege := .privileged } .late
    skippedDirectory (.named [0x2F]) .all (Volume.empty 0 (some 0))
  refine ⟨keepsRefused_failingDisk, run_failingDisk, ?_, ?_⟩
  · exact (hanswers.refused_write _ ⟨0⟩ 0 (.os ⟨5⟩) acts_skippedDirectory opening_failingDisk rfl
      (by decide) rfl).2
  · refine List.eq_nil_iff_forall_not_mem.2 fun word hword => ?_
    cases run_failingDisk.symm.trans ((hanswers.applied_iff word).2 hword)

/-- Not every error of a phase says that its target could not be opened or read: a refused write can
end in one. -/
theorem not_forall_error_opening_or_reading :
    ¬ ∀ (system : System Volume) (restorer : FlagRestorer) (phase : FlagPhase) (entry : Entry)
      (target : FlagTarget) (mask : FlagMask) (volume : Volume) (failure : MetadataError),
      ((restorer.restore system phase entry target mask).run volume).value = .error failure →
        (∃ error, opening system phase entry target volume = .error error) ∨
        ∃ handle error, opening system phase entry target volume = .ok handle ∧
          (system.view volume).flagWord handle = .error error := by
  intro h
  rcases h failingDisk { privilege := .privileged } .late skippedDirectory (.named [0x2F]) .all
    (Volume.empty 0 (some 0)) _ run_failingDisk with ⟨error, hfailed⟩ | ⟨handle, error, hok, hread⟩
  · cases opening_failingDisk.symm.trans hfailed
  · cases opening_failingDisk.symm.trans hok
    cases hread

end FlagRestorer

end TreeManifest
