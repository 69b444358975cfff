import TreeManifest.Proofs.Flags.Answers
import TreeManifest.Proofs.Restore.Effects

/-!
# Early and late phases together

The bits of the early phases are among those of the late one. On an object whose flag word is a plain
cell, an early phase before the late one therefore makes no difference, a phase that runs again finds
nothing to do, and the restorable bits of a stored word are captured again as they are.

## Main definitions

- `FlagPhase.early`: the early phase for a kind of object.
- `FlagCell`: an object whose flag word is a plain cell.
- `Flags.restorable`: the restorable bits of a word, if any of them is set.
- `Caller.flagCell`: the files and directories of a volume are plain cells for the superuser.

## Main statements

- `Flags.merge_merge`: merging some bits and then others.
- `FlagCell.merges_restore`: what a phase does to a plain cell.
- `FlagCell.early_late`: both phases, either of them again, and a capture afterwards.
-/

namespace TreeManifest

/-! ## Words -/

namespace Flags

/-- Merging some bits and then others is merging all of them. -/
theorem merge_merge (current stored first second : UInt32) :
    merge (merge current stored first) stored second =
      merge current stored (first ||| second) := by
  refine eq_of_getLsbD fun bit hbit => ?_
  simp only [getLsbD_merge _ _ _ hbit, UInt32.toBitVec_or, BitVec.getLsbD_or]
  cases first.toBitVec.getLsbD bit <;> cases second.toBitVec.getLsbD bit <;> rfl

theorem merge_and_self (current stored allowed : UInt32) :
    merge current stored allowed &&& allowed = stored &&& allowed := by
  refine eq_of_getLsbD fun bit hbit => ?_
  simp only [UInt32.toBitVec_and, BitVec.getLsbD_and, getLsbD_merge _ _ _ hbit]
  cases allowed.toBitVec.getLsbD bit <;> simp

theorem merge_zero (current stored : UInt32) : merge current stored 0 = current := by
  simp [merge]

def restorable (word : UInt32) : Option UInt32 :=
  if word &&& Ioctl.modifiable = 0 then none else some (word &&& Ioctl.modifiable)

theorem restorable_of_read {view : Snapshot} {path : Path} {stat : Stat} {stored : UInt32}
    (h : read view path stat = .ok (some stored)) : restorable stored = some stored := by
  obtain ⟨word, hword, rfl⟩ : ∃ word, word &&& Ioctl.modifiable ≠ 0 ∧
      word &&& Ioctl.modifiable = stored := by
    simp only [read] at h
    split at h
    · cases h
    · split at h
      · cases h
      · split at h
        · next word _ =>
          split at h
          · cases h
          · next hbits => exact ⟨word, hbits, Option.some.inj (Except.ok.inj h)⟩
        · split at h <;> cases h
  rw [restorable, UInt32.and_assoc, UInt32.and_self, if_neg hword]

end Flags

namespace FlagPhase

def early : FileKind → FlagPhase
  | .directory => .earlyDirectory
  | _ => .earlyFile

/-- The late phase may change whatever an early phase may. -/
theorem effectiveBits_or_late (phase : FlagPhase) (privilege : Privilege) (mask : FlagMask) :
    phase.effectiveBits .ioctl privilege mask ||| late.effectiveBits .ioctl privilege mask =
      late.effectiveBits .ioctl privilege mask := by
  have hpermitted : phase.permittedBits .ioctl privilege ||| late.permittedBits .ioctl privilege =
      late.permittedBits .ioctl privilege := by
    cases phase <;> cases privilege <;> decide
  rw [← UInt32.toBitVec_inj] at hpermitted ⊢
  simp only [effectiveBits, UInt32.toBitVec_or, UInt32.toBitVec_and,
    ← BitVec.and_or_distrib_right] at hpermitted ⊢
  rw [hpermitted]

/-- Only a directory has an early phase for directories. -/
theorem eq_directory_of_mem {kind : FileKind} (h : earlyDirectory ∈ [early kind, late]) :
    kind = .directory := by
  cases kind <;> simp [early] at h ⊢

end FlagPhase

/-! ## Plain cells -/

section

variable {σ : Type} {system : System σ}

/-- An object whose flag word is a plain cell in some states of a system: it can be opened, every
word can be written, and the word that was written last is read. -/
structure FlagCell (system : System σ) where
  path : Path
  handle : Handle
  kind : FileKind
  hasFlagWord_eq : kind.hasFlagWord = true
  /-- The states in which the object is a cell. -/
  Holds : σ → Prop
  word : σ → UInt32
  openForFlags_eq : ∀ {state}, Holds state →
    (system.view state).openForFlags path (kind = .directory) = .ok handle
  flagWord_eq : ∀ {state}, Holds state → (system.view state).flagWord handle = .ok (word state)
  exists_setFlagWord : ∀ {state} (new : UInt32), Holds state →
    ∃ after, system.setFlagWord handle new state = (.ok (), after) ∧ Holds after ∧ word after = new

namespace FlagCell

variable {cell : FlagCell system} {restorer : FlagRestorer} {phase : FlagPhase} {entry : Entry}
  {target : FlagTarget} {state : σ} {stored : UInt32}

def IsTarget (cell : FlagCell system) : FlagTarget → Prop
  | .named path => path = cell.path
  | .opened handle _ => handle = cell.handle

/-- A phase that merges the stored word into a cell and reports an outcome. If the word in the cell
stays the same, nothing happens at all. -/
structure Merges (cell : FlagCell system) (state : σ) (stored allowed : UInt32)
    (run : Run σ (Except MetadataError FlagOutcome)) : Prop where
  exists_outcome : ∃ outcome, run.value = .ok outcome
  holds : cell.Holds run.state
  word_eq : cell.word run.state = Flags.merge (cell.word state) stored allowed
  eq_of_same : Flags.merge (cell.word state) stored allowed = cell.word state →
    run.value = .ok .nothingToDo ∧ run.state = state

theorem opening_eq (hkind : entry.kind = cell.kind) (htarget : cell.IsTarget target)
    (hphase : phase = .earlyDirectory → cell.kind = .directory) (hstate : cell.Holds state) :
    FlagRestorer.opening system phase entry target state = .ok cell.handle := by
  have hdirectory : (decide (phase = .earlyDirectory) || decide (entry.kind = .directory)) =
      decide (cell.kind = .directory) := by
    rw [hkind]
    by_cases hearly : phase = .earlyDirectory
    · simp [hphase hearly]
    · simp [hearly]
  cases target with
  | opened handle path =>
    obtain rfl : handle = cell.handle := htarget
    rfl
  | named path =>
    obtain rfl : path = cell.path := htarget
    rw [FlagRestorer.opening, FlagTarget.opening, hdirectory]
    exact cell.openForFlags_eq hstate

/-- What a phase does to a cell. -/
theorem merges_restore (hfamily : restorer.family = .ioctl) (hflags : entry.flags = some stored)
    (hkind : entry.kind = cell.kind) (htarget : cell.IsTarget target)
    (hphase : phase = .earlyDirectory → cell.kind = .directory) (hstate : cell.Holds state)
    (mask : FlagMask) :
    cell.Merges state stored (restorer.effectiveBits phase mask)
      ((restorer.restore system phase entry target mask).run state) := by
  have hopened := opening_eq hkind htarget hphase hstate
  have hword := cell.flagWord_eq hstate
  have hstored : ∀ {other}, restorer.Acts phase entry mask other → stored = other :=
    fun hacts => Option.some.inj (hflags.symm.trans hacts.flags_eq)
  have hends := FlagRestorer.ends_restore system restorer phase entry target mask state
  generalize (restorer.restore system phase entry target mask).run state = run at hends
  obtain ⟨value, after, events⟩ := run
  cases hends with
  | idle hidle =>
    have hbits : restorer.effectiveBits phase mask = 0 := by
      by_contra hbits
      exact hidle stored ⟨hflags, hfamily, hkind ▸ cell.hasFlagWord_eq, hbits⟩
    exact ⟨⟨_, rfl⟩, hstate, by rw [hbits, Flags.merge_zero], fun _ => ⟨rfl, rfl⟩⟩
  | unopened hacts hopening => cases hopened.symm.trans hopening
  | unread hacts hopening hread =>
    cases hopened.symm.trans hopening
    cases hword.symm.trans hread
  | unchanged hacts hopening hread hmerge =>
    cases hopened.symm.trans hopening
    cases hword.symm.trans hread
    obtain rfl := hstored hacts
    exact ⟨⟨_, rfl⟩, hstate, hmerge.symm, fun _ => ⟨rfl, rfl⟩⟩
  | @refused _ _ _ word _ _ hacts hopening hread hmerge hne hwrite =>
    cases hopened.symm.trans hopening
    obtain ⟨after, hset, -⟩ := cell.exists_setFlagWord word hstate
    cases hset.symm.trans hwrite
  | @applied _ _ _ word _ hacts hopening hread hmerge hne hwrite =>
    cases hopened.symm.trans hopening
    cases hword.symm.trans hread
    obtain rfl := hstored hacts
    obtain ⟨after, hset, hafter, hnew⟩ := cell.exists_setFlagWord word hstate
    cases hset.symm.trans hwrite
    exact ⟨⟨_, rfl⟩, hafter, hnew.trans hmerge.symm,
      fun hsame => absurd (hmerge.symm.trans hsame) hne⟩

theorem read_eq {stat : Stat} (hkind : stat.kind = cell.kind) (hstate : cell.Holds state) :
    Flags.read (system.view state) cell.path stat = .ok (Flags.restorable (cell.word state)) := by
  have hopens := cell.openForFlags_eq hstate
  simp only [Flags.read, hkind, cell.hasFlagWord_eq, Bool.not_true, Bool.false_eq_true, if_false,
    hopens, cell.flagWord_eq hstate]
  rfl

/-- A state in which the stored word of an entry is in a cell: no phase has anything left to do, and
if every bit may change, the word is captured as it was stored. -/
structure Settled (cell : FlagCell system) (restorer : FlagRestorer) (entry : Entry) (stored : UInt32)
    (mask : FlagMask) (state : σ) : Prop where
  again : ∀ phase ∈ [FlagPhase.early cell.kind, .late], ∀ target, cell.IsTarget target →
    let run := (restorer.restore system phase entry target mask).run state
    run.value = .ok .nothingToDo ∧ run.state = state
  captured : mask = .all → ∀ (inspected : Entry) (stat : Stat), stat.kind = cell.kind →
    ((Flags.capture (system.view state) inspected cell.path stat).run state).value =
      (true, { inspected with flags := Flags.restorable stored })
  /-- Whatever object the word was captured from. -/
  recaptured : mask = .all → ∀ (view : Snapshot) (path : Path) (source stat : Stat),
    Flags.read view path source = .ok (some stored) → stat.kind = cell.kind →
      Flags.read (system.view state) cell.path stat = .ok (some stored)

/-- A merge with every restorable bit settles a cell. -/
theorem settled (hfamily : restorer.family = .ioctl) (hflags : entry.flags = some stored)
    (hkind : entry.kind = cell.kind) {mask : FlagMask} (hstate : cell.Holds state)
    {first : UInt32} (hword : cell.word state =
      Flags.merge first stored (Flags.Ioctl.modifiable &&& mask.bits)) :
    cell.Settled restorer entry stored mask state := by
  have hread (hall : mask = .all) {stat : Stat} (hstat : stat.kind = cell.kind) :
      Flags.read (system.view state) cell.path stat = .ok (Flags.restorable stored) := by
    have hbits : Flags.Ioctl.modifiable &&& mask.bits = Flags.Ioctl.modifiable := by
      rw [hall]
      decide
    rw [read_eq hstat hstate, hword, hbits, Flags.restorable, Flags.merge_and_self,
      ← Flags.restorable]
  refine ⟨fun phase hphase target htarget => ?_, fun hall inspected stat hstat => ?_,
    fun hall view path source stat hsource hstat => ?_⟩
  · have hdirectory : phase = .earlyDirectory → cell.kind = .directory := by
      rintro rfl
      exact FlagPhase.eq_directory_of_mem hphase
    have hbits := phase.effectiveBits_or_late restorer.privilege mask
    refine (merges_restore hfamily hflags hkind htarget hdirectory hstate mask).eq_of_same ?_
    rw [hword, FlagRestorer.effectiveBits, hfamily, Flags.merge_merge, UInt32.or_comm]
    exact congrArg _ hbits
  · simp only [Flags.capture, hread hall hstat]
    rfl
  · rw [hread hall hstat, Flags.restorable_of_read hsource]

/-- On a plain cell, the early phase for its kind and then the late phase leave the current word
with the restorable bits of the stored one that the mask allows, as the late phase does alone, and
they settle the cell. -/
theorem early_late (hfamily : restorer.family = .ioctl) (hflags : entry.flags = some stored)
    (hkind : entry.kind = cell.kind) {early late : FlagTarget} (hearly : cell.IsTarget early)
    (hlate : cell.IsTarget late) (hstate : cell.Holds state) (mask : FlagMask) :
    let begun := (restorer.restore system (.early cell.kind) entry early mask).run state
    let finished := (restorer.restore system .late entry late mask).run begun.state
    let alone := (restorer.restore system .late entry late mask).run state
    (∃ outcome, begun.value = .ok outcome) ∧ (∃ outcome, finished.value = .ok outcome) ∧
      cell.word finished.state = Flags.merge (cell.word state) stored
        (Flags.Ioctl.modifiable &&& mask.bits) ∧
      cell.word finished.state = cell.word alone.state ∧
      cell.Settled restorer entry stored mask finished.state := by
  intro begun finished alone
  have hdirectory : FlagPhase.early cell.kind = .earlyDirectory → cell.kind = .directory :=
    fun hphase => FlagPhase.eq_directory_of_mem (hphase ▸ List.mem_cons_self)
  have hbits : restorer.effectiveBits .late mask = Flags.Ioctl.modifiable &&& mask.bits := by
    rw [FlagRestorer.effectiveBits, hfamily]
    rfl
  have hbegun := merges_restore hfamily hflags hkind hearly hdirectory hstate mask
  have hlast {first : σ} (hfirst : cell.Holds first) :
      cell.Merges first stored (restorer.effectiveBits .late mask)
        ((restorer.restore system .late entry late mask).run first) := by
    have hphase : FlagPhase.late = .earlyDirectory → cell.kind = .directory := by
      intro hphase
      cases hphase
    exact merges_restore hfamily hflags hkind hlate hphase hfirst mask
  have hfinished := hlast hbegun.holds
  have hword : cell.word finished.state = Flags.merge (cell.word state) stored
      (Flags.Ioctl.modifiable &&& mask.bits) := by
    rw [hfinished.word_eq, hbegun.word_eq, Flags.merge_merge, ← hbits]
    simp only [FlagRestorer.effectiveBits, hfamily, FlagPhase.effectiveBits_or_late]
  refine ⟨hbegun.exists_outcome, hfinished.exists_outcome, hword, ?_,
    settled hfamily hflags hkind hfinished.holds hword⟩
  rw [hword, (hlast hstate).word_eq, hbits]

end FlagCell

end

/-! ## Objects of a volume -/

namespace Caller

variable {caller : Caller} {volume : Volume} {path : Path} {number : Nat} {object : VolumeObject}

/-- The superuser opens any file and directory for its flag word. -/
theorem openForFlags_of_isSuperuser (hsuper : caller.isSuperuser = true) (hnul : Bytes.nul ∉ path)
    (hfind : caller.find volume false path = .ok (number, object))
    (hkind : object.kind.hasFlagWord = true) :
    (caller.snapshot volume).openForFlags path (object.kind = .directory) = .ok ⟨number⟩ := by
  have hopen : caller.openObject volume path ⟨object.kind = .directory, true⟩ = .ok ⟨number⟩ := by
    have hdirectory : ¬ ((decide (object.kind = .directory) : Bool) = true ∧
        (!object.isDirectory) = true) := by
      simp [VolumeObject.isDirectory]
    simp only [openObject, hfind, bind, Except.bind, if_neg hdirectory]
    cases hbody : object.body with
    | file content => simp [may, owns, hsuper, pure, Except.pure]
    | directory names parent => simp [may, owns, hsuper, pure, Except.pure]
    | symlink target => simp [VolumeObject.kind, hbody, FileKind.hasFlagWord] at hkind
    | special kind device =>
      have hsocket : kind ≠ .socket := by
        rintro rfl
        simp [VolumeObject.kind, hbody, FileKind.hasFlagWord] at hkind
      simp [may, owns, hsuper, hsocket, pure, Except.pure]
  simp only [Snapshot.openForFlags, snapshot, withoutNul, if_neg hnul, hopen, Except.mapError]

theorem setFlagWord_of_isSuperuser (hsuper : caller.isSuperuser = true)
    (hobject : volume.object? number = some object) {current : UInt32}
    (hcurrent : object.flagWord = some current) (word : UInt32) :
    caller.setFlagWord ⟨number⟩ word volume =
      .ok ((), volume.put number { object with flagWord := some word }) := by
  have hmay : caller.mayFlag object current word = true := by
    simp [mayFlag, owns, hsuper]
  rw [setFlagWord_eq hobject hcurrent, if_pos hmay]

/-- For the superuser, a file or directory of a volume is a plain cell. -/
def flagCell (hsuper : caller.isSuperuser = true) (hnul : Bytes.nul ∉ path)
    (hfind : caller.find volume false path = .ok (number, object))
    (hkind : object.kind.hasFlagWord = true) : FlagCell caller.system where
  path
  handle := ⟨number⟩
  kind := object.kind
  hasFlagWord_eq := hkind
  Holds after := ∃ word, volume.Writes number { object with flagWord := some word } after
  word after := ((after.object? number).bind (·.flagWord)).getD 0
  openForFlags_eq := by
    rintro after ⟨word, hwrites⟩
    have hopens := openForFlags_of_isSuperuser hsuper hnul (hwrites.find hsuper hfind rfl) hkind
    exact hopens
  flagWord_eq := by
    rintro after ⟨word, hwrites⟩
    simp only [system, snapshot, flagWord, hwrites.object?_eq, if_true, Option.bind_some,
      Except.mapError, Option.getD_some]
  exists_setFlagWord := by
    rintro after new ⟨word, hwrites⟩
    have hset := setFlagWord_of_isSuperuser hsuper ((hwrites.object?_eq number).trans (if_pos rfl))
      rfl new
    refine ⟨_, by simp only [system, call, hset], ⟨new, hwrites.put _⟩, ?_⟩
    simp only [Volume.object?_put, if_true, Option.bind_some, Option.getD_some]

/-- A directory with a bit that is never restored and one that is. -/
def compressedDirectory : VolumeObject where
  body := .directory [] Volume.top
  permissions := 0o755
  uid := 0
  gid := 0
  modTime := 0
  linkCount := 2
  attributes := .empty
  flagWord := some (0x00080000 ||| Flags.Ioctl.compress)

def topCell : FlagCell (Caller.system {}) :=
  @flagCell {} (.empty 0 compressedDirectory.flagWord) [0x2F] Volume.top compressedDirectory rfl
    (by decide) (by cbv) rfl

/-- An entry of that directory, with a word for it. -/
def immutableDirectory : Entry :=
  { Entry.new [0x2F] 0o40755 with flags := some (Flags.Ioctl.noDump ||| Flags.Ioctl.immutable) }

/-- The stored word of an entry takes the place of the bit that is restored, and the other one
stays. -/
theorem early_late_topCell :
    let restorer : FlagRestorer := ⟨.privileged, .ioctl⟩
    let volume := Volume.empty 0 compressedDirectory.flagWord
    let begun := (restorer.restore (Caller.system {}) .earlyDirectory immutableDirectory
      (.named [0x2F]) .all).run volume
    let finished := (restorer.restore (Caller.system {}) .late immutableDirectory
      (.opened ⟨0⟩ []) .all).run begun.state
    topCell.word volume = 0x00080004 ∧ topCell.word finished.state = 0x00080050 ∧
      topCell.Settled restorer immutableDirectory 0x00000050 .all finished.state := by
  have hstate : topCell.Holds (.empty 0 compressedDirectory.flagWord) := ⟨_, Volume.Writes.refl rfl⟩
  have hkind : immutableDirectory.kind = topCell.kind := by cbv
  have hnamed : topCell.IsTarget (.named [0x2F]) := rfl
  have hopened : topCell.IsTarget (.opened ⟨0⟩ []) := rfl
  obtain ⟨-, -, hword, -, hsettled⟩ := @FlagCell.early_late _ _ topCell ⟨.privileged, .ioctl⟩
    immutableDirectory _ 0x00000050 rfl rfl hkind _ _ hnamed hopened hstate .all
  exact ⟨by cbv, hword.trans (by cbv), hsettled⟩

end Caller

end TreeManifest
