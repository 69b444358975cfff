import TreeManifest.Proofs.Restore.Effects

/-!
# Finishing a file again

A file that is finished a second time by an entry that asks for the same owner, permissions and time
stays as it is but for its attributes. A flag word that blocks changes keeps everything, and one that
does not makes no difference to what is changed. So where no attributes are asked for, it does not
matter whether the entry with the flag word comes first.

## Main definitions

- `Restore.Finisher.dressed`: a file when all but its flag word is finished.

## Main statements

- `Restore.Finisher.bare_dressed_dressed`: owner, permissions and time are settled at once.
- `Restore.Finisher.dressed_finished`: an entry without attributes and flag word can be finished
  before or after another one without attributes.
-/

namespace TreeManifest

variable {object other : VolumeObject}

/-! ## Objects -/

theorem VolumeObject.isFrozen_congr (h : object.flagWord = other.flagWord) :
    object.isFrozen = other.isFrozen := by
  rw [isFrozen, hasFlag, h]
  rfl

/-- Objects that agree but for their attributes differ in them at most. -/
theorem VolumeObject.eq_of_bare_eq (h : object.bare = other.bare) :
    object = { other with attributes := object.attributes } := by
  cases object
  cases other
  simp only [VolumeObject.bare, VolumeObject.mk.injEq] at h ⊢
  exact ⟨h.1, h.2.1, h.2.2.1, h.2.2.2.1, h.2.2.2.2.1, h.2.2.2.2.2.1, trivial, h.2.2.2.2.2.2.2⟩

namespace Caller

variable {caller : Caller}

/-- What a change of owner has taken away stays away. -/
theorem afterOwnerChange_again (hdirectory : other.isDirectory = object.isDirectory)
    (h : other.permissions = afterOwnerChange object) :
    afterOwnerChange other = other.permissions := by
  unfold afterOwnerChange at h ⊢
  dsimp only at h ⊢
  rw [hdirectory]
  split
  · rfl
  · next hfile =>
    rw [if_neg hfile] at h
    have hcleared : other.permissions &&& ~~~setUserId = other.permissions := by
      rw [h]
      split
      · rw [UInt32.and_assoc, UInt32.and_comm (~~~setGroupId), ← UInt32.and_assoc,
          UInt32.and_assoc object.permissions, UInt32.and_self]
      · rw [UInt32.and_assoc, UInt32.and_self]
    rw [hcleared]
    split
    · next hexecute =>
      split at h
      · rw [h, UInt32.and_assoc, UInt32.and_self]
      · next hkept =>
        rw [h] at hexecute
        exact absurd hexecute hkept
    · rfl

/-- The rights to the attributes of an object come down to a few of its properties. -/
theorem attributeRights_congr (hkind : object.kind = other.kind)
    (hfrozen : object.isFrozen = other.isFrozen)
    (hguards : caller.guardsAttributes object = caller.guardsAttributes other)
    (hread : caller.may .read object = caller.may .read other)
    (hwrite : caller.may .write object = caller.may .write other) :
    caller.attributeRights object = caller.attributeRights other := by
  have hreading : caller.checkReading object = caller.checkReading other := by
    funext name
    simp only [checkReading, hkind, hread]
  have hchange : caller.checkChange object = caller.checkChange other := by
    funext name
    simp only [checkChange, checkAttributeChange, hkind, hfrozen, hguards, hwrite]
  simp only [attributeRights, hreading, hchange]

/-- Nobody changes the attributes of a frozen object. -/
theorem isNone_refusal_checkChange (hfrozen : object.isFrozen = true) (name : String) :
    (refusal (caller.checkChange object name)).isNone = false := by
  simp only [checkChange, checkAttributeChange, bind, Except.bind, hfrozen]
  by_cases hnul : '\x00' ∈ name.toList
  · simp [hnul, refusal]
  · simp only [hnul, if_false]
    cases AttributeSpace.checkLength name <;> simp [refusal]

/-- Only the superuser freezes an object by its flag word. -/
theorem isSuperuser_of_mayFlag {current updated : UInt32}
    (hmay : caller.mayFlag object current updated = true)
    (hcurrent : current &&& Flags.Ioctl.immutableClass = 0)
    (hupdated : updated &&& Flags.Ioctl.immutableClass ≠ 0) : caller.isSuperuser = true := by
  simp only [mayFlag, Bool.and_eq_true, Bool.or_eq_true, beq_iff_eq] at hmay
  rcases hmay.2 with hsuper | hblocking
  · exact hsuper
  · -- The blocking bits of both words would be the same.
    have hsame : ∀ mask : UInt32, (current ^^^ updated) &&& mask = 0 →
        updated &&& mask = current &&& mask := by
      intro mask h
      rw [← UInt32.toBitVec_inj] at h ⊢
      apply BitVec.eq_of_getLsbD_eq
      intro bit hbit
      have hbits := congrArg (BitVec.getLsbD · bit) h
      simp only [UInt32.toBitVec_and, UInt32.toBitVec_xor, BitVec.getLsbD_and,
        BitVec.getLsbD_xor] at hbits ⊢
      revert hbits
      cases current.toBitVec.getLsbD bit <;> cases updated.toBitVec.getLsbD bit <;>
        cases mask.toBitVec.getLsbD bit <;> simp
    exact absurd ((hsame _ hblocking).trans hcurrent) hupdated

end Caller

namespace Restore.Finisher

variable (finisher : Finisher) {entry : Entry}

def dressed (entry : Entry) (object : VolumeObject) : VolumeObject :=
  finisher.timed entry
    (finisher.permitted entry (finisher.attributed entry (finisher.owned entry object)))

/-- What dressing makes of a file: an owned one with attributes and, if the caller may direct it,
permissions and time. -/
theorem dressed_eq (entry : Entry) (object : VolumeObject) : finisher.dressed entry object =
    if finisher.caller.mayDirect (finisher.owned entry object) then
      { finisher.attributed entry (finisher.owned entry object) with
        permissions := finisher.caller.admitted (finisher.owned entry object) entry.permissions
        modTime := entry.modTime }
    else finisher.attributed entry (finisher.owned entry object) := by
  have hmay : finisher.caller.mayDirect (finisher.attributed entry (finisher.owned entry object)) =
    finisher.caller.mayDirect (finisher.owned entry object) := rfl
  unfold dressed permitted
  rw [hmay]
  split
  · next hdirect => exact if_pos hdirect
  · next hdirect => exact if_neg hdirect

@[simp] theorem flagWord_owned (entry : Entry) (object : VolumeObject) :
    (finisher.owned entry object).flagWord = object.flagWord := by
  unfold owned Caller.given
  repeat' split
  all_goals rfl

@[simp] theorem flagWord_dressed (entry : Entry) (object : VolumeObject) :
    (finisher.dressed entry object).flagWord = object.flagWord := by
  rw [dressed_eq]
  split
  · exact finisher.flagWord_owned entry object
  · exact finisher.flagWord_owned entry object

@[simp] theorem kind_dressed (entry : Entry) (object : VolumeObject) :
    (finisher.dressed entry object).kind = object.kind := by
  have hbody : (finisher.dressed entry object).body = object.body := by simp [dressed, attributed]
  rw [VolumeObject.kind, VolumeObject.kind, hbody]

/-- Dressing neither freezes a file nor thaws it. -/
theorem isFrozen_dressed (entry : Entry) (object : VolumeObject) :
    (finisher.dressed entry object).isFrozen = object.isFrozen :=
  VolumeObject.isFrozen_congr (finisher.flagWord_dressed entry object)

/-- Where owner and group are those that were given, they are kept. The permissions can lose again
what they have lost already. -/
theorem owned_cases (huid : other.uid = (finisher.owned entry object).uid)
    (hgid : other.gid = (finisher.owned entry object).gid)
    (hfrozen : other.isFrozen = object.isFrozen) : finisher.owned entry other = other ∨
      finisher.owned entry other = { other with permissions := Caller.afterOwnerChange other } ∧
        (finisher.owned entry object).permissions = Caller.afterOwnerChange object := by
  unfold owned at huid hgid ⊢
  cases howner : finisher.owner? entry with
  | none => exact .inl rfl
  | some owner =>
    obtain ⟨uid, gid⟩ := owner
    simp only [howner] at huid hgid ⊢
    by_cases hsame : (object.uid.toUInt64.toInt64, object.gid.toUInt64.toInt64) =
      (entry.uid, entry.gid)
    · rw [if_pos hsame] at huid hgid
      rw [huid, hgid]
      exact .inl (if_pos hsame)
    · simp only [if_neg hsame, Caller.given] at huid hgid ⊢
      by_cases hmay : finisher.caller.mayGive uid gid object = true
      · simp only [if_pos hmay] at huid hgid ⊢
        have hkept : ∀ kept wanted held : UInt32,
            held = (if wanted = Caller.keepId then kept else wanted) →
              (if wanted = Caller.keepId then held else wanted) = held := by
          intro kept wanted held hheld
          split
          · rfl
          · next hchanged => rw [hheld, if_neg hchanged]
        rw [hkept _ _ _ huid, hkept _ _ _ hgid]
        split
        · exact .inl rfl
        · split
          · exact .inr ⟨rfl, trivial⟩
          · exact .inl rfl
      · simp only [if_neg hmay] at huid hgid
        have hagain : finisher.caller.mayGive uid gid other =
            finisher.caller.mayGive uid gid object := by
          rw [Caller.mayGive, Caller.mayGive, huid, hgid, hfrozen]
        rw [hagain, if_neg hmay, ite_self]
        exact .inl rfl

/-- Whether a caller may direct an object depends on its flag word and owner. -/
theorem mayDirect_congr (hflags : other.flagWord = object.flagWord) (huid : other.uid = object.uid) :
    finisher.caller.mayDirect other = finisher.caller.mayDirect object := by
  rw [Caller.mayDirect, Caller.mayDirect, VolumeObject.isFrozen_congr hflags, Caller.owns,
    Caller.owns, huid]

/-- But for attributes, a file that is finished again stays as it is. -/
theorem bare_dressed_dressed (entry : Entry) (object : VolumeObject) :
    (finisher.dressed entry (finisher.dressed entry object)).bare =
      (finisher.dressed entry object).bare := by
  have huid : (finisher.dressed entry object).uid = (finisher.owned entry object).uid := by
    rw [dressed_eq]
    split <;> rfl
  have hgid : (finisher.dressed entry object).gid = (finisher.owned entry object).gid := by
    rw [dressed_eq]
    split <;> rfl
  have hflags : (finisher.owned entry (finisher.dressed entry object)).flagWord =
      (finisher.owned entry object).flagWord := by simp
  have hcases := finisher.owned_cases huid hgid (finisher.isFrozen_dressed entry object)
  have hsameUid : (finisher.owned entry (finisher.dressed entry object)).uid =
      (finisher.owned entry object).uid := by
    rcases hcases with hkept | ⟨hkept, -⟩
    · rw [hkept, huid]
    · rw [hkept, ← huid]
  have hsameGid : (finisher.owned entry (finisher.dressed entry object)).gid =
      (finisher.owned entry object).gid := by
    rcases hcases with hkept | ⟨hkept, -⟩
    · rw [hkept, hgid]
    · rw [hkept, ← hgid]
  have hmay := finisher.mayDirect_congr hflags hsameUid
  rw [dressed_eq finisher entry (finisher.dressed entry object), hmay]
  by_cases hdirect : finisher.caller.mayDirect (finisher.owned entry object) = true
  · have hadmitted : finisher.caller.admitted
        (finisher.owned entry (finisher.dressed entry object)) entry.permissions =
        finisher.caller.admitted (finisher.owned entry object) entry.permissions := by
      rw [Caller.admitted, Caller.admitted, hsameGid]
    rw [if_pos hdirect, hadmitted]
    rcases hcases with hkept | ⟨hkept, -⟩
    · rw [hkept, dressed_eq, if_pos hdirect]
      rfl
    · rw [hkept, dressed_eq, if_pos hdirect]
      rfl
  · rw [if_neg hdirect]
    have hdressed : finisher.dressed entry object =
        finisher.attributed entry (finisher.owned entry object) := by
      rw [dressed_eq, if_neg hdirect]
    have hkept : finisher.owned entry (finisher.dressed entry object) =
        finisher.dressed entry object := by
      rcases hcases with hkept | ⟨hkept, htaken⟩
      · exact hkept
      · have hagain : Caller.afterOwnerChange (finisher.dressed entry object) =
            (finisher.dressed entry object).permissions := by
          have hlost : (finisher.dressed entry object).permissions =
              Caller.afterOwnerChange object := by
            rw [hdressed]
            exact htaken
          refine Caller.afterOwnerChange_again ?_ hlost
          rw [VolumeObject.isDirectory, VolumeObject.isDirectory, kind_dressed]
        rw [hkept, hagain]
    rw [hkept]
    rfl

/-- Giving a file away keeps its attributes. -/
theorem attributes_owned (entry : Entry) (object : VolumeObject) :
    (finisher.owned entry object).attributes = object.attributes := by
  unfold owned Caller.given
  repeat' split
  all_goals rfl

/-- The attributes of a dressed file are those that the rights of the caller leave. -/
theorem attributes_dressed (entry : Entry) (object : VolumeObject) :
    (finisher.dressed entry object).attributes = NativeAttributes.left finisher.privilege
      (finisher.caller.attributeRights (finisher.owned entry object))
      (entry.attributes.getD .empty) object.attributes := by
  rw [← attributes_owned finisher entry object, dressed_eq]
  split <;> rfl

/-- The superuser removes at once all attributes that it can remove. -/
theorem dressed_dressed_of_superuser (hsuper : finisher.caller.isSuperuser = true)
    (hattributes : entry.attributes = none) (object : VolumeObject) :
    finisher.dressed entry (finisher.dressed entry object) = finisher.dressed entry object := by
  have hrights : finisher.caller.attributeRights
      (finisher.owned entry (finisher.dressed entry object)) =
      finisher.caller.attributeRights (finisher.owned entry object) := by
    refine Caller.attributeRights_congr ?_ (VolumeObject.isFrozen_congr (by simp))
      (by simp [Caller.guardsAttributes, Caller.owns, hsuper]) (by simp [Caller.may, hsuper])
      (by simp [Caller.may, hsuper])
    rw [VolumeObject.kind, VolumeObject.kind, body_owned, body_owned]
    exact finisher.kind_dressed entry object
  have hleft : (finisher.dressed entry (finisher.dressed entry object)).attributes =
      (finisher.dressed entry object).attributes := by
    rw [attributes_dressed, hrights, attributes_dressed, hattributes]
    exact NativeAttributes.left_left_empty _ _ _
  rw [VolumeObject.eq_of_bare_eq (finisher.bare_dressed_dressed entry object), hleft]

/-- A frozen file keeps everything. -/
theorem dressed_of_isFrozen (hfrozen : object.isFrozen = true) (entry : Entry) :
    finisher.dressed entry object = object := by
  have howned : finisher.owned entry object = object := by
    unfold owned
    split
    · rfl
    · split
      · rfl
      · exact if_neg (by simp [Caller.mayGive, hfrozen])
  have hattributed : finisher.attributed entry object = object := by
    rw [attributed, NativeAttributes.left_of_refused
      (fun name _ => Caller.isNone_refusal_checkChange hfrozen name)
      (Caller.isNone_refusal_checkChange hfrozen)]
  rw [dressed_eq, howned, hattributed, Caller.mayDirect, hfrozen]
  rfl

/-- A word that leaves a file as changeable as it is makes no difference to what is changed. -/
theorem dressed_flagWord {word : Option UInt32}
    (h : { object with flagWord := word }.isFrozen = object.isFrozen) (entry : Entry) :
    finisher.dressed entry { object with flagWord := word } =
      { finisher.dressed entry object with flagWord := word } := by
  have howned : finisher.owned entry { object with flagWord := word } =
      { finisher.owned entry object with flagWord := word } := by
    have hmay : ∀ uid gid, finisher.caller.mayGive uid gid { object with flagWord := word } =
        finisher.caller.mayGive uid gid object := fun uid gid => by
      rw [Caller.mayGive, Caller.mayGive, h]
    unfold owned Caller.given
    split
    · rfl
    · split
      · rfl
      · rw [hmay]
        split <;> rfl
  have hfrozen : { finisher.owned entry object with flagWord := word }.isFrozen =
      (finisher.owned entry object).isFrozen :=
    h.trans (VolumeObject.isFrozen_congr (finisher.flagWord_owned entry object).symm)
  have hrights : finisher.caller.attributeRights
      { finisher.owned entry object with flagWord := word } =
      finisher.caller.attributeRights (finisher.owned entry object) :=
    Caller.attributeRights_congr rfl hfrozen rfl rfl rfl
  have hdirect : finisher.caller.mayDirect { finisher.owned entry object with flagWord := word } =
      finisher.caller.mayDirect (finisher.owned entry object) := by
    rw [Caller.mayDirect, Caller.mayDirect, hfrozen]
    rfl
  rw [dressed_eq, dressed_eq, howned, hdirect, attributed, hrights]
  split <;> rfl

/-- Setting flags changes the flag word at most. -/
theorem exists_flagged (entry : Entry) (object : VolumeObject) :
    ∃ word, finisher.flagged entry object = { object with flagWord := word } := by
  unfold flagged
  split
  · dsimp only
    split
    · exact ⟨_, rfl⟩
    · exact ⟨_, rfl⟩
  · exact ⟨_, rfl⟩

/-- Attributes make no difference to what is done with flags. -/
theorem flagged_attributes (entry : Entry) (object : VolumeObject) (attributes : AttributeMap) :
    finisher.flagged entry { object with attributes } =
      { finisher.flagged entry object with attributes } := by
  unfold flagged
  cases entry.flags with
  | none => rfl
  | some stored =>
    cases hcurrent : object.flagWord with
    | none => simp only [hcurrent]
    | some current =>
      simp only
      by_cases happlies : finisher.restorer.family = .ioctl ∧
          finisher.caller.may .read object = true ∧ finisher.caller.mayFlag object current
            (Flags.merge current stored
              (finisher.restorer.effectiveBits .late finisher.options.flagMask)) = true
      · rw [if_pos happlies]
        exact if_pos happlies
      · rw [if_neg happlies]
        exact (if_neg happlies).trans (by rw [hcurrent])

/-- Only the superuser freezes a file in the late phase. -/
theorem isSuperuser_of_isFrozen_flagged (hthawed : object.isFrozen = false)
    (hfrozen : (finisher.flagged entry object).isFrozen = true) :
    finisher.caller.isSuperuser = true := by
  unfold flagged at hfrozen
  split at hfrozen
  · next stored current hstored hcurrent =>
    dsimp only at hfrozen
    split at hfrozen
    · next happlies =>
      refine Caller.isSuperuser_of_mayFlag happlies.2.2 ?_ ?_
      · simpa [VolumeObject.isFrozen, VolumeObject.hasFlag, hcurrent] using hthawed
      · simpa [VolumeObject.isFrozen, VolumeObject.hasFlag] using hfrozen
    · rw [hthawed] at hfrozen
      cases hfrozen
  · rw [hthawed] at hfrozen
    cases hfrozen

/-- To finish a file once more makes no difference before or after the entry with the flag word, if
there are no attributes. -/
theorem dressed_finished (hthawed : object.isFrozen = false) (hattributes : entry.attributes = none) :
    finisher.dressed entry (finisher.finished entry object) =
      finisher.finished entry (finisher.dressed entry object) := by
  change finisher.dressed entry (finisher.flagged entry (finisher.dressed entry object)) =
    finisher.flagged entry (finisher.dressed entry (finisher.dressed entry object))
  have hdressed : (finisher.dressed entry object).isFrozen = false :=
    (finisher.isFrozen_dressed entry object).trans hthawed
  cases hflagged : (finisher.flagged entry (finisher.dressed entry object)).isFrozen with
  | true =>
    rw [finisher.dressed_of_isFrozen hflagged, finisher.dressed_dressed_of_superuser
      (finisher.isSuperuser_of_isFrozen_flagged hdressed hflagged) hattributes]
  | false =>
    obtain ⟨word, hword⟩ := finisher.exists_flagged entry (finisher.dressed entry object)
    have hagain := VolumeObject.eq_of_bare_eq (finisher.bare_dressed_dressed entry object)
    have hthaws : { finisher.dressed entry object with flagWord := word }.isFrozen =
        (finisher.dressed entry object).isFrozen := by
      rw [← hword, hflagged, hdressed]
    calc finisher.dressed entry (finisher.flagged entry (finisher.dressed entry object))
        = { finisher.dressed entry (finisher.dressed entry object) with flagWord := word } := by
          rw [hword, finisher.dressed_flagWord hthaws]
      _ = { finisher.flagged entry (finisher.dressed entry object) with
            attributes := (finisher.dressed entry (finisher.dressed entry object)).attributes } := by
          rw [hword]
          exact congrArg (fun object : VolumeObject => { object with flagWord := word }) hagain
      _ = finisher.flagged entry { finisher.dressed entry object with
            attributes := (finisher.dressed entry (finisher.dressed entry object)).attributes } :=
          (finisher.flagged_attributes _ _ _).symm
      _ = finisher.flagged entry (finisher.dressed entry (finisher.dressed entry object)) :=
          congrArg (finisher.flagged entry) hagain.symm

end Restore.Finisher

end TreeManifest
