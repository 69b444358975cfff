import TreeManifest.Proofs.Restore.Again
import TreeManifest.Proofs.Walk.Groups

/-!
# Finishing the names of a file in different orders

A link carries neither attributes nor a flag word, and finishing treats the two differently: without
a word the word of the file is left alone, but without attributes those of the file are removed. So
the order in which the names of a file are finished decides which attributes the file ends with. For
owner, permissions, time and flag word it is of no account.

## Main definitions

- `Entry.bare`: an entry without its attributes.
- `Restore.Finisher.acting`: what finishing a member of a group does to a file, by its role.
- `Restore.Finisher.after`: a volume after entries are finished.

## Main statements

- `Restore.Finisher.foldr_finished_of_perm`: a group without attributes is finished in any order.
- `Restore.Finisher.bare_foldr_of_perm`: any other one is as well, but for the attributes.
- `Restore.finishAll_orders`: the same for the names of a file in the outcome of a walk.
-/

namespace TreeManifest

variable {entry other canonical : Entry} {links order first second : List Entry}
  {object : VolumeObject}

def Entry.bare (entry : Entry) : Entry := { entry with attributes := none }

theorem Entry.bare_eq_self (h : entry.attributes = none) : entry.bare = entry := by
  rw [bare, ← h]

namespace Hardlink.IsGroup

/-- The members of a group are a group without the attributes as well. -/
theorem bare (h : IsGroup canonical links) : IsGroup canonical.bare (links.map Entry.bare) where
  role_eq := h.role_eq
  isLink := List.forall_mem_map.2 h.isLink
  attributes_eq_none := List.forall_mem_map.2 fun _ _ => rfl
  flags_eq_none := List.forall_mem_map.2 h.flags_eq_none
  sameStat := List.forall_mem_map.2 fun link hlink =>
    ⟨(h.sameStat link hlink).mode_eq, (h.sameStat link hlink).modTime_eq,
      (h.sameStat link hlink).uid_eq, (h.sameStat link hlink).gid_eq⟩

end Hardlink.IsGroup

namespace Restore

/-- Some names of a file are names of that file. -/
theorem AreNames.subset {caller : Caller} {root : Path} {volume : Volume} {number : Nat}
    (h : AreNames caller root volume second number object) (hsubset : first ⊆ second) :
    AreNames caller root volume first number object where
  isFile := h.isFile
  kind_eq entry hentry := h.kind_eq entry (hsubset hentry)
  nul_notMem entry hentry := h.nul_notMem entry (hsubset hentry)
  find_eq entry hentry := h.find_eq entry (hsubset hentry)

namespace Finisher

variable (finisher : Finisher)

/-! ## One member -/

/-- Entries with the same metadata dress a file alike. -/
theorem dressed_congr (h : entry.SameStat other) (hattributes : entry.attributes = other.attributes)
    (object : VolumeObject) : finisher.dressed entry object = finisher.dressed other object := by
  have howner : finisher.owner? entry = finisher.owner? other := by
    simp only [owner?, h.uid_eq, h.gid_eq]
  have howned : finisher.owned entry object = finisher.owned other object := by
    simp only [owned, howner, h.uid_eq, h.gid_eq]
  have hpermissions : entry.permissions = other.permissions := by
    rw [Entry.permissions, h.mode_eq]
    rfl
  simp only [dressed_eq, attributed, howned, hattributes, hpermissions, h.modTime_eq]

/-- Without a flag word, finishing is dressing. -/
theorem finished_of_flags_eq_none (h : entry.flags = none) (object : VolumeObject) :
    finisher.finished entry object = finisher.dressed entry object := by
  rw [finished, flagged, h]
  rfl

/-- What finishing a member of a group does to a file. A link acts as the canonical entry would
without attributes and flag word. -/
def acting (canonical : Entry) : HardlinkRole → VolumeObject → VolumeObject
  | .canonical => finisher.finished canonical
  | _ => finisher.dressed canonical.bare

/-- A hard link finishes a file as its canonical entry without attributes and flags does. -/
theorem finished_link (h : Hardlink.IsGroup canonical links) {link : Entry} (hlink : link ∈ links) :
    finisher.finished link = finisher.dressed canonical.bare := by
  funext object
  obtain ⟨hmode, htime, huid, hgid⟩ := h.sameStat link hlink
  have hstat : link.SameStat canonical.bare := ⟨hmode, htime, huid, hgid⟩
  rw [finisher.finished_of_flags_eq_none (h.flags_eq_none link hlink)]
  exact finisher.dressed_congr hstat (h.attributes_eq_none link hlink) object

/-- What an entry of a group does to the file depends on its role only. -/
theorem finished_eq_acting (h : Hardlink.IsGroup canonical links)
    (hentry : entry ∈ canonical :: links) :
    finisher.finished entry = finisher.acting canonical entry.role := by
  rcases List.mem_cons.1 hentry with rfl | hlink
  · rw [h.role_eq]
    rfl
  · rw [h.isLink entry hlink]
    exact finisher.finished_link h hlink

/-! ## Orders -/

/-- It matters only where in an order the canonical entry stands. -/
theorem foldr_eq_of_map_role_eq (h : Hardlink.IsGroup canonical links)
    (hfirst : first ⊆ canonical :: links) (hsecond : second ⊆ canonical :: links)
    (hroles : first.map (·.role) = second.map (·.role)) (object : VolumeObject) :
    first.foldr finisher.finished object = second.foldr finisher.finished object := by
  have hacting : ∀ order ⊆ canonical :: links, order.foldr finisher.finished object =
      (order.map (·.role)).foldr (finisher.acting canonical) object := by
    intro order hsubset
    rw [List.foldr_map]
    exact List.foldr_ext _ _ _ fun entry hentry object =>
      congrFun (finisher.finished_eq_acting h (hsubset hentry)) object
  rw [hacting first hfirst, hacting second hsecond, hroles]

/-- Links do the same to a file one after the other. -/
theorem foldr_links (h : Hardlink.IsGroup canonical links) (hsubset : order ⊆ links)
    (object : VolumeObject) : order.foldr finisher.finished object =
      (finisher.dressed canonical.bare)^[order.length] object := by
  induction order with
  | nil => rfl
  | cons link rest ih =>
    obtain ⟨hlink, hrest⟩ := List.cons_subset.1 hsubset
    rw [List.foldr_cons, ih hrest, finisher.finished_link h hlink, List.length_cons,
      Function.iterate_succ_apply']

/-- Dressing an unfrozen file and finishing it can be exchanged, if there are no attributes to
set. -/
theorem iterate_dressed_finished (hattributes : entry.attributes = none) (count : Nat)
    {object : VolumeObject} (hthawed : object.isFrozen = false) :
    (finisher.dressed entry)^[count] (finisher.finished entry object) =
      finisher.finished entry ((finisher.dressed entry)^[count] object) := by
  induction count generalizing object with
  | zero => rfl
  | succ count ih =>
    rw [Function.iterate_succ_apply, Function.iterate_succ_apply,
      finisher.dressed_finished hthawed hattributes]
    exact ih ((finisher.isFrozen_dressed entry object).trans hthawed)

/-- Dressing neither freezes a file nor thaws it. -/
theorem isFrozen_iterate_dressed (entry : Entry) (count : Nat) (object : VolumeObject) :
    ((finisher.dressed entry)^[count] object).isFrozen = object.isFrozen := by
  induction count with
  | zero => rfl
  | succ count ih => rw [Function.iterate_succ_apply', isFrozen_dressed, ih]

/-- A group without attributes is finished in any order as if the canonical entry came last. -/
theorem foldr_finished_of_perm (h : Hardlink.IsGroup canonical links)
    (hattributes : canonical.attributes = none) (hthawed : object.isFrozen = false)
    (hperm : order.Perm (canonical :: links)) : order.foldr finisher.finished object =
      finisher.finished canonical ((finisher.dressed canonical)^[links.length] object) := by
  -- The links on both sides of the canonical entry do the same, so only their number counts.
  obtain ⟨front, back, rfl⟩ := List.append_of_mem (hperm.mem_iff.2 List.mem_cons_self)
  have hlinks : (front ++ back).Perm links := (List.perm_middle.symm.trans hperm).cons_inv
  obtain ⟨hfront, hback⟩ := List.append_subset.1 hlinks.subset
  calc (front ++ canonical :: back).foldr finisher.finished object
      = (finisher.dressed canonical)^[front.length] (finisher.finished canonical
          ((finisher.dressed canonical)^[back.length] object)) := by
        rw [List.foldr_append, List.foldr_cons, finisher.foldr_links h hfront,
          finisher.foldr_links h hback, Entry.bare_eq_self hattributes]
    _ = finisher.finished canonical ((finisher.dressed canonical)^[front.length]
          ((finisher.dressed canonical)^[back.length] object)) :=
        finisher.iterate_dressed_finished hattributes _
          ((finisher.isFrozen_iterate_dressed _ _ _).trans hthawed)
    _ = finisher.finished canonical ((finisher.dressed canonical)^[links.length] object) := by
        rw [← Function.iterate_add_apply, ← List.length_append, hlinks.length_eq]

/-! ## Without the attributes -/

theorem bare_flagged (entry : Entry) (object : VolumeObject) :
    (finisher.flagged entry object).bare = finisher.flagged entry object.bare :=
  (finisher.flagged_attributes entry object .empty).symm

theorem bare_owned (entry : Entry) (object : VolumeObject) :
    finisher.owned entry.bare object.bare = (finisher.owned entry object).bare := by
  have howner : finisher.owner? entry.bare = finisher.owner? entry := rfl
  unfold owned Caller.given
  rw [howner]
  cases finisher.owner? entry with
  | none => rfl
  | some owner =>
    dsimp only
    rw [apply_ite VolumeObject.bare, apply_ite VolumeObject.bare]
    rfl

theorem bare_dressed (entry : Entry) (object : VolumeObject) :
    (finisher.dressed entry object).bare = (finisher.dressed entry.bare object.bare).bare := by
  rw [dressed_eq, dressed_eq, bare_owned]
  have hmay : finisher.caller.mayDirect (finisher.owned entry object).bare =
    finisher.caller.mayDirect (finisher.owned entry object) := rfl
  rw [hmay]
  split <;> rfl

/-- Attributes are of no account for the rest. -/
theorem bare_finished (entry : Entry) (object : VolumeObject) :
    (finisher.finished entry object).bare =
      (finisher.finished entry.bare object.bare).bare := by
  change (finisher.flagged entry (finisher.dressed entry object)).bare =
    (finisher.flagged entry (finisher.dressed entry.bare object.bare)).bare
  rw [bare_flagged, bare_flagged, bare_dressed]

/-- Finishing in any order, but for the attributes, is finishing without them. -/
theorem bare_foldr (order : List Entry) (object : VolumeObject) :
    (order.foldr finisher.finished object).bare =
      ((order.map Entry.bare).foldr finisher.finished object).bare := by
  induction order with
  | nil => rfl
  | cons entry rest ih =>
    rw [List.foldr_cons, List.map_cons, List.foldr_cons, bare_finished, ih]
    exact (finisher.bare_finished entry.bare _).symm

/-- But for the attributes, a group is finished in any order as if it had none. -/
theorem bare_foldr_of_perm (h : Hardlink.IsGroup canonical links)
    (hthawed : object.isFrozen = false) (hperm : order.Perm (canonical :: links)) :
    (order.foldr finisher.finished object).bare = (finisher.finished canonical.bare
      ((finisher.dressed canonical.bare)^[links.length] object)).bare := by
  rw [bare_foldr, finisher.foldr_finished_of_perm h.bare rfl hthawed (hperm.map Entry.bare),
    List.length_map]

/-! ## Outcomes of walks -/

/-- A volume after entries below a root are finished with the native attributes. -/
def after (root : Path) (order : List Entry) (volume : Volume) : Volume :=
  ((finishAll finisher.caller.system root
    (NativeAttributes.provider finisher.privilege finisher.caller.system) finisher.restorer
    finisher.options order).run volume).state

end Finisher

section Outcomes

variable {lister : Lister} {config : WalkConfig} {outcome : WalkOutcome} {identity : ObjectId}
  {root : Path} {volume : Volume} {number : Nat}

/-- The names of a file in the outcome of a walk can be finished in any order: the file ends with
the same owner, permissions, time and flag word, and nothing else in the volume changes. It ends
with the same attributes if it has none in the outcome, or if the canonical entry has the same place
in both orders. A file that has just been made under several names is not frozen, since a frozen one
is given no further name. -/
theorem finishAll_orders (finisher : Finisher) (htree : lister.IsTree)
    (h : Walk.Yields lister config outcome) (hentry : entry ∈ outcome.entries)
    (hgroup : Hardlink.groupOf entry = some identity)
    (hnames : AreNames finisher.caller root volume (Hardlink.members identity outcome.entries)
      number object) (hthawed : object.isFrozen = false)
    (hfirst : first.Perm (Hardlink.members identity outcome.entries))
    (hsecond : second.Perm (Hardlink.members identity outcome.entries)) : ∃ one another,
      volume.Writes number one (finisher.after root first volume) ∧
      volume.Writes number another (finisher.after root second volume) ∧
      one.bare = another.bare ∧
      ((∀ member ∈ Hardlink.members identity outcome.entries, member.attributes = none) ∨
        first.map (·.role) = second.map (·.role) → one = another) := by
  obtain ⟨canonical, links, hmembers, hlinks⟩ := h.exists_isGroup htree hentry hgroup
  rw [hmembers] at hnames hfirst hsecond ⊢
  have hobject : volume.object? number = some object :=
    (Caller.find_eq_ok_iff.1 (hnames.find_eq canonical List.mem_cons_self)).2
  refine ⟨first.foldr finisher.finished object, second.foldr finisher.finished object,
    finisher.writes_finishAll hobject (hnames.subset hfirst.subset),
    finisher.writes_finishAll hobject (hnames.subset hsecond.subset), ?_, ?_⟩
  · rw [finisher.bare_foldr_of_perm hlinks hthawed hfirst,
      finisher.bare_foldr_of_perm hlinks hthawed hsecond]
  · rintro (hattributes | hroles)
    · have hnone := hattributes canonical List.mem_cons_self
      rw [finisher.foldr_finished_of_perm hlinks hnone hthawed hfirst,
        finisher.foldr_finished_of_perm hlinks hnone hthawed hsecond]
    · exact finisher.foldr_eq_of_map_role_eq hlinks hfirst.subset hsecond.subset hroles object

end Outcomes

/-! ## A file with two names -/

/-- The canonical entry of the file with two names. -/
def notedName : Entry :=
  { Entry.ofStat [0x61] (Walk.linkedStat true) with
    attributes := some (.ofList [("user.note", [1])])
    flags := some Flags.Ioctl.noDump
    role := .canonical }

def furtherName : Entry :=
  Hardlink.demote [0x61] (.ofStat [0x64, 0x2F, 0x62] (Walk.linkedStat true))

/-- A volume in which the file has just been made under both names. -/
def aliasedFile : Volume where
  objects := [
    (0, { aliasedObject with
      body := .directory [([0x61], 1), ([0x64], 2)] 0
      permissions := 0o755 }),
    (1, aliasedObject),
    (2, { aliasedObject with body := .directory [([0x62], 1)] 0, permissions := 0o755 })]
  next := 3
  now := 0
where
  /-- The file. -/
  aliasedObject : VolumeObject := ⟨.file [], 0o600, 0, 0, 0, 2, .empty, some 0⟩

/-- The superuser, who restores everything. -/
def Finisher.superuser : Finisher := ⟨{}, .privileged, ⟨.privileged, .native⟩, {}⟩

theorem areNames_aliasedFile : AreNames Finisher.superuser.caller [0x2F] aliasedFile
    [notedName, furtherName] 1 aliasedFile.aliasedObject where
  isFile := ⟨[], rfl⟩
  kind_eq := by decide
  nul_notMem := by decide
  find_eq entry hentry := by
    rcases List.mem_pair.1 hentry with rfl | rfl
    · cbv
    · cbv

/-- The names of the file are a group in the outcome of a walk. -/
theorem exists_members_linkedTree :
    ∃ outcome, Walk.Yields Walk.linkedTree (.ofProcessors 1) outcome ∧
      notedName ∈ outcome.entries ∧
      AreNames Finisher.superuser.caller [0x2F] aliasedFile
        (Hardlink.members ⟨1, 7⟩ outcome.entries) 1 aliasedFile.aliasedObject ∧
      [notedName, furtherName].Perm (Hardlink.members ⟨1, 7⟩ outcome.entries) ∧
      [furtherName, notedName].Perm (Hardlink.members ⟨1, 7⟩ outcome.entries) := by
  obtain ⟨outcome, hyields, hmembers⟩ :
      ∃ outcome, Walk.Yields Walk.linkedTree (.ofProcessors 1) outcome ∧
        Hardlink.members ⟨1, 7⟩ outcome.entries = [notedName, furtherName] :=
    Walk.exists_yields_of_runFrom 30 (by cbv) (by cbv)
  have hmember : notedName ∈ Hardlink.members ⟨1, 7⟩ outcome.entries := by
    rw [hmembers]
    exact List.mem_cons_self
  refine ⟨outcome, hyields, (List.mem_filter.1 hmember).1, ?_⟩
  rw [hmembers]
  exact ⟨areNames_aliasedFile, .refl _, .swap notedName furtherName []⟩

/-- The two names of the file in both orders. -/
theorem finishAll_orders_aliasedFile : ∃ one another,
    aliasedFile.Writes 1 one
      (Finisher.superuser.after [0x2F] [notedName, furtherName] aliasedFile) ∧
    aliasedFile.Writes 1 another
      (Finisher.superuser.after [0x2F] [furtherName, notedName] aliasedFile) ∧
    one.bare = another.bare := by
  obtain ⟨outcome, hyields, hentry, hnames, hfirst, hsecond⟩ := exists_members_linkedTree
  obtain ⟨one, another, hone, hanother, hbare, -⟩ := finishAll_orders Finisher.superuser
    Walk.isTree_linkedTree hyields hentry (by decide) hnames (by decide) hfirst hsecond
  exact ⟨one, another, hone, hanother, hbare⟩

/-- The file keeps its attribute if the canonical entry is finished last, and loses it if the link
is. -/
theorem not_forall_orders_attributes : ¬ ∀ (lister : Lister) (config : WalkConfig)
    (outcome : WalkOutcome) (entry : Entry) (identity : ObjectId) (finisher : Finisher)
    (root : Path) (volume : Volume) (number : Nat) (object : VolumeObject)
    (first second : List Entry), lister.IsTree → Walk.Yields lister config outcome →
      entry ∈ outcome.entries → Hardlink.groupOf entry = some identity →
      AreNames finisher.caller root volume (Hardlink.members identity outcome.entries) number
        object → object.isFrozen = false →
      first.Perm (Hardlink.members identity outcome.entries) →
      second.Perm (Hardlink.members identity outcome.entries) →
      ((finisher.after root first volume).object? number).map (·.attributes) =
        ((finisher.after root second volume).object? number).map (·.attributes) := by
  intro hall
  obtain ⟨outcome, hyields, hentry, hnames, hfirst, hsecond⟩ := exists_members_linkedTree
  have hsame := hall Walk.linkedTree _ outcome notedName ⟨1, 7⟩ Finisher.superuser [0x2F]
    aliasedFile 1 aliasedFile.aliasedObject [notedName, furtherName] [furtherName, notedName]
    Walk.isTree_linkedTree hyields hentry (by decide) hnames (by decide) hfirst hsecond
  have hkept := Finisher.superuser.writes_finishAll rfl (hnames.subset hfirst.subset)
  have hlost := Finisher.superuser.writes_finishAll rfl (hnames.subset hsecond.subset)
  rw [Finisher.after, hkept.object?_eq, Finisher.after, hlost.object?_eq, if_pos rfl, if_pos rfl,
    Option.map_some, Option.map_some] at hsame
  -- One list has the attribute and the other one is empty.
  have hlists := congrArg AttributeMap.toList (Option.some.inj hsame)
  exact absurd hlists (by decide +kernel)

end Restore

end TreeManifest
