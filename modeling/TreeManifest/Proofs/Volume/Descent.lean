import TreeManifest.Proofs.Volume.Below

/-!
# Going down in a volume

Names lead from a directory down to an object, one directory after the other. What a caller finds
behind a path can only be the object to which the names of the path lead, since a directory on the
way is no symlink. A new name leads to its object and changes nothing else.

## Main definitions

- `Volume.descend`: the object to which names lead.
- `Volume.IsLeaf`: an object that gets a name can be named without effect on other names.
- `Caller.Opens`: a path leads to a directory.

## Main statements

- `Caller.follow_eq_of_descend`: a caller finds what the names lead to.
- `Volume.Names.descend_eq_some_iff`: where names lead after a name was added.
- `Caller.Opens.eq_of_leads`: the place of a new object, by its names.
-/

namespace TreeManifest

def Volume.descend (volume : Volume) : Nat → List Bytes → Option Nat
  | here, [] => some here
  | here, name :: rest => (volume.child? here name).bind fun number => volume.descend number rest

/-- An object without names is about to get a name. It is new, or no directory and known as it
is. -/
structure Volume.IsLeaf (before : Volume) (number : Nat) (object : VolumeObject) : Prop where
  names_eq : object.names = []
  body_eq : ∀ old, before.object? number = some old →
    old.body = object.body ∧ old.isDirectory = false

/-- A path leads to a directory. Symlinks are followed, also at the end. -/
structure Caller.Opens (caller : Caller) (volume : Volume) (root : Path) (top : Nat) : Prop where
  resolve_eq : caller.resolve volume true root = .ok top
  exists_directory : ∃ object names parent, volume.object? top = some object ∧
    object.body = .directory names parent

namespace Volume

variable {volume before after : Volume} {here directory number found : Nat} {name : Bytes}
  {front names : List Bytes} {object : VolumeObject}

@[simp] theorem descend_nil (volume : Volume) (here : Nat) : volume.descend here [] = some here :=
  rfl

/-- Descending along two rows of names is descending along one after the other. -/
theorem descend_append (volume : Volume) (here : Nat) (front back : List Bytes) :
    volume.descend here (front ++ back) =
      (volume.descend here front).bind fun middle => volume.descend middle back := by
  induction front generalizing here with
  | nil => rfl
  | cons name front ih =>
    rw [List.cons_append, descend, descend, Option.bind_assoc]
    exact congrArg _ (funext fun number => ih number)

/-- The last name of a descent is looked up in the directory before it. -/
theorem descend_concat (volume : Volume) (here : Nat) (front : List Bytes) (name : Bytes) :
    volume.descend here (front ++ [name]) =
      (volume.descend here front).bind fun directory => volume.child? directory name := by
  rw [descend_append]
  refine congrArg _ (funext fun directory => ?_)
  rw [descend]
  exact Option.bind_fun_some _

theorem descend_concat_eq_some_iff : volume.descend here (front ++ [name]) = some number ↔
    ∃ directory, volume.descend here front = some directory ∧
      volume.child? directory name = some number := by
  rw [descend_concat, Option.bind_eq_some_iff]

/-- What has a child is a directory. -/
theorem exists_directory_of_child? (h : volume.child? here name = some number) :
    ∃ object names parent, volume.object? here = some object ∧
      object.body = .directory names parent := by
  unfold child? Volume.names at h
  cases hobject : volume.object? here with
  | none =>
    rw [hobject] at h
    cases h
  | some object =>
    rw [hobject] at h
    dsimp only at h
    unfold VolumeObject.names at h
    split at h
    · next names parent hbody => exact ⟨object, names, parent, rfl, hbody⟩
    · cases h

theorem target?_of_directory {parent : Nat} {names : List (Bytes × Nat)}
    (h : volume.object? here = some object) (hbody : object.body = .directory names parent) :
    (volume.object? here).bind (·.target?) = none := by
  rw [h, Option.bind_some, VolumeObject.target?, hbody]

/-! ## Volumes that consist of the same -/

theorem SameBodies.names_eq (h : after.SameBodies before) (number : Nat) :
    after.names number = before.names number := by
  have hbody := h number
  rw [Volume.names, Volume.names]
  cases hbefore : before.object? number with
  | none =>
    rw [hbefore] at hbody
    rw [Option.map_eq_none_iff.1 hbody]
  | some object =>
    rw [hbefore] at hbody
    obtain ⟨other, hother, hsame⟩ := Option.map_eq_some_iff.1 hbody
    rw [hother]
    simp only [VolumeObject.names, hsame]

/-- Descents depend only on what the objects are. -/
theorem SameBodies.descend_eq (h : after.SameBodies before) (here : Nat) (names : List Bytes) :
    after.descend here names = before.descend here names := by
  induction names generalizing here with
  | nil => rfl
  | cons name names ih =>
    rw [descend, descend, child?, child?, h.names_eq]
    exact congrArg _ (funext fun number => ih number)

/-! ## New names -/

theorem names_of_object?_eq (h : after.object? number = before.object? number) :
    after.names number = before.names number := by
  rw [Volume.names, Volume.names, h]

/-- An object with the next number and without names leads nowhere. -/
theorem IsFresh.isLeaf (h : before.IsFresh) (hnames : object.names = []) :
    before.IsLeaf before.next object := by
  refine ⟨hnames, fun old hold => ?_⟩
  rw [h _ (Nat.le_refl _)] at hold
  cases hold

theorem IsLeaf.names_before (h : before.IsLeaf number object) : before.names number = [] := by
  unfold Volume.names
  cases hold : before.object? number with
  | none => rfl
  | some old =>
    obtain ⟨hbody, -⟩ := h.body_eq old hold
    have hnames := h.names_eq
    unfold VolumeObject.names at hnames
    rwa [← hbody] at hnames

namespace Names

variable (h : before.Names directory name number object after) (hleaf : before.IsLeaf number object)

include h hleaf

/-- The names in a directory after a name was added. -/
theorem names_eq (other : Nat) : after.names other =
    before.names other ++ if other = directory then [(name, number)] else [] := by
  by_cases hdirectory : other = directory
  · obtain ⟨above, names, parent, links, habove, hbody, hafter⟩ := h.exists_above
    rw [if_pos hdirectory, hdirectory, names_eq_of_body habove hbody, names_eq_of_body hafter rfl]
  · rw [if_neg hdirectory, List.append_nil]
    by_cases hnumber : other = number
    · rw [hnumber, hleaf.names_before, names_eq_of_object? h.object, hleaf.names_eq]
    · exact names_of_object?_eq (h.others other hnumber hdirectory)

/-- Putting an object under a name adds that one child. -/
theorem child?_eq (other : Nat) (wanted : Bytes) : after.child? other wanted =
    (before.child? other wanted).or
      (if other = directory ∧ wanted = name then some number else none) := by
  rw [child?, child?, names_eq h hleaf, List.lookup_append]
  congr 1
  by_cases hdirectory : other = directory
  · rw [if_pos hdirectory, List.lookup_cons]
    by_cases hname : wanted = name
    · simp [hname, hdirectory]
    · have hne : (wanted == name) = false := by simpa using hname
      simp [hne, hname]
  · simp [hdirectory]

/-- Where names lead after a name was added that was free. -/
theorem descend_eq_some_iff (hfree : before.child? directory name = none) :
    after.descend here names = some found ↔ before.descend here names = some found ∨
      found = number ∧ ∃ front, names = front ++ [name] ∧
        before.descend here front = some directory := by
  induction names using List.reverseRecOn generalizing found with
  | nil => simp
  | append_singleton front last ih =>
    rw [descend_concat_eq_some_iff, descend_concat_eq_some_iff]
    constructor
    · rintro ⟨middle, hmiddle, hchild⟩
      rw [child?_eq h hleaf, Option.or_eq_some_iff] at hchild
      rcases ih.1 hmiddle with hbefore | ⟨rfl, -⟩
      · rcases hchild with hold | ⟨-, hnew⟩
        · exact .inl ⟨middle, hbefore, hold⟩
        · obtain ⟨⟨rfl, rfl⟩, hnumber⟩ := Option.ite_none_right_eq_some.1 hnew
          exact .inr ⟨(Option.some.inj hnumber).symm, front, rfl, hbefore⟩
      · -- The object itself has no names.
        rw [child?, hleaf.names_before, if_neg fun hand => h.ne hand.1] at hchild
        simp at hchild
    · rintro (⟨middle, hmiddle, hchild⟩ | ⟨rfl, others, hsplit, hfront⟩)
      · refine ⟨middle, ih.2 (.inl hmiddle), ?_⟩
        rw [child?_eq h hleaf, hchild, Option.some_or]
      · obtain ⟨rfl, hlast⟩ := List.append_inj' hsplit rfl
        refine ⟨directory, ih.2 (.inl hfront), ?_⟩
        rw [child?_eq h hleaf, List.singleton_inj.1 hlast, hfree]
        simp

/-- What was found is still found after a name was added. -/
theorem lookup_mono {caller : Caller} {other : Nat} {wanted : Bytes}
    (hlookup : caller.lookup before other wanted = .ok (some found)) :
    caller.lookup after other wanted = .ok (some found) := by
  obtain ⟨above, bindings, parent, habove, hbody, hmay, hfound⟩ := Caller.exists_of_lookup hlookup
  by_cases hdirectory : other = directory
  · obtain ⟨above', bindings', parent', links, habove', hbody', hafter⟩ := h.exists_above
    subst hdirectory
    cases habove.symm.trans habove'
    cases hbody.symm.trans hbody'
    have hmay' : caller.may .search { above with
        body := .directory (bindings ++ [(name, number)]) parent
        modTime := before.now
        linkCount := links } = true := by
      rw [← hmay]
      simp [Caller.may, VolumeObject.isDirectory, VolumeObject.kind, hbody]
    rw [Caller.lookup_eq hafter rfl hmay']
    rcases hfound with ⟨hdot, hsome⟩ | ⟨hdot, hdotDot, hsome⟩ | ⟨hdot, hdotDot, hlength, hsome⟩
    · rw [if_pos hdot, hsome]
    · rw [if_neg hdot, if_pos hdotDot, hsome]
    · rw [if_neg hdot, if_neg hdotDot, if_neg (Nat.not_lt.2 hlength), List.lookup_append,
        ← hsome, Option.some_or]
  · by_cases hnumber : other = number
    · have hfile := (hleaf.body_eq above (hnumber ▸ habove)).2
      simp [VolumeObject.isDirectory, VolumeObject.kind, hbody] at hfile
    · rw [Caller.lookup, h.others other hnumber hdirectory]
      exact hlookup

/-- What was there consists of the same, or of one more name. -/
theorem target?_of_object? {old : VolumeObject} (hold : before.object? found = some old) :
    (after.object? found).bind (·.target?) = (before.object? found).bind (·.target?) := by
  by_cases hdirectory : found = directory
  · obtain ⟨above, bindings, parent, links, habove, hbody, hafter⟩ := h.exists_above
    rw [hdirectory, target?_of_directory habove hbody, target?_of_directory hafter rfl]
  · by_cases hnumber : found = number
    · rw [hold, hnumber, h.object, Option.bind_some, Option.bind_some, VolumeObject.target?,
        VolumeObject.target?, (hleaf.body_eq old (hnumber ▸ hold)).1]
    · rw [h.others found hnumber hdirectory]

end Names

end Volume

namespace Caller

variable {caller : Caller} {volume before after : Volume} {here number found links top : Nat}
  {root : Path} {names : List Bytes} {followLast : Bool}

/-! ## Where paths lead -/

/-- A search for an ordinary name finds the child with that name. -/
theorem eq_child?_of_lookup {name : Bytes} {answer : Option Nat} (hname : Path.IsName name)
    (h : caller.lookup volume here name = .ok answer) : answer = volume.child? here name := by
  obtain ⟨above, bindings, parent, habove, hbody, -, hfound⟩ := exists_of_lookup h
  rw [Volume.child?, Volume.names_eq_of_body habove hbody]
  rcases hfound with ⟨hdot, -⟩ | ⟨-, hdotDot, -⟩ | ⟨-, -, -, hanswer⟩
  · exact absurd hdot hname.ne_dot
  · exact absurd hdotDot hname.ne_dotDot
  · exact hanswer

/-- A caller finds what the names lead to. -/
theorem follow_eq_of_descend (hnames : ∀ name ∈ names, Path.IsName name)
    (hdescend : volume.descend here names = some number)
    (hlast : followLast = true → (volume.object? number).bind (·.target?) = none)
    (h : caller.follow volume followLast links here names = .ok found) : found = number := by
  induction names generalizing here links with
  | nil =>
    rw [follow] at h
    exact (Except.ok.inj h).symm.trans (Option.some.inj hdescend)
  | cons name rest ih =>
    rw [List.forall_mem_cons] at hnames
    obtain ⟨middle, hchild, hrest⟩ := Option.bind_eq_some_iff.1 hdescend
    rw [follow] at h
    split at h
    · cases h
    · cases h
    · next next hlookup =>
      have hnext := eq_child?_of_lookup hnames.1 hlookup
      rw [hchild] at hnext
      obtain rfl := Option.some.inj hnext
      split at h
      · exact ih hnames.2 hrest h
      · next target htarget =>
        -- A symlink has no names, so it can only be the last on the way.
        cases rest with
        | nil =>
          obtain rfl := Option.some.inj hrest
          cases followLast with
          | false => exact (Except.ok.inj h).symm
          | true =>
            rw [hlast rfl] at htarget
            cases htarget
        | cons second rest =>
          obtain ⟨_, hsecond, -⟩ := Option.bind_eq_some_iff.1 hrest
          obtain ⟨object, bindings, parent, hobject, hbody⟩ :=
            Volume.exists_directory_of_child? hsecond
          rw [Volume.target?_of_directory hobject hbody] at htarget
          cases htarget

/-- Steps that lead to an existing object start at one. -/
theorem exists_object_of_follow {object : VolumeObject}
    (hobject : volume.object? found = some object)
    (h : caller.follow volume followLast links here names = .ok found) :
    ∃ old, volume.object? here = some old := by
  cases names with
  | nil =>
    rw [follow] at h
    exact ⟨object, Except.ok.inj h ▸ hobject⟩
  | cons name rest =>
    rw [follow] at h
    split at h
    · cases h
    · cases h
    · next hlookup =>
      obtain ⟨above, -, -, habove, -⟩ := exists_of_lookup hlookup
      exact ⟨above, habove⟩

/-- What was found is still found after a name was added. -/
theorem follow_names {directory : Nat} {name : Bytes} {object old : VolumeObject}
    (h : before.Names directory name number object after) (hleaf : before.IsLeaf number object)
    (hold : before.object? found = some old)
    (hfound : caller.follow before followLast links here names = .ok found) :
    caller.follow after followLast links here names = .ok found := by
  fun_induction follow caller before followLast links here names with
  | case1 links here =>
    rw [follow]
    exact hfound
  | case2 | case3 | case6 => cases hfound
  | case4 links here name rest next hlookup htarget ih =>
    obtain ⟨there, hthere⟩ := exists_object_of_follow hold hfound
    rw [← h.target?_of_object? hleaf hthere] at htarget
    rw [follow]
    simp only [h.lookup_mono hleaf hlookup, htarget]
    exact ih hfound
  | case5 links here name rest next hlookup target htarget hlast =>
    obtain ⟨there, hthere, -⟩ := Option.bind_eq_some_iff.1 htarget
    rw [← h.target?_of_object? hleaf hthere] at htarget
    rw [follow]
    simp only [h.lookup_mono hleaf hlookup, htarget, if_pos hlast]
    exact hfound
  | case7 here name rest next hlookup target htarget hlast links ih =>
    obtain ⟨there, hthere, -⟩ := Option.bind_eq_some_iff.1 htarget
    rw [← h.target?_of_object? hleaf hthere] at htarget
    rw [follow]
    simp only [h.lookup_mono hleaf hlookup, htarget, if_neg hlast]
    exact ih hfound

/-- A path leads to an existing object also after a new leaf was put under a name. -/
theorem resolve_names {directory : Nat} {name : Bytes} {object old : VolumeObject} {path : Path}
    (h : before.Names directory name number object after) (hleaf : before.IsLeaf number object)
    (hold : before.object? found = some old)
    (hfound : caller.resolve before followLast path = .ok found) :
    caller.resolve after followLast path = .ok found := by
  rw [resolve_eq_ok_iff] at hfound ⊢
  exact ⟨hfound.1, follow_names h hleaf hold hfound.2⟩

/-- A path of names behind a root. -/
theorem beginning_join (hroot : root ≠ []) (hnames : ∀ name ∈ names, Path.IsName name)
    (hne : names ≠ []) (here : Nat) :
    Path.components (Path.join root (Path.ofNames names)) = Path.components root ++ names ∧
      beginning (Path.join root (Path.ofNames names)) here = beginning root here := by
  obtain ⟨first, hfirst, hhead⟩ := Path.head?_pieces_ofNames hnames hne
  have hrelative := Path.isAbsolute_eq_false_of_head?_pieces hhead hfirst.ne_nil
  rw [Path.components_join root hrelative, Path.components_ofNames hnames, beginning, beginning,
    Path.isAbsolute_join hrelative hroot]
  exact ⟨rfl, rfl⟩

/-- Below a root, a path is followed name by name from where the root starts. -/
theorem follow_of_resolve_join (hroot : root ≠ []) (hnames : ∀ name ∈ names, Path.IsName name)
    (hne : names ≠ [])
    (h : caller.resolve volume followLast (Path.join root (Path.ofNames names)) = .ok found) :
    caller.follow volume followLast linkLimit (beginning root caller.home)
      (Path.components root ++ names) = .ok found := by
  obtain ⟨first, hfirst, hhead⟩ := Path.head?_pieces_ofNames hnames hne
  have hrelative := Path.isAbsolute_eq_false_of_head?_pieces hhead hfirst.ne_nil
  obtain ⟨byte, hlast, hbyte⟩ := Path.getLast?_ofNames hnames hne
  obtain ⟨hcomponents, hbeginning⟩ := beginning_join hroot hnames hne caller.home
  have hend : (Path.join root (Path.ofNames names)).getLast? = some byte := by
    rw [Path.join, if_neg (by rw [hrelative]; exact Bool.false_ne_true)]
    split
    · rw [List.getLast?_append, hlast, Option.some_or]
    · rw [List.getLast?_append, List.getLast?_cons, hlast]
      rfl
  have hfollow := (resolve_eq_ok_iff.1 h).2
  rwa [namesOf, hend, if_neg fun hslash => hbyte (Option.some.inj hslash), List.append_nil,
    hbeginning, hcomponents] at hfollow

namespace Opens

variable (h : caller.Opens volume root top)

include h

theorem ne_nil : root ≠ [] := by
  rintro rfl
  have hcheck := (resolve_eq_ok_iff.1 h.resolve_eq).1
  cases hcheck

/-- Behind the root, a caller finds what the names lead to. -/
theorem eq_of_follow (hnames : ∀ name ∈ names, Path.IsName name)
    (hdescend : volume.descend top names = some number)
    (hlast : names = [] ∨ followLast = true →
      followLast = true ∧ (volume.object? number).bind (·.target?) = none)
    (hfollow : caller.follow volume followLast linkLimit (beginning root caller.home)
      (Path.components root ++ names) = .ok found) : found = number := by
  have hroot := follow_components h.resolve_eq
  by_cases hne : names = []
  · rw [hne, Volume.descend_nil] at hdescend
    rw [hne, List.append_nil, (hlast (.inl hne)).1, hroot] at hfollow
    exact (Except.ok.inj hfollow).symm.trans (Option.some.inj hdescend)
  · obtain ⟨middle, links, hmiddle, hrest⟩ := follow_append hne hfollow
    rw [hroot] at hmiddle
    rw [← Except.ok.inj hmiddle] at hrest
    exact follow_eq_of_descend hnames hdescend (fun hlast' => (hlast (.inr hlast')).2) hrest

/-- A path below the root leads where its names descend, if it does not end at a symlink that is
followed. -/
theorem eq_of_resolve_join (hnames : ∀ name ∈ names, Path.IsName name) (hne : names ≠ [])
    (hdescend : volume.descend top names = some number)
    (hlast : followLast = true → (volume.object? number).bind (·.target?) = none)
    (hresolve : caller.resolve volume followLast (Path.join root (Path.ofNames names)) =
      .ok found) : found = number :=
  h.eq_of_follow hnames hdescend
    (fun hcase => ⟨hcase.resolve_left hne, hlast (hcase.resolve_left hne)⟩)
    (follow_of_resolve_join h.ne_nil hnames hne hresolve)

/-- A path that is not followed at its end leads where its names descend. -/
theorem eq_of_resolve (hnames : ∀ name ∈ names, Path.IsName name) (hne : names ≠ [])
    (hdescend : volume.descend top names = some number)
    (hresolve : caller.resolve volume false (Path.join root (Path.ofNames names)) = .ok found) :
    found = number :=
  h.eq_of_resolve_join hnames hne hdescend (fun hlast => absurd hlast Bool.false_ne_true) hresolve

variable {front : List Bytes} {name : Bytes} {directory : Nat}

/-- The place of a new object, by its names. -/
theorem eq_of_leads (hnames : ∀ other ∈ front ++ [name], Path.IsName other)
    (hdescend : volume.descend top front = some directory)
    (hdirectory : (volume.object? directory).bind (·.target?) = none) {place : Place}
    (hleads : caller.Leads volume (Path.join root (Path.ofNames (front ++ [name]))) place) :
    place.directory = directory ∧ place.name = name ∧
      place.existing = volume.child? directory name := by
  obtain ⟨hcomponents, hbeginning⟩ :=
    beginning_join h.ne_nil hnames (List.concat_ne_nil _ _) caller.home
  obtain ⟨others, hothers, hfollow⟩ := hleads.exists_front
  rw [hcomponents, ← List.append_assoc] at hothers
  obtain ⟨rfl, hlast⟩ := List.append_inj' hothers rfl
  rw [hbeginning] at hfollow
  have hplace := h.eq_of_follow (fun other hother => hnames other (List.mem_append_left _ hother))
    hdescend (fun _ => ⟨rfl, hdirectory⟩) hfollow
  have hname := List.singleton_inj.1 hlast
  refine ⟨hplace, hname.symm, ?_⟩
  obtain ⟨above, bindings, parent, habove, hbody, hexisting⟩ := hleads.exists_directory
  rw [hexisting, Volume.child?, ← hplace, Volume.names_eq_of_body habove hbody, hname]

/-- Nothing is found behind a name that is free. -/
theorem resolve_ne_ok (hnames : ∀ other ∈ front ++ [name], Path.IsName other)
    (hdescend : volume.descend top front = some directory)
    (hdirectory : (volume.object? directory).bind (·.target?) = none)
    (hfree : volume.child? directory name = none) :
    caller.resolve volume followLast (Path.join root (Path.ofNames (front ++ [name]))) ≠
      .ok found := by
  intro hresolve
  have hfollow := follow_of_resolve_join h.ne_nil hnames (List.concat_ne_nil _ _) hresolve
  rw [← List.append_assoc] at hfollow
  obtain ⟨middle, links, hmiddle, hlast⟩ := follow_append (List.cons_ne_nil _ _) hfollow
  obtain rfl := h.eq_of_follow
    (fun other hother => hnames other (List.mem_append_left _ hother)) hdescend
    (fun _ => ⟨rfl, hdirectory⟩) hmiddle
  rw [follow] at hlast
  split at hlast
  · cases hlast
  · cases hlast
  · next hlookup =>
    have hchild := eq_child?_of_lookup (hnames name (by simp)) hlookup
    rw [hfree] at hchild
    cases hchild

/-- A root stays open when a leaf is put under a name. -/
theorem of_names {object : VolumeObject} {after : Volume}
    (hnames : volume.Names directory name number object after)
    (hleaf : volume.IsLeaf number object) : caller.Opens after root top := by
  obtain ⟨old, bindings, parent, hold, hbody⟩ := h.exists_directory
  refine ⟨resolve_names hnames hleaf hold h.resolve_eq, ?_⟩
  by_cases htop : top = directory
  · obtain ⟨above, bindings, parent, links, -, -, hafter⟩ := hnames.exists_above
    exact ⟨_, _, _, htop ▸ hafter, rfl⟩
  · have hne : top ≠ number := by
      rintro rfl
      have hfile := (hleaf.body_eq old hold).2
      simp [VolumeObject.isDirectory, VolumeObject.kind, hbody] at hfile
    exact ⟨old, bindings, parent, (hnames.others top hne htop).trans hold, hbody⟩

/-- A root stays open for the superuser as long as objects stay what they are. -/
theorem sameBodies (hsuper : caller.isSuperuser = true) (hsame : volume.SameBodies after) :
    caller.Opens after root top := by
  obtain ⟨old, bindings, parent, hold, hbody⟩ := h.exists_directory
  have hbodies := hsame top
  rw [hold, Option.map_some, hbody] at hbodies
  obtain ⟨object, hobject, hdirectory⟩ := Option.map_eq_some_iff.1 hbodies.symm
  exact ⟨resolve_sameBodies hsuper hsame h.resolve_eq, object, bindings, parent, hobject,
    hdirectory⟩

end Opens

end Caller

end TreeManifest
