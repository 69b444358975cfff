import Mathlib.Data.List.Induction
import TreeManifest.Proofs.Order.Hierarchy

/-!
# Paths made of names

The relative paths of a tree are put together from the names in its directories. Both views of a
path give these names back, so neither the canonical order nor the order of failed directories takes
two objects of a tree for one.

## Main definitions

- `Path.IsLabel`, `Path.IsName`: the names that a path can take up, and those among them that a
  directory may hold.
- `Path.ofNames`, `Path.IsProper`: the relative path of a list of names.

## Main statements

- `Path.components_ofNames`: the components of such a path are its names.
- `Path.steps_join_ofNames`: below a root, the steps of the root are followed by the names.
- `Path.join_child`: a name inside a directory is found where the relative path of both leads.
-/

namespace TreeManifest.Path

/-- A name that a path can take up between its slashes: it is not empty and has neither a slash nor
a NUL. -/
structure IsLabel (name : Bytes) : Prop where
  ne_nil : name ≠ []
  slash_notMem : Bytes.slash ∉ name
  nul_notMem : Bytes.nul ∉ name

/-- A name that a directory may hold: it is not empty, has neither a slash nor a NUL, and is none of
the two names with a meaning of their own. -/
structure IsName (name : Bytes) : Prop where
  ne_nil : name ≠ []
  slash_notMem : Bytes.slash ∉ name
  nul_notMem : Bytes.nul ∉ name
  ne_dot : name ≠ dot
  ne_dotDot : name ≠ dotDot

instance (name : Bytes) : Decidable (IsName name) :=
  decidable_of_iff (name ≠ [] ∧ Bytes.slash ∉ name ∧ Bytes.nul ∉ name ∧ name ≠ dot ∧ name ≠ dotDot)
    ⟨fun ⟨hne, hslash, hnul, hdot, hdotDot⟩ => ⟨hne, hslash, hnul, hdot, hdotDot⟩,
      fun ⟨hne, hslash, hnul, hdot, hdotDot⟩ => ⟨hne, hslash, hnul, hdot, hdotDot⟩⟩

theorem IsName.isLabel {name : Bytes} (h : IsName name) : IsLabel name :=
  ⟨h.ne_nil, h.slash_notMem, h.nul_notMem⟩

def ofNames (names : List Bytes) : Path := names.foldl child []

theorem forall_isName_concat {names : List Bytes} {name : Bytes} (h : ∀ name ∈ names, IsName name)
    (hname : IsName name) : ∀ other ∈ names ++ [name], IsName other := by
  intro other hother
  rcases List.mem_append.1 hother with hother | hother
  · exact h other hother
  · rw [List.mem_singleton.1 hother]
    exact hname

/-- One more name leads to a child. -/
theorem ofNames_append_singleton (names : List Bytes) (name : Bytes) :
    ofNames (names ++ [name]) = child (ofNames names) name := by
  rw [ofNames, List.foldl_append]
  rfl

theorem pieces_ne_nil (path : Path) : pieces path ≠ [] := by
  obtain ⟨more, hpieces, -⟩ := exists_pieces_eq path
  rw [hpieces]
  exact List.cons_ne_nil _ _

/-- A slash cuts a path in two. -/
theorem pieces_append_slash (first second : Path) :
    pieces (first ++ Bytes.slash :: second) = pieces first ++ pieces second := by
  induction first with
  | nil => simp [pieces]
  | cons byte first ih =>
    by_cases h : byte = Bytes.slash
    · simp [pieces, h, ih]
    · obtain ⟨more, hpieces, -⟩ := exists_pieces_eq first
      rw [List.cons_append, pieces, if_neg h, ih, pieces, if_neg h, hpieces]
      rfl

/-- The components on both sides of a slash are those of the whole path. -/
theorem components_append_slash (first second : Path) :
    components (first ++ Bytes.slash :: second) = components first ++ components second := by
  rw [components, pieces_append_slash, List.filter_append]
  rfl

theorem pieces_of_slash_notMem {name : Bytes} (h : Bytes.slash ∉ name) : pieces name = [name] := by
  induction name with
  | nil => rfl
  | cons byte name ih =>
    obtain ⟨hbyte, hname⟩ := not_or.1 (mt List.mem_cons.2 h)
    rw [pieces, if_neg (Ne.symm hbyte), ih hname]

/-- A name is its own only component. -/
theorem components_of_isLabel {name : Bytes} (h : IsLabel name) : components name = [name] := by
  rw [components, pieces_of_slash_notMem h.slash_notMem]
  have hname : (!name.isEmpty) = true := by
    simpa using h.ne_nil
  exact List.filter_cons_of_pos hname

/-- A child has one component more than its parent. -/
theorem components_child {name : Bytes} (parent : Path) (h : IsLabel name) :
    components (child parent name) = components parent ++ [name] := by
  unfold child
  split
  · next hparent =>
    rw [List.isEmpty_iff.1 hparent, components_nil, components_of_isLabel h]
    rfl
  · rw [components_append_slash, components_of_isLabel h]

/-- The path of given names has these names as its components. -/
theorem components_ofNames {names : List Bytes} (h : ∀ name ∈ names, IsName name) :
    components (ofNames names) = names := by
  induction names using List.reverseRecOn with
  | nil => rfl
  | append_singleton names name ih =>
    rw [ofNames_append_singleton, components_child _ (h name (by simp)).isLabel,
      ih fun other hother => h other (List.mem_append_left _ hother)]

/-- Only no names make the empty path. -/
theorem ofNames_eq_nil_iff {names : List Bytes} (h : ∀ name ∈ names, IsName name) :
    ofNames names = [] ↔ names = [] := by
  constructor
  · intro hnil
    have hnames := components_ofNames h
    rw [hnil] at hnames
    exact hnames.symm
  · intro hnil
    subst hnil
    rfl

/-- A relative path that is made of names. -/
structure IsProper (path : Path) : Prop where
  eq_ofNames : path = ofNames (components path)
  ne_nil : components path ≠ []
  isName : ∀ name ∈ components path, IsName name

/-- The path of given names is spelled without anything redundant. -/
theorem isProper_ofNames {names : List Bytes} (h : ∀ name ∈ names, IsName name) (hne : names ≠ []) :
    IsProper (ofNames names) := by
  have hcomponents := components_ofNames h
  exact ⟨by rw [hcomponents], by rwa [hcomponents], by rwa [hcomponents]⟩

/-- Paths without anything redundant are equal if their components are. -/
theorem IsProper.eq {first second : Path} (h : IsProper first) (h' : IsProper second)
    (hsame : components first = components second) : first = second := by
  rw [h.eq_ofNames, h'.eq_ofNames, hsame]

/-- Between the slashes of the path of given names stand these names. -/
theorem pieces_ofNames {names : List Bytes} (h : ∀ name ∈ names, IsName name) (hne : names ≠ []) :
    pieces (ofNames names) = names := by
  induction names using List.reverseRecOn with
  | nil => exact absurd rfl hne
  | append_singleton names name ih =>
    have hname : IsName name := h name (by simp)
    have hnames : ∀ other ∈ names, IsName other := fun other hother =>
      h other (List.mem_append_left _ hother)
    rw [ofNames_append_singleton, child]
    split
    · next hempty =>
      have hnil := (ofNames_eq_nil_iff hnames).1 (List.isEmpty_iff.1 hempty)
      subst hnil
      exact pieces_of_slash_notMem hname.slash_notMem
    · next hempty =>
      have hne' : names ≠ [] := fun hnil => hempty (by simp [hnil, ofNames])
      rw [pieces_append_slash, ih hnames hne', pieces_of_slash_notMem hname.slash_notMem]

/-- A path is absolute if its first piece is empty and it has another one. -/
theorem isAbsolute_eq_false_of_head?_pieces {path : Path} {piece : Bytes}
    (h : (pieces path).head? = some piece) (hne : piece ≠ []) : isAbsolute path = false := by
  cases path with
  | nil => rfl
  | cons byte path =>
    by_cases hbyte : byte = Bytes.slash
    · rw [pieces, if_pos hbyte] at h
      exact absurd (Option.some.inj h).symm hne
    · simp [isAbsolute, hbyte]

/-- The path of given names starts with a name, and not with a slash or a dot. -/
theorem head?_pieces_ofNames {names : List Bytes} (h : ∀ name ∈ names, IsName name)
    (hne : names ≠ []) : ∃ name, IsName name ∧ (pieces (ofNames names)).head? = some name := by
  obtain ⟨name, rest, rfl⟩ := List.exists_cons_of_ne_nil hne
  refine ⟨name, h name List.mem_cons_self, ?_⟩
  rw [pieces_ofNames h hne]
  rfl

theorem filter_ne_dot {names : List Bytes} (h : ∀ name ∈ names, IsName name) :
    names.filter (· != dot) = names :=
  List.filter_eq_self.2 fun name hname => bne_iff_ne.2 (h name hname).ne_dot

def stepOf (piece : Bytes) : Step := if piece = dotDot then .parent else .name piece

theorem map_stepOf {names : List Bytes} (h : ∀ name ∈ names, IsName name) :
    names.map stepOf = names.map Step.name :=
  List.map_congr_left fun name hname => if_neg (h name hname).ne_dotDot

/-- Steps by the opening of a path and its components. -/
theorem steps_eq (path : Path) : steps path =
    (if isAbsolute path then [Step.root]
      else if (pieces path).head? == some dot then [Step.current] else []) ++
      ((components path).filter (· != dot)).map stepOf := rfl

/-- Names behind a slash are the last steps. -/
theorem steps_append_slash {names : List Bytes} (base : Path) (h : ∀ name ∈ names, IsName name) :
    steps (base ++ Bytes.slash :: ofNames names) =
      steps (base ++ [Bytes.slash]) ++ names.map Step.name := by
  have habsolute : isAbsolute (base ++ Bytes.slash :: ofNames names) =
      isAbsolute (base ++ [Bytes.slash]) := by
    cases base <;> rfl
  have hhead : (pieces (base ++ Bytes.slash :: ofNames names)).head? =
      (pieces (base ++ [Bytes.slash])).head? := by
    rw [pieces_append_slash, pieces_append_slash, List.head?_append_of_ne_nil _ (pieces_ne_nil _),
      List.head?_append_of_ne_nil _ (pieces_ne_nil _)]
  rw [steps_eq, steps_eq, habsolute, hhead, components_append_slash, components_append_slash,
    components_ofNames h, List.filter_append, filter_ne_dot h, List.map_append, map_stepOf h,
    components_nil, List.append_nil, List.append_assoc]

/-- A trailing slash adds no step. -/
theorem steps_append_slash_nil {base : Path} (h : base ≠ []) :
    steps (base ++ [Bytes.slash]) = steps base := by
  have habsolute : isAbsolute (base ++ [Bytes.slash]) = isAbsolute base := by
    obtain ⟨byte, rest, rfl⟩ := List.exists_cons_of_ne_nil h
    rfl
  rw [steps_eq, steps_eq, habsolute, pieces_append_slash,
    List.head?_append_of_ne_nil _ (pieces_ne_nil _), components_append_slash, components_nil,
    List.append_nil]

/-- The steps of the path of given names are these names. -/
theorem steps_ofNames {names : List Bytes} (h : ∀ name ∈ names, IsName name) :
    steps (ofNames names) = names.map Step.name := by
  cases names with
  | nil => rfl
  | cons name rest =>
    obtain ⟨first, hfirst, hhead⟩ := head?_pieces_ofNames h (List.cons_ne_nil name rest)
    have hdot : (some first == some dot) = false := by
      simpa using hfirst.ne_dot
    rw [steps_eq, isAbsolute_eq_false_of_head?_pieces hhead hfirst.ne_nil, hhead, hdot,
      components_ofNames h, filter_ne_dot h, map_stepOf h]
    rfl

/-- The steps of a path below a root are those of the root and then the names. -/
theorem steps_join_ofNames {names : List Bytes} (root : Path) (h : ∀ name ∈ names, IsName name)
    (hne : names ≠ []) :
    steps (join root (ofNames names)) = steps root ++ names.map Step.name := by
  obtain ⟨first, hfirst, hhead⟩ := head?_pieces_ofNames h hne
  have hrelative := isAbsolute_eq_false_of_head?_pieces hhead hfirst.ne_nil
  rw [join, if_neg (by rw [hrelative]; exact Bool.false_ne_true)]
  -- Whether a slash is added depends on the last byte of the root.
  cases root using List.reverseRecOn with
  | nil => exact steps_ofNames h
  | append_singleton base byte =>
    rw [List.getLast?_concat]
    split
    · next hslash =>
      have hbyte : byte = Bytes.slash := by
        simpa using hslash
      subst hbyte
      rw [List.append_assoc, List.singleton_append, steps_append_slash base h]
    · have hroot : base ++ [byte] ≠ [] := List.concat_ne_nil _ _
      rw [steps_append_slash _ h, steps_append_slash_nil hroot]

theorem IsLabel.isAbsolute_eq_false {name : Bytes} (h : IsLabel name) : isAbsolute name = false := by
  cases name with
  | nil => rfl
  | cons byte rest =>
    have hbyte : byte ≠ Bytes.slash := by
      rintro rfl
      exact h.slash_notMem List.mem_cons_self
    simp [isAbsolute, hbyte]

/-- A child of a relative path is relative. -/
theorem isAbsolute_child {parent : Path} {name : Bytes} (hparent : isAbsolute parent = false)
    (hname : isAbsolute name = false) : isAbsolute (child parent name) = false := by
  unfold child
  split
  · exact hname
  · next hempty =>
    rw [isAbsolute, List.head?_append_of_ne_nil _ fun hnil => hempty (List.isEmpty_iff.2 hnil)]
    exact hparent

theorem getLast?_child {name : Bytes} (parent : Path) (h : name ≠ []) :
    (child parent name).getLast? = name.getLast? := by
  unfold child
  split
  · rfl
  · rw [List.getLast?_append, List.getLast?_cons_of_ne_nil h]
    obtain ⟨byte, hbyte⟩ := Option.isSome_iff_exists.1 (List.getLast?_isSome.2 h)
    rw [hbyte]
    rfl

theorem child_ne_nil {name : Bytes} (parent : Path) (h : name ≠ []) : child parent name ≠ [] := by
  rw [← List.getLast?_isSome, getLast?_child parent h]
  exact List.getLast?_isSome.2 h

/-- A path that ends in a name does not end in a slash. -/
theorem getLast?_child_ne_slash {name : Bytes} (parent : Path) (h : IsLabel name) :
    (child parent name).getLast? ≠ some Bytes.slash := by
  rw [getLast?_child parent h.ne_nil]
  exact fun hslash => h.slash_notMem (List.mem_of_getLast? hslash)

/-- A relative path made of names does not end in a slash. -/
theorem getLast?_ofNames {names : List Bytes} (h : ∀ name ∈ names, IsName name)
    (hne : names ≠ []) : ∃ byte, (ofNames names).getLast? = some byte ∧ byte ≠ Bytes.slash := by
  cases names using List.reverseRecOn with
  | nil => exact absurd rfl hne
  | append_singleton names name =>
    have hname : IsName name := h name (by simp)
    obtain ⟨byte, hbyte⟩ := List.getLast?_isSome.2 hname.ne_nil |> Option.isSome_iff_exists.1
    rw [ofNames_append_singleton, getLast?_child _ hname.ne_nil]
    refine ⟨byte, hbyte, ?_⟩
    rintro rfl
    exact hname.slash_notMem (List.mem_of_getLast? hbyte)

/-- Going down by a path and then by a name is going down by both at once. -/
theorem join_child {relative : Path} {name : Bytes} (base : Path) (hne : relative ≠ [])
    (hrelative : isAbsolute relative = false) (hlast : relative.getLast? ≠ some Bytes.slash)
    (hname : isAbsolute name = false) :
    join (join base relative) name = join base (child relative name) := by
  obtain ⟨byte, hbyte⟩ := Option.isSome_iff_exists.1 (List.getLast?_isSome.2 hne)
  have hslash : byte ≠ Bytes.slash := fun hsame => hlast (hsame ▸ hbyte)
  have hchild : child relative name = relative ++ Bytes.slash :: name :=
    if_neg fun hempty => hne (List.isEmpty_iff.1 hempty)
  have hchildRelative : isAbsolute (relative ++ Bytes.slash :: name) = false :=
    hchild ▸ isAbsolute_child hrelative hname
  have hends : ∀ front, (front ++ relative).getLast? = some byte := by
    intro front
    rw [List.getLast?_append, hbyte]
    rfl
  have hends' : (base ++ Bytes.slash :: relative).getLast? = some byte := by
    simpa using hends (base ++ [Bytes.slash])
  rw [hchild]
  unfold join
  rw [hrelative, hchildRelative, hname]
  by_cases hbase : base.getLast?.all (· == Bytes.slash) = true
  · simp [hbase, hends, hslash]
  · simp [hbase, hends', hslash]

/-- The base may be empty or end in a slash. -/
example : join (join [] [0x64]) [0x62] = [0x64, 0x2F, 0x62] ∧
    join (join [0x72, 0x2F] [0x64]) [0x62] = [0x72, 0x2F, 0x64, 0x2F, 0x62] := by
  decide

/-- Going down by names and then by another one. -/
theorem join_join {names : List Bytes} {name : Bytes} (base : Path)
    (h : ∀ name ∈ names, IsName name) (hne : names ≠ []) (hname : IsName name) :
    join (join base (ofNames names)) name = join base (child (ofNames names) name) := by
  obtain ⟨first, hfirst, hhead⟩ := head?_pieces_ofNames h hne
  obtain ⟨byte, hlast, hbyte⟩ := getLast?_ofNames h hne
  refine join_child base (fun hnil => hne ((ofNames_eq_nil_iff h).1 hnil))
    (isAbsolute_eq_false_of_head?_pieces hhead hfirst.ne_nil) (fun hslash => hbyte ?_)
    hname.isLabel.isAbsolute_eq_false
  exact Option.some.inj (hlast.symm.trans hslash)

/-- Two relative paths below one base lead to one place only if they are the same. -/
theorem eq_of_join_eq {first second : Path} (base : Path) (hfirst : isAbsolute first = false)
    (hsecond : isAbsolute second = false) (h : join base first = join base second) :
    first = second := by
  unfold join at h
  simp only [hfirst, hsecond, Bool.false_eq_true, if_false] at h
  split at h
  · exact List.append_cancel_left h
  · exact (List.cons.inj (List.append_cancel_left h)).2

end TreeManifest.Path

namespace TreeManifest.Entry

variable {entry other : Entry}

/-- Only the path of an entry decides its location. -/
theorem fullPath_congr (hpath : other.path = entry.path) (root : Path) :
    other.fullPath root = entry.fullPath root := by
  rw [fullPath, fullPath, hpath]

/-- Below a root, a path is joined to it. -/
theorem fullPath_of_ne_nil (hne : entry.path ≠ []) (root : Path) :
    entry.fullPath root = Path.join root entry.path :=
  if_neg fun hempty => hne (List.isEmpty_iff.1 hempty)

end TreeManifest.Entry
