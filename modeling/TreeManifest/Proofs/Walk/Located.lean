import TreeManifest.Proofs.Walk.Emitted
import TreeManifest.Proofs.Walk.Sortable

/-!
# Where entries were inspected

A walk goes down a tree by names and inspects an object in its directory. Its entry only keeps the
relative path, and whoever restores it looks below the root for that. Both arrive at the same
location, byte by byte, so what was captured of an object is given back to the one of that name and
to no other.

## Main definitions

- `Lister.InspectedAt`: the location at which the object of an entry was inspected.

## Main statements

- `Lister.fullPath_eq_join`: a name in a directory of the tree is found below the root.
- `Walk.fullPath_inspected`: entries lead to the locations at which they were inspected.
-/

namespace TreeManifest

namespace Lister

variable {lister : Lister} {entry other : Entry} {location : Path} {directory : Path}

/-- The object of an entry was inspected at a location, by its name in a directory of the tree. -/
def InspectedAt (lister : Lister) (entry : Entry) (location : Path) : Prop :=
  ∃ directory names name stat, lister.HasDirectory directory ∧
    lister.view.readDirectory (lister.directory directory) = .ok names ∧ .ok name ∈ names ∧
    location = Path.join (lister.directory directory) name ∧
    lister.view.lstat location = .ok stat ∧ entry.path = Path.child directory name ∧
    entry.mode = stat.mode ∧ entry.identity = some stat.identity

theorem HasLabels.usesLabels (h : lister.HasLabels) : lister.UsesLabels :=
  fun _ _ _ => h.isLabel

/-- The relative path of a directory does not begin with a slash. -/
theorem HasDirectory.isAbsolute_eq_false (hlabels : lister.UsesLabels)
    (h : lister.HasDirectory directory) : Path.isAbsolute directory = false := by
  induction h with
  | root => rfl
  | child hparent hnames hname hstat hkind ih =>
    exact Path.isAbsolute_child ih (hlabels _ _ _ hparent hnames hname).isAbsolute_eq_false

/-- Nor does it end in one. -/
theorem HasDirectory.getLast?_ne_slash (hlabels : lister.UsesLabels)
    (h : lister.HasDirectory directory) : directory.getLast? ≠ some Bytes.slash := by
  cases h with
  | root => exact nofun
  | child hparent hnames hname hstat hkind =>
    exact Path.getLast?_child_ne_slash _ (hlabels _ _ _ hparent hnames hname)

/-- The full path of an entry is that of its name in its directory, whatever the root looks like. -/
theorem fullPath_eq_join {name : Bytes} (hlabels : lister.UsesLabels)
    (hdirectory : lister.HasDirectory directory) (hname : Path.IsLabel name)
    (hpath : entry.path = Path.child directory name) :
    entry.fullPath lister.root = Path.join (lister.directory directory) name := by
  rw [Entry.fullPath_of_ne_nil (hpath ▸ Path.child_ne_nil directory hname.ne_nil), hpath,
    Lister.directory]
  cases directory with
  | nil => rfl
  | cons byte rest =>
    exact (Path.join_child lister.root (List.cons_ne_nil byte rest)
      (hdirectory.isAbsolute_eq_false hlabels) (hdirectory.getLast?_ne_slash hlabels)
      hname.isAbsolute_eq_false).symm

/-- A child is inspected at the full path of its entry. -/
theorem IsChild.inspectedAt {child : Child} (hlabels : lister.UsesLabels)
    (h : lister.IsChild child) :
    child.entry.fullPath lister.root = child.location ∧
      lister.InspectedAt child.entry child.location := by
  obtain ⟨directory, children, skipped, hdirectory, hopened, hmem⟩ := h
  obtain ⟨names, name, stat, hnames, hname, hstat, rfl⟩ := exists_of_mem_opened hopened hmem
  have hlabel := hlabels directory names name hdirectory hnames hname
  exact ⟨fullPath_eq_join hlabels hdirectory hlabel rfl,
    directory, names, name, stat, hdirectory, hnames, hname, rfl, hstat, rfl, rfl, rfl⟩

/-- Only the path, the mode and the identity of an entry tell where it was inspected. -/
theorem InspectedAt.congr (h : lister.InspectedAt entry location) (hpath : other.path = entry.path)
    (hmode : other.mode = entry.mode) (hidentity : other.identity = entry.identity) :
    lister.InspectedAt other location := by
  unfold InspectedAt
  rw [hpath, hmode, hidentity]
  exact h

/-- An entry that a walk can send was inspected at its full path. -/
theorem Emits.inspectedAt (hlabels : lister.UsesLabels) (h : lister.Emits entry) :
    lister.InspectedAt entry (entry.fullPath lister.root) := by
  obtain ⟨child, kept, tracker, hchild, hkept, rfl⟩ := h
  obtain ⟨hlocation, hinspected⟩ := hchild.inspectedAt hlabels
  obtain ⟨link, -, rfl⟩ := exists_of_selected_eq_kept hchild hkept
  have hpath : (lister.classify tracker (lister.filled child link) child.stat.linkCount).1.path =
      child.entry.path := path_classify tracker _ _
  rw [Entry.fullPath_congr hpath, hlocation]
  exact hinspected.congr hpath (mode_classify tracker _ _) (identity_classify tracker _ _)

/-- The full path of an entry is its relative path below the root. -/
theorem InspectedAt.fullPath_eq (hlabels : lister.UsesLabels)
    (h : lister.InspectedAt entry location) : Path.isAbsolute entry.path = false ∧
      entry.fullPath lister.root = Path.join lister.root entry.path := by
  obtain ⟨directory, names, name, -, hdirectory, hnames, hmem, -, -, hpath, -⟩ := h
  have hname := hlabels directory names name hdirectory hnames hmem
  refine ⟨?_, Entry.fullPath_of_ne_nil (hpath ▸ Path.child_ne_nil directory hname.ne_nil) _⟩
  rw [hpath]
  exact Path.isAbsolute_child (hdirectory.isAbsolute_eq_false hlabels) hname.isAbsolute_eq_false

/-- Entries of inspected objects have one full path only if they have one path. -/
theorem InspectedAt.path_eq {there : Path} (hlabels : lister.UsesLabels)
    (h : lister.InspectedAt entry location) (h' : lister.InspectedAt other there)
    (hsame : entry.fullPath lister.root = other.fullPath lister.root) : entry.path = other.path := by
  obtain ⟨hrelative, hfull⟩ := h.fullPath_eq hlabels
  obtain ⟨hrelative', hfull'⟩ := h'.fullPath_eq hlabels
  exact Path.eq_of_join_eq lister.root hrelative hrelative' (hfull.symm.trans (hsame.trans hfull'))

/-- What was inspected at one location is one object. -/
theorem InspectedAt.mode_eq (h : lister.InspectedAt entry location)
    (h' : lister.InspectedAt other location) : entry.mode = other.mode := by
  obtain ⟨-, -, -, stat, -, -, -, -, hstat, -, hmode, -⟩ := h
  obtain ⟨-, -, -, found, -, -, -, -, hfound, -, hmode', -⟩ := h'
  rw [hmode, hmode', Except.ok.inj (hstat.symm.trans hfound)]

end Lister

namespace Walk

variable {lister : Lister} {config : WalkConfig} {state : State} {outcome : WalkOutcome}

theorem inspectedAt_of_reaches (hlabels : lister.UsesLabels)
    (h : Reaches lister config (.start config) state) {entry : Entry}
    (hentry : entry ∈ state.received ++ state.channel) :
    lister.InspectedAt entry (entry.fullPath lister.root) := by
  refine (emits_of_reaches h entry ?_).inspectedAt hlabels
  rw [State.emitted, Multiset.mem_add, Multiset.mem_coe]
  exact .inl hentry

theorem inspectedAt_of_result (hlabels : lister.UsesLabels)
    (h : Reaches lister config (.start config) state)
    (hresult : result lister state = .ok outcome) {entry : Entry}
    (hentry : entry ∈ outcome.entries) :
    lister.InspectedAt entry (entry.fullPath lister.root) := by
  obtain ⟨other, hother, houtline⟩ := exists_received_outline_eq hresult hentry
  have hpath : entry.path = other.path := by
    rw [← Hardlink.path_outline, ← houtline, Hardlink.path_outline]
  have hmode : entry.mode = other.mode := by
    rw [← mode_outline, ← houtline, mode_outline]
  have hidentity : entry.identity = other.identity := by
    rw [← identity_outline, ← houtline, identity_outline]
  rw [Entry.fullPath_congr hpath]
  exact (inspectedAt_of_reaches hlabels h (List.mem_append_left _ hother)).congr hpath hmode
    hidentity

/-- No two entries of an outcome have one full path. -/
theorem nodup_fullPath_of_result (hlabels : lister.UsesLabels)
    (h : Reaches lister config (.start config) state)
    (hresult : result lister state = .ok outcome) :
    (outcome.entries.map (·.fullPath lister.root)).Nodup := by
  rw [List.Nodup, List.pairwise_map]
  refine (canonical_of_result hresult).imp_of_mem fun {a b} ha hb hprecedes hsame => ?_
  have hfirst := inspectedAt_of_result hlabels h hresult ha
  have hsecond := inspectedAt_of_result hlabels h hresult hb
  have hmode := (hsame ▸ hfirst).mode_eq hsecond
  -- They would be entries of one object at one path, and such entries tie.
  have htie := Order.compareEntries_of_path_eq (hfirst.path_eq hlabels hsecond hsame)
    (by rw [Entry.isDirectory, Entry.isDirectory, Entry.kind, Entry.kind, hmode])
  cases hprecedes.symm.trans htie

/-- No two entries that were sent have one full path, if no directory holds a name twice. -/
theorem nodup_fullPath_of_reaches (htree : lister.HasLabels)
    (h : Reaches lister config (.start config) state) :
    ((state.received ++ state.channel).map (·.fullPath lister.root)).Nodup := by
  have hnodup := nodup_stepsTo_sent htree h
  rw [List.Nodup, List.pairwise_map] at hnodup ⊢
  refine hnodup.imp_of_mem fun {a b} ha hb hne hsame => hne ?_
  have hfirst := inspectedAt_of_reaches htree.usesLabels h ha
  have hsecond := inspectedAt_of_reaches htree.usesLabels h hb
  rw [hfirst.path_eq htree.usesLabels hsecond hsame]

/-- Whoever makes the next step of a walk, and whatever its root looks like, each entry that was
sent leads from the root to the location at which its object was inspected: the name below the
directory that holds it. Entries with one full path have one path. No two of those that were sent
have one full path in a tree that holds no name twice, and no two entries of an outcome have one in
any tree. -/
theorem fullPath_inspected (hlabels : lister.UsesLabels)
    (h : Reaches lister config (.start config) state) :
    (∀ entry ∈ state.received ++ state.channel,
      lister.InspectedAt entry (entry.fullPath lister.root) ∧
        ∀ other ∈ state.received ++ state.channel,
          entry.fullPath lister.root = other.fullPath lister.root → entry.path = other.path) ∧
    (lister.HasLabels →
      ((state.received ++ state.channel).map (·.fullPath lister.root)).Nodup) ∧
    ∀ outcome, result lister state = .ok outcome →
      (∀ entry ∈ outcome.entries, lister.InspectedAt entry (entry.fullPath lister.root)) ∧
        (outcome.entries.map (·.fullPath lister.root)).Nodup := by
  refine ⟨fun entry hentry => ?_, fun htree => nodup_fullPath_of_reaches htree h,
    fun outcome hresult => ⟨fun entry => inspectedAt_of_result hlabels h hresult,
      nodup_fullPath_of_result hlabels h hresult⟩⟩
  have hinspected := inspectedAt_of_reaches hlabels h hentry
  exact ⟨hinspected, fun other hother =>
    hinspected.path_eq hlabels (inspectedAt_of_reaches hlabels h hother)⟩

/-- In the tree with a file that has two names, the entries lead to `r/a`, `r/d` and `r/d/b`. -/
theorem fullPath_inspected_linkedTree :
    linkedTree.HasLabels ∧ ∃ state, Reaches linkedTree (.ofProcessors 1)
      (.start (.ofProcessors 1)) state ∧
      state.received.map (·.fullPath [0x72]) =
        [[0x72, 0x2F, 0x61], [0x72, 0x2F, 0x64], [0x72, 0x2F, 0x64, 0x2F, 0x62]] ∧
      (∀ entry ∈ state.received, linkedTree.InspectedAt entry (entry.fullPath [0x72])) ∧
      ((state.received ++ state.channel).map (·.fullPath [0x72])).Nodup ∧
      ∃ outcome, result linkedTree state = .ok outcome ∧
        (outcome.entries.map (·.fullPath [0x72])).Nodup := by
  have htree := isTree_linkedTree.hasLabels
  have hreaches := reaches_runFrom linkedTree (.ofProcessors 1) 30 (.refl (.start (.ofProcessors 1)))
  have hpaths : (runFrom linkedTree (.ofProcessors 1) 30
      (.start (.ofProcessors 1))).received.map (·.fullPath [0x72]) =
        [[0x72, 0x2F, 0x61], [0x72, 0x2F, 0x64], [0x72, 0x2F, 0x64, 0x2F, 0x62]] := by
    cbv
  obtain ⟨outcome, hresult⟩ := exists_result_eq_ok htree hreaches rfl rfl
  obtain ⟨hsent, hnodup, houtcome⟩ := fullPath_inspected htree.usesLabels hreaches
  exact ⟨htree, _, hreaches, hpaths,
    fun entry hentry => (hsent entry (List.mem_append_left _ hentry)).1, hnodup htree,
    outcome, hresult, (houtcome outcome hresult).2⟩

end Walk

end TreeManifest
