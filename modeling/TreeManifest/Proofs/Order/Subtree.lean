import TreeManifest.Proofs.Order.Canonical

/-!
# Subtrees are blocks

In a canonical list everything beneath a directory stands in one block. The block comes after the
directory and after the other children of its parent. Within the block the children that are no
directories come first, then the child directories, then what lies deeper.

## Main definitions

- `Entry.IsChild`, `Entry.IsSibling`: one level of a tree.
- `Order.Region`, `Order.region`: the place of a path relative to the subtree of a directory.
- `Order.IsBlock`: a list cut at the subtree of a directory.

## Main statements

- `Order.region_le_of_compareComponents_lt`: along the canonical order the regions follow each
  other.
- `Order.eq_flatMap_filter`: a list in the order of ranks is the list of its ranks.
- `Order.exists_isBlock`: a canonical list is cut at the subtree of any of its directories.
-/

namespace TreeManifest

/-- Whether an entry belongs to an object directly inside a directory. -/
def Entry.IsChild (entry directory : Entry) : Prop :=
  directory.isDirectory = true ∧
    ∃ name, Path.components entry.path = Path.components directory.path ++ [name]

/-- Whether two entries belong to objects directly inside one directory. -/
def Entry.IsSibling (entry other : Entry) : Prop :=
  ∃ parent name otherName, Path.components entry.path = parent ++ [name] ∧
    Path.components other.path = parent ++ [otherName]

theorem Entry.IsChild.isBeneath {entry directory : Entry} (h : entry.IsChild directory) :
    entry.IsBeneath directory := by
  obtain ⟨hdir, name, hcomponents⟩ := h
  exact ⟨hdir, [name], List.cons_ne_nil _ _, hcomponents⟩

namespace Order

/-- The place of a path relative to the subtree of a directory: before the subtree, one of its
children, further down, or behind the subtree. -/
inductive Region where
  | before
  | file
  | directory
  | deeper
  | after
  deriving DecidableEq

def Region.rank : Region → Nat
  | .before => 0
  | .file => 1
  | .directory => 2
  | .deeper => 3
  | .after => 4

/-- The region of a path, given the components of the directory and those of the path. Only paths
with more components than the directory can lie beneath or behind it, and among them the first name
that differs decides. -/
def region (isDirectory : Bool) : List Bytes → List Bytes → Region
  | [], [] => .before
  | [], [_] => if isDirectory then .directory else .file
  | [], _ :: _ :: _ => .deeper
  | _ :: _, [] => .before
  | _ :: _, [_] => .before
  | name :: rest, first :: second :: more =>
    match compare first name with
    | .lt => .before
    | .gt => .after
    | .eq => region isDirectory rest (second :: more)

variable {isDirectory : Bool} {names : List Bytes}

/-! ## Paths in their regions -/

/-- A common first name makes no difference to the region. -/
theorem region_cons_of_ne_nil (isDirectory : Bool) (name : Bytes) (names : List Bytes)
    {rest : List Bytes} (h : rest ≠ []) :
    region isDirectory (name :: names) (name :: rest) = region isDirectory names rest := by
  obtain ⟨second, more, rfl⟩ := List.exists_cons_of_ne_nil h
  simp [region, Std.ReflOrd.compare_self]

/-- Beneath a directory only the components below it count. -/
theorem region_append (isDirectory : Bool) (names below : List Bytes) :
    region isDirectory names (names ++ below) = region isDirectory [] below := by
  induction names with
  | nil => rfl
  | cons name names ih =>
    by_cases hrest : names ++ below = []
    · obtain ⟨rfl, rfl⟩ := List.append_eq_nil_iff.1 hrest
      rfl
    · rw [List.cons_append, region_cons_of_ne_nil isDirectory name names hrest, ih]

theorem region_self (isDirectory : Bool) (names : List Bytes) :
    region isDirectory names names = .before := by
  have h := region_append isDirectory names []
  rwa [List.append_nil] at h

/-- The children of one directory come before what any of them holds. -/
theorem region_sibling (isDirectory : Bool) (parent : List Bytes) (name other : Bytes) :
    region isDirectory (parent ++ [name]) (parent ++ [other]) = .before := by
  induction parent with
  | nil => rfl
  | cons first parent ih =>
    rw [List.cons_append, List.cons_append,
      region_cons_of_ne_nil isDirectory first _ (by simp), ih]

/-- Outside the regions before and behind a subtree there are only paths beneath the directory. -/
theorem exists_eq_append_of_region {path : List Bytes}
    (hbefore : region isDirectory names path ≠ .before)
    (hafter : region isDirectory names path ≠ .after) :
    ∃ below ≠ [], path = names ++ below := by
  fun_induction region isDirectory names path with
  | case1 => exact absurd rfl hbefore
  | case2 name => exact ⟨[name], List.cons_ne_nil _ _, rfl⟩
  | case3 name => exact ⟨[name], List.cons_ne_nil _ _, rfl⟩
  | case4 first second more => exact ⟨first :: second :: more, List.cons_ne_nil _ _, rfl⟩
  | case5 => exact absurd rfl hbefore
  | case6 => exact absurd rfl hbefore
  | case7 => exact absurd rfl hbefore
  | case8 => exact absurd rfl hafter
  | case9 name rest first second more heq ih =>
    obtain ⟨below, hbelow, hrest⟩ := ih hbefore hafter
    rw [Std.LawfulEqOrd.compare_eq_iff_eq] at heq
    exact ⟨below, hbelow, by rw [heq, hrest, List.cons_append]⟩

/-! ## Regions along the canonical order -/

theorem Region.rank_injective : Function.Injective Region.rank := by
  intro a b h
  cases a <;> cases b <;> first | rfl | cases h

theorem Region.rank_le_after (place : Region) : place.rank ≤ Region.after.rank := by
  cases place <;> decide

/-- What goes on below its first name comes after whatever ends there, and otherwise the first names
decide before what follows them. -/
theorem then_eq_lt_of_compareComponents {aIsDirectory bIsDirectory : Bool} {a b second : Bytes}
    {as bs : List Bytes}
    (h : compareComponents aIsDirectory bIsDirectory (a :: second :: as) (b :: bs) = .lt) :
    bs ≠ [] ∧ (compare a b).then
      (compareComponents aIsDirectory bIsDirectory (second :: as) bs) = .lt := by
  cases bs with
  | nil =>
    have hrank : compare (Rank.of true aIsDirectory).byte (Rank.of false bIsDirectory).byte =
        .gt := by
      cases bIsDirectory <;> rfl
    rw [compareComponents] at h
    simp [hrank] at h
  | cons other bs =>
    have hrank : compare (Rank.of true aIsDirectory).byte (Rank.of true bIsDirectory).byte =
        .eq := rfl
    rw [compareComponents] at h
    simp only [List.isEmpty_cons, Bool.not_false, hrank, Ordering.eq_then] at h
    exact ⟨List.cons_ne_nil _ _, h⟩

/-- Directly inside a directory the files come before the directories, and these before what they
hold. -/
theorem region_nil_le_of_compareComponents_lt {aIsDirectory bIsDirectory : Bool}
    {as bs : List Bytes} (h : compareComponents aIsDirectory bIsDirectory as bs = .lt) :
    (region aIsDirectory [] as).rank ≤ (region bIsDirectory [] bs).rank := by
  match as, bs with
  | [], _ => exact Nat.zero_le _
  | _ :: _, [] => cases h
  | [_], _ :: _ :: _ => cases aIsDirectory <;> simp [region, Region.rank]
  | _ :: _ :: _, [_] => exact absurd rfl (then_eq_lt_of_compareComponents h).1
  | _ :: _ :: _, _ :: _ :: _ => exact Nat.le_refl _
  | [_], [_] =>
    cases aIsDirectory with
    | false => cases bIsDirectory <;> simp [region, Region.rank]
    | true =>
      cases bIsDirectory with
      | true => exact Nat.le_refl _
      | false =>
        -- A file does not come after a directory.
        have hrank : compare (Rank.of false true).byte (Rank.of false false).byte = .gt := rfl
        rw [compareComponents] at h
        simp [hrank] at h

/-- Along the canonical order the regions of a subtree follow each other. -/
theorem region_le_of_compareComponents_lt {aIsDirectory bIsDirectory : Bool} {as bs : List Bytes}
    (h : compareComponents aIsDirectory bIsDirectory as bs = .lt) :
    (region aIsDirectory names as).rank ≤ (region bIsDirectory names bs).rank := by
  induction names generalizing as bs with
  | nil => exact region_nil_le_of_compareComponents_lt h
  | cons name names ih =>
    match as, bs with
    | [], _ => exact Nat.zero_le _
    | [_], _ => exact Nat.zero_le _
    | _ :: _ :: _, [] => cases h
    | _ :: _ :: _, [_] => exact absurd rfl (then_eq_lt_of_compareComponents h).1
    | a :: second :: as, b :: other :: bs =>
      rcases Ordering.then_eq_lt.1 (then_eq_lt_of_compareComponents h).2 with hab | ⟨hab, htail⟩
      · -- The first names differ, so at most one of them is the name of the directory.
        cases ha : compare a name with
        | lt => simp [region, ha, Region.rank]
        | eq =>
          have hb : compare b name = .gt := by
            rw [Std.OrientedCmp.gt_iff_lt, ← Std.LawfulEqOrd.eq_of_compare ha, hab]
          simpa [region, ha, hb] using Region.rank_le_after _
        | gt =>
          have hb : compare b name = .gt := by
            rw [Std.OrientedCmp.gt_iff_lt] at ha ⊢
            exact Std.TransCmp.lt_trans ha hab
          simp [region, ha, hb]
      · obtain rfl := Std.LawfulEqOrd.eq_of_compare hab
        cases ha : compare a name with
        | lt => simp [region, ha, Region.rank]
        | eq => simpa [region, ha] using ih htail
        | gt => simp [region, ha]

/-! ## Lists in the order of ranks -/

/-- A list in which nothing that passes a test comes behind anything that fails it. -/
theorem eq_filter_append_filter {α : Type} {test : α → Bool} {list : List α}
    (h : list.Pairwise fun a b => test b = true → test a = true) :
    list = list.filter test ++ list.filter fun a => !test a := by
  induction list with
  | nil => rfl
  | cons head rest ih =>
    obtain ⟨hhead, hrest⟩ := List.pairwise_cons.1 h
    cases htest : test head with
    | true => simpa [htest] using ih hrest
    | false =>
      have hnone : ∀ a ∈ rest, test a = false := by
        intro a ha
        by_contra hne
        rw [hhead a ha (by simpa using hne)] at htest
        cases htest
      rw [List.filter_eq_nil_iff.2 (by simpa [htest] using hnone), List.nil_append,
        List.filter_eq_self.2 (by simpa [htest] using hnone)]

/-- A list in the order of ranks is the list of its first rank, then that of its second one, and so
on. -/
theorem eq_flatMap_filter {α : Type} {rank : α → Nat} {list : List α} {start count : Nat}
    (hbounds : ∀ a ∈ list, start ≤ rank a ∧ rank a < start + count)
    (h : list.Pairwise fun a b => rank a ≤ rank b) :
    list = (List.range' start count).flatMap fun place => list.filter (rank · = place) := by
  induction count generalizing start list with
  | zero =>
    have hnil : list = [] := by
      rw [List.eq_nil_iff_forall_not_mem]
      intro a ha
      have := hbounds a ha
      omega
    rw [hnil]
    rfl
  | succ count ih =>
    have hfirst : list = list.filter (rank · = start) ++
        list.filter fun a => !decide (rank a = start) := by
      refine eq_filter_append_filter (h.imp_of_mem fun {a b} ha hb hab hplace => ?_)
      have := hbounds a ha
      simp only [decide_eq_true_eq] at hplace ⊢
      omega
    have hbehind : ∀ a ∈ list.filter fun a => !decide (rank a = start),
        start + 1 ≤ rank a ∧ rank a < start + 1 + count := by
      intro a ha
      obtain ⟨ha, hne⟩ := List.mem_filter.1 ha
      have := hbounds a ha
      simp only [Bool.not_eq_true', decide_eq_false_iff_not] at hne
      omega
    have hrest := ih hbehind (h.filter _)
    -- Behind the first rank the other ranks are the same lists as before.
    have hsame : ∀ place ∈ List.range' (start + 1) count,
        (list.filter fun a => !decide (rank a = start)).filter (rank · = place) =
          list.filter (rank · = place) := by
      intro place hplace
      rw [List.mem_range'_1] at hplace
      rw [List.filter_filter]
      refine List.filter_congr fun a _ => ?_
      by_cases hrank : rank a = place
      · simp [hrank]
        omega
      · simp [hrank]
    rw [List.range'_succ, List.flatMap_cons, ← List.flatMap_congr hsame, ← hrest, ← hfirst]

/-! ## Entries in their regions -/

def regionOf (directory entry : Entry) : Region :=
  region entry.isDirectory (Path.components directory.path) (Path.components entry.path)

/-- A list cut at the subtree of a directory: what comes before, the children that are no
directories, the child directories, what lies deeper, and what comes behind. -/
structure IsBlock (entries : List Entry) (directory : Entry)
    (front files directories deeper back : List Entry) : Prop where
  entries_eq : entries = front ++ (files ++ directories ++ deeper) ++ back
  directory_mem : directory ∈ front
  sibling_mem : ∀ entry ∈ entries, entry.IsSibling directory → entry ∈ front
  isBeneath : ∀ entry ∈ files ++ directories ++ deeper, entry.IsBeneath directory
  not_isBeneath : ∀ entry ∈ front ++ back, ¬ entry.IsBeneath directory
  of_mem_files : ∀ entry ∈ files, entry.IsChild directory ∧ entry.isDirectory = false
  of_mem_directories : ∀ entry ∈ directories, entry.IsChild directory ∧ entry.isDirectory = true
  not_isChild : ∀ entry ∈ deeper, ¬ entry.IsChild directory

variable {entries : List Entry} {entry other directory : Entry}

theorem regionOf_self (directory : Entry) : regionOf directory directory = .before :=
  region_self _ _

/-- Siblings of a directory come before all that is below it. -/
theorem regionOf_of_isSibling (h : entry.IsSibling directory) :
    regionOf directory entry = .before := by
  obtain ⟨parent, name, directoryName, hentry, hdirectory⟩ := h
  rw [regionOf, hentry, hdirectory, region_sibling]

/-- Children of a directory are in the region of files or that of directories. -/
theorem regionOf_of_isChild (h : entry.IsChild directory) :
    regionOf directory entry = if entry.isDirectory then .directory else .file := by
  obtain ⟨-, name, hcomponents⟩ := h
  rw [regionOf, hcomponents, region_append, region]

/-- Beneath a directory there are its children, and what has more than one component below it. -/
theorem regionOf_of_isBeneath (h : entry.IsBeneath directory) :
    entry.IsChild directory ∨ regionOf directory entry = .deeper := by
  obtain ⟨hdir, below, hbelow, hcomponents⟩ := h
  match below with
  | [] => exact absurd rfl hbelow
  | [name] => exact .inl ⟨hdir, name, hcomponents⟩
  | first :: second :: more => exact .inr (by rw [regionOf, hcomponents, region_append, region])

/-- What is beneath a directory is neither before nor after it. -/
theorem isBeneath_iff_regionOf (hdir : directory.isDirectory = true) :
    entry.IsBeneath directory ↔
      regionOf directory entry ≠ .before ∧ regionOf directory entry ≠ .after := by
  constructor
  · intro h
    rcases regionOf_of_isBeneath h with hchild | hdeeper
    · rw [regionOf_of_isChild hchild]
      split <;> simp
    · simp [hdeeper]
  · rintro ⟨hbefore, hafter⟩
    exact ⟨hdir, exists_eq_append_of_region hbefore hafter⟩

/-- The children of a directory are the files and directories of its regions. -/
theorem isChild_iff_regionOf (hdir : directory.isDirectory = true) :
    entry.IsChild directory ↔
      regionOf directory entry = .file ∨ regionOf directory entry = .directory := by
  constructor
  · intro h
    rw [regionOf_of_isChild h]
    split <;> simp
  · intro h
    have hbeneath : entry.IsBeneath directory := by
      rw [isBeneath_iff_regionOf hdir]
      rcases h with h | h <;> simp [h]
    rcases regionOf_of_isBeneath hbeneath with hchild | hdeeper
    · exact hchild
    · simp [hdeeper] at h

/-- The region of files holds children that are no directories. -/
theorem isChild_of_regionOf_eq_file (hdir : directory.isDirectory = true)
    (h : regionOf directory entry = .file) :
    entry.IsChild directory ∧ entry.isDirectory = false := by
  have hchild := (isChild_iff_regionOf hdir).2 (.inl h)
  rw [regionOf_of_isChild hchild] at h
  exact ⟨hchild, by simpa using h⟩

/-- The region of directories holds children that are directories. -/
theorem isChild_of_regionOf_eq_directory (hdir : directory.isDirectory = true)
    (h : regionOf directory entry = .directory) :
    entry.IsChild directory ∧ entry.isDirectory = true := by
  have hchild := (isChild_iff_regionOf hdir).2 (.inr h)
  rw [regionOf_of_isChild hchild] at h
  exact ⟨hchild, by simpa using h⟩

/-- Entries without zero bytes are compared by their components. -/
theorem compareEntries_eq_compareComponents (ha : Bytes.nul ∉ entry.path)
    (hb : Bytes.nul ∉ other.path) :
    compareEntries entry other = compareComponents entry.isDirectory other.isDirectory
      (Path.components entry.path) (Path.components other.path) := by
  rw [compareEntries_eq_compare_entryKey]
  exact compare_componentsKey _ _ (terminator_notMem_of_mem_components ha)
    (terminator_notMem_of_mem_components hb)

/-- In a canonical list the regions of a subtree follow each other. -/
theorem regionOf_ascending (h : Canonical entries)
    (hnul : ∀ entry ∈ entries, Bytes.nul ∉ entry.path) (directory : Entry) :
    entries.Pairwise fun a b => (regionOf directory a).rank ≤ (regionOf directory b).rank := by
  refine h.imp_of_mem fun {a b} ha hb hab => ?_
  rw [Precedes, compareEntries_eq_compareComponents (hnul a ha) (hnul b hb)] at hab
  exact region_le_of_compareComponents_lt hab

def inRegion (entries : List Entry) (directory : Entry) (place : Region) : List Entry :=
  entries.filter fun entry => (regionOf directory entry).rank = place.rank

theorem mem_inRegion_iff {place : Region} :
    entry ∈ inRegion entries directory place ↔
      entry ∈ entries ∧ regionOf directory entry = place := by
  rw [inRegion, List.mem_filter, decide_eq_true_eq, Region.rank_injective.eq_iff]

/-- A canonical list of entries without NUL is cut at the subtree of any of its directories. -/
theorem exists_isBlock (hcheck : check entries = .ok ())
    (hnul : ∀ entry ∈ entries, Bytes.nul ∉ entry.path) (hmem : directory ∈ entries)
    (hdir : directory.isDirectory = true) :
    ∃ front files directories deeper back,
      IsBlock entries directory front files directories deeper back := by
  have hbounds : ∀ entry ∈ entries, 0 ≤ (regionOf directory entry).rank ∧
      (regionOf directory entry).rank < 0 + 5 := fun entry _ =>
    ⟨Nat.zero_le _, Nat.lt_succ_of_le (regionOf directory entry).rank_le_after⟩
  have hcut := eq_flatMap_filter hbounds
    (regionOf_ascending (check_eq_ok_iff.1 hcheck) hnul directory)
  refine ⟨inRegion entries directory .before, inRegion entries directory .file,
    inRegion entries directory .directory, inRegion entries directory .deeper,
    inRegion entries directory .after, ?_, ?_, ?_, ?_, ?_, ?_, ?_, ?_⟩
  · rw [show List.range' 0 5 = [Region.before, .file, .directory, .deeper, .after].map
      Region.rank from rfl] at hcut
    simpa [inRegion] using hcut
  · exact mem_inRegion_iff.2 ⟨hmem, regionOf_self directory⟩
  · intro entry hentry hsibling
    exact mem_inRegion_iff.2 ⟨hentry, regionOf_of_isSibling hsibling⟩
  · intro entry hentry
    rcases List.mem_append.1 hentry with hchild | hdeeper
    · have hchild := List.mem_append.1 hchild
      rw [mem_inRegion_iff, mem_inRegion_iff, ← and_or_left] at hchild
      exact ((isChild_iff_regionOf hdir).2 hchild.2).isBeneath
    · rw [isBeneath_iff_regionOf hdir, (mem_inRegion_iff.1 hdeeper).2]
      decide
  · intro entry hentry hbeneath
    rw [isBeneath_iff_regionOf hdir] at hbeneath
    rcases List.mem_append.1 hentry with hfront | hback
    · exact hbeneath.1 (mem_inRegion_iff.1 hfront).2
    · exact hbeneath.2 (mem_inRegion_iff.1 hback).2
  · intro entry hentry
    exact isChild_of_regionOf_eq_file hdir (mem_inRegion_iff.1 hentry).2
  · intro entry hentry
    exact isChild_of_regionOf_eq_directory hdir (mem_inRegion_iff.1 hentry).2
  · intro entry hentry
    rw [isChild_iff_regionOf hdir, (mem_inRegion_iff.1 hentry).2]
    decide

/-- The files `a`, `a+` and `b`, the directories `a` and `a+`, and below them the file `a/c`, the
directory `a/d`, the file `a/d/e` and the file `a+/c`, in canonical order. -/
def twoSubtrees : List Entry :=
  let file (path : String) := Entry.new (Bytes.ofString path) 0o100644
  let directory (path : String) := Entry.new (Bytes.ofString path) 0o040755
  [file "a", file "a+", file "b", directory "a", directory "a+", file "a/c", directory "a/d",
    file "a/d/e", file "a+/c"]

/-- The subtree of the directory `a` is a block behind the files and the directories beside it. -/
theorem exists_isBlock_twoSubtrees :
    check twoSubtrees = .ok () ∧ (∀ entry ∈ twoSubtrees, Bytes.nul ∉ entry.path) ∧
      Entry.new (Bytes.ofString "a") 0o040755 ∈ twoSubtrees ∧
      (Entry.new (Bytes.ofString "a") 0o040755).isDirectory = true ∧
      ∃ front files directories deeper back,
        IsBlock twoSubtrees (.new (Bytes.ofString "a") 0o040755) front files directories deeper
          back := by
  have hcheck : check twoSubtrees = .ok () := check_eq_ok_iff.2 (by decide)
  have hnul : ∀ entry ∈ twoSubtrees, Bytes.nul ∉ entry.path := by decide
  have hmem : Entry.new (Bytes.ofString "a") 0o040755 ∈ twoSubtrees := by decide
  have hdir : (Entry.new (Bytes.ofString "a") 0o040755).isDirectory = true := by decide
  exact ⟨hcheck, hnul, hmem, hdir, exists_isBlock hcheck hnul hmem hdir⟩

end Order

end TreeManifest
