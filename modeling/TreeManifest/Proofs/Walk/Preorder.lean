import TreeManifest.Proofs.Walk.Listing

/-!
# The order in which one worker takes the directories

A single worker takes an item, works on it, and hands it back together with what it brought, which
goes on top of the stack. So it takes the items depth first: everything below an item comes right
behind it, and what an item brought comes from the last to the first.

A directory brings its subdirectories in reverse canonical order, so they are taken in canonical
order.

## Main definitions

- `Pending.Tree`: an item with what it brought, and so on.
- `Pending.Tree.preorder`: the items of such a tree, depth first, from the last branch to the first.
- `Pending.Rounds`: what a single worker takes from a stack until it closes.

## Main statements

- `Pending.rounds_iff`: a single worker takes the trees on the stack one after the other.
- `Pending.takes_preorder`: the items are taken in preorder, subdirectories in canonical order.
-/

namespace TreeManifest

namespace Pending

variable {α : Type}

/-! ## Trees -/

/-- An item, with the trees of what it brought. -/
inductive Tree (α : Type) where
  | node (item : α) (branches : List (Tree α))

namespace Tree

def item : Tree α → α
  | node item _ => item

mutual

/-- The items of a tree: the first one, and then those of the branches from the last to the
first. -/
def preorder : Tree α → List α
  | node item branches => item :: preorderAll branches

def preorderAll : List (Tree α) → List α
  | [] => []
  | first :: rest => preorderAll rest ++ preorder first

end

mutual

/-- The items in the same order, each with what it brought. -/
def rounds : Tree α → List (α × List α)
  | node item branches => (item, branches.map Tree.item) :: roundsAll branches

def roundsAll : List (Tree α) → List (α × List α)
  | [] => []
  | first :: rest => roundsAll rest ++ rounds first

end

/-- The trees behind each other, the last one first. -/
theorem preorderAll_eq (trees : List (Tree α)) :
    preorderAll trees = trees.reverse.flatMap preorder := by
  induction trees with
  | nil => rfl
  | cons first rest ih => simp [preorderAll, ih]

theorem roundsAll_eq (trees : List (Tree α)) : roundsAll trees = trees.reverse.flatMap rounds := by
  induction trees with
  | nil => rfl
  | cons first rest ih => simp [roundsAll, ih]

mutual

theorem map_fst_rounds : (tree : Tree α) → tree.rounds.map Prod.fst = tree.preorder
  | node item branches => by rw [rounds, preorder, List.map_cons, map_fst_roundsAll]

theorem map_fst_roundsAll : (trees : List (Tree α)) →
    (roundsAll trees).map Prod.fst = preorderAll trees
  | [] => rfl
  | first :: rest => by
    rw [roundsAll, preorderAll, List.map_append, map_fst_roundsAll rest, map_fst_rounds first]

end

/-- The items of branches are met in the order in which the branches are. -/
theorem sublist_flatMap_preorder (trees : List (Tree α)) :
    (trees.map item).Sublist (trees.flatMap preorder) := by
  induction trees with
  | nil => exact .slnil
  | cons first rest ih =>
    cases first with
    | node item branches =>
      rw [List.flatMap_cons, preorder]
      exact (ih.trans (List.sublist_append_right _ _)).cons_cons item

mutual

/-- What an item brought is met behind it, from the last to the first. -/
theorem sublist_preorder {round : α × List α} : (tree : Tree α) → round ∈ tree.rounds →
    round.2.reverse.Sublist tree.preorder
  | node item branches => fun h => by
    rw [preorder]
    rcases List.mem_cons.1 h with rfl | h
    · refine .cons item ?_
      rw [preorderAll_eq, ← List.map_reverse]
      exact sublist_flatMap_preorder _
    · exact .cons item (sublist_preorderAll branches h)

theorem sublist_preorderAll {round : α × List α} : (trees : List (Tree α)) →
    round ∈ roundsAll trees → round.2.reverse.Sublist (preorderAll trees)
  | [] => fun h => absurd h List.not_mem_nil
  | first :: rest => fun h => by
    rw [preorderAll]
    rcases List.mem_append.1 h with h | h
    · exact (sublist_preorderAll rest h).trans (List.sublist_append_left _ _)
    · exact (sublist_preorder first h).trans (List.sublist_append_right _ _)

end

end Tree

/-! ## Rounds -/

/-- A single worker takes an item, hands it back with what it brought, and goes on until nothing is
left. The rounds list each item with what it brought. -/
inductive Rounds : Pending α → List (α × List α) → Pending α → Prop where
  | finished {pending last : Pending α} (hpop : pending.pop = (.finished, last)) :
      Rounds pending [] last
  | round {pending taken last : Pending α} {item : α} {brought : List α}
      {rounds : List (α × List α)} (hpop : pending.pop = (.taken item, taken))
      (hrest : Rounds (taken.complete brought) rounds last) :
      Rounds pending ((item, brought) :: rounds) last

def idle (stack : List α) : Pending α := ⟨stack, 0, false⟩

def done : Pending α := ⟨[], 0, true⟩

@[simp] theorem pop_idle_nil : (idle ([] : List α)).pop = (.finished, done) := rfl

@[simp] theorem pop_idle_cons (item : α) (rest : List α) :
    (idle (item :: rest)).pop = (.taken item, ⟨rest, 1, false⟩) := rfl

@[simp] theorem complete_taken (rest brought : List α) :
    complete ⟨rest, 1, false⟩ brought = idle (brought.reverse ++ rest) := rfl

/-- The rounds on a stack are those of trees that begin with the items on it. -/
theorem exists_trees_of_rounds {pending last : Pending α} {rounds : List (α × List α)}
    (h : Rounds pending rounds last) {stack : List α} (hidle : pending = idle stack) :
    ∃ trees : List (Tree α), trees.map Tree.item = stack ∧ rounds = trees.flatMap Tree.rounds ∧
      last = done := by
  induction h generalizing stack with
  | finished hpop =>
    subst hidle
    cases stack with
    | nil => exact ⟨[], rfl, rfl, (Prod.mk.inj hpop).2.symm⟩
    | cons first rest => cases (Prod.mk.inj hpop).1
  | @round pending taken last item brought rounds hpop hrest ih =>
    subst hidle
    cases stack with
    | nil => cases (Prod.mk.inj hpop).1
    | cons first rest =>
      obtain ⟨hitem, rfl⟩ := Prod.mk.inj hpop
      obtain rfl := Pop.taken.inj hitem
      -- What was brought lies on top, so the trees begin with its branches.
      obtain ⟨trees, htrees, rfl, hlast⟩ := ih (complete_taken rest brought)
      obtain ⟨front, back, rfl, hfront, hback⟩ := List.map_eq_append_iff.1 htrees
      have hbrought : front.reverse.map Tree.item = brought := by
        rw [List.map_reverse, hfront, List.reverse_reverse]
      refine ⟨.node first front.reverse :: back, ?_, ?_, hlast⟩
      · rw [List.map_cons, hback]
        rfl
      · rw [List.flatMap_cons, Tree.rounds, hbrought, Tree.roundsAll_eq, List.reverse_reverse,
          List.flatMap_append]
        rfl

mutual

/-- A tree on top of a stack is taken before the rest. -/
theorem rounds_tree {last : Pending α} : (tree : Tree α) → {stack : List α} →
    {rounds : List (α × List α)} → Rounds (idle stack) rounds last →
    Rounds (idle (tree.item :: stack)) (tree.rounds ++ rounds) last
  | .node item branches => fun h => .round (pop_idle_cons item _) (rounds_branches branches h)

theorem rounds_branches {last : Pending α} : (trees : List (Tree α)) → {stack : List α} →
    {rounds : List (α × List α)} → Rounds (idle stack) rounds last →
    Rounds (idle ((trees.map Tree.item).reverse ++ stack)) (Tree.roundsAll trees ++ rounds) last
  | [] => fun h => h
  | first :: rest => fun h => by
    have hrest := rounds_branches rest (rounds_tree first h)
    rw [Tree.roundsAll, List.map_cons, List.reverse_cons, List.append_assoc, List.append_assoc]
    exact hrest

end

/-- A single worker takes the trees on the stack one after the other, each in preorder, and closes
the stack. -/
theorem rounds_iff {stack : List α} {rounds : List (α × List α)} {last : Pending α} :
    Rounds (idle stack) rounds last ↔ ∃ trees : List (Tree α), trees.map Tree.item = stack ∧
      rounds = trees.flatMap Tree.rounds ∧ last = done := by
  refine ⟨fun h => exists_trees_of_rounds h rfl, ?_⟩
  rintro ⟨trees, rfl, rfl, rfl⟩
  have hrounds := rounds_branches trees.reverse (.finished pop_idle_nil)
  rwa [List.map_reverse, List.reverse_reverse, List.append_nil, List.append_nil,
    Tree.roundsAll_eq, List.reverse_reverse] at hrounds

/-- The items that a single worker takes, if what an item brings depends on the item only. -/
theorem visit_of_rounds {children : α → List α} {pending last : Pending α}
    {rounds : List (α × List α)} (h : Rounds pending rounds last)
    (hchildren : ∀ round ∈ rounds, children round.1 = round.2) {fuel : Nat}
    (hfuel : rounds.length < fuel) : visit children fuel pending = (rounds.map Prod.fst, last) := by
  induction h generalizing fuel with
  | finished hpop =>
    obtain ⟨fuel, rfl⟩ := Nat.exists_eq_succ_of_ne_zero (Nat.ne_of_gt hfuel)
    simp only [visit, hpop, List.map_nil]
  | round hpop hrest ih =>
    obtain ⟨hbrought, hmore⟩ := List.forall_mem_cons.1 hchildren
    obtain ⟨fuel, rfl⟩ := Nat.exists_eq_succ_of_ne_zero (Nat.ne_of_gt (Nat.zero_lt_of_lt hfuel))
    have hvisit := ih hmore (Nat.lt_of_succ_lt_succ hfuel)
    simp only [visit, hpop, hbrought, hvisit, List.map_cons]

/-- What an item brought is taken after it, from the last to the first. -/
theorem Rounds.sublist {stack : List α} {rounds : List (α × List α)} {last : Pending α}
    (h : Rounds (idle stack) rounds last) {round : α × List α} (hround : round ∈ rounds) :
    round.2.reverse.Sublist (rounds.map Prod.fst) := by
  obtain ⟨trees, -, rfl, -⟩ := rounds_iff.1 h
  obtain ⟨tree, htree, hmem⟩ := List.mem_flatMap.1 hround
  obtain ⟨front, back, rfl⟩ := List.append_of_mem htree
  rw [List.flatMap_append, List.flatMap_cons, List.map_append, List.map_append,
    Tree.map_fst_rounds]
  exact ((Tree.sublist_preorder tree hmem).trans (List.sublist_append_left _ _)).trans
    (List.sublist_append_right _ _)

end Pending

/-! ## Subdirectories -/

namespace Lister

variable {lister : Lister} {relative : Path} {received : Bool} {tracker : Hardlink.Tracker}
  {listing : Listing}

/-- Directories that are sent in some order are handed back in the reverse one. -/
theorem pairwise_subdirectories {sent : List Entry} (related : Ordering → Prop)
    (hsubdirectories : listing.subdirectories =
      ((sent.filter (·.isDirectory)).map (·.path)).reverse)
    (h : sent.Pairwise fun a b => related (Order.compareEntries a b)) :
    listing.subdirectories.reverse.Pairwise
      fun a b => related (Order.comparePaths a true b true) := by
  rw [hsubdirectories, List.reverse_reverse, List.pairwise_map]
  refine (h.filter _).imp_of_mem fun {a b} ha hb hrelated => ?_
  have hdirectories := And.intro (List.mem_filter.1 ha).2 (List.mem_filter.1 hb).2
  rwa [Order.compareEntries, hdirectories.1, hdirectories.2] at hrelated

/-- The subdirectories of a listing, from the last to the first, are in canonical order. -/
theorem sorted_subdirectories
    (h : ((lister.list tracker relative received).run ()).value.result = .ok listing) :
    listing.subdirectories.reverse.Pairwise
      fun a b => (Order.comparePaths a true b true).isLE = true := by
  obtain ⟨names, hnames, hextends⟩ := exists_extends_of_list h
  exact pairwise_subdirectories (fun order => order.isLE = true)
    (accounted_of_extends hextends).subdirectories_eq (sorted_of_extends hextends)

/-- The order is strict with names as directories hold them. -/
theorem strictlySorted_subdirectories {names : List (Except IoError Bytes)}
    (h : ((lister.list tracker relative received).run ()).value.result = .ok listing)
    (hnames : lister.view.readDirectory (lister.directory relative) = .ok names)
    (hlabels : ∀ name ∈ names.filterMap Except.toOption, Path.IsLabel name)
    (hnodup : (names.filterMap Except.toOption).Nodup) :
    listing.subdirectories.reverse.Pairwise
      fun a b => Order.comparePaths a true b true = .lt := by
  obtain ⟨found, hfound, hextends⟩ := exists_extends_of_list h
  obtain rfl := Except.ok.inj (hnames.symm.trans hfound)
  exact pairwise_subdirectories (fun order => order = .lt)
    (accounted_of_extends hextends).subdirectories_eq
    (canonical_of_extends hextends hlabels hnodup)

end Lister

namespace Pending

/-- A single worker takes the items in preorder. If the items form a tree that ends, it takes those
of the tree, each followed by what is below it, from the last branch to the first, and leaves the
stack closed. Whatever the items bring, the rounds that it makes until the stack closes are those of
such a tree, and every tree comes up. Directories that bring their subdirectories are taken in
canonical order as far as they have the same parent, strictly so with names as directories hold
them. -/
theorem takes_preorder :
    (∀ {α : Type} (tree : Tree α) (children : α → List α),
      (∀ round ∈ tree.rounds, children round.1 = round.2) →
      ∀ fuel > tree.rounds.length,
        visit children fuel (start tree.item) = (tree.preorder, ⟨[], 0, true⟩)) ∧
    (∀ {α : Type} (first : α) (rounds : List (α × List α)) (last : Pending α),
      Rounds (start first) rounds last ↔ ∃ tree : Tree α, tree.item = first ∧
        tree.rounds = rounds ∧ tree.preorder = rounds.map Prod.fst ∧ last = ⟨[], 0, true⟩) ∧
    ∀ (lister : Lister) (rounds : List (Path × List Path)) (last : Pending Path),
      Rounds (start []) rounds last →
      ∀ (tracker : Hardlink.Tracker) (relative : Path) (received : Bool) (listing : Listing),
        ((lister.list tracker relative received).run ()).value.result = .ok listing →
        (relative, listing.subdirectories) ∈ rounds →
        listing.subdirectories.reverse.Sublist (rounds.map Prod.fst) ∧
        listing.subdirectories.reverse.Pairwise
          (fun a b => (Order.comparePaths a true b true).isLE = true) ∧
        ∀ names, lister.view.readDirectory (lister.directory relative) = .ok names →
          (∀ name ∈ names.filterMap Except.toOption, Path.IsLabel name) →
          (names.filterMap Except.toOption).Nodup →
          listing.subdirectories.reverse.Pairwise
            fun a b => Order.comparePaths a true b true = .lt := by
  have hstart : ∀ {α : Type} (tree : Tree α), Rounds (start tree.item) tree.rounds done :=
    fun tree => rounds_iff.2 ⟨[tree], rfl, (List.append_nil _).symm, rfl⟩
  refine ⟨fun tree children hchildren fuel hfuel => ?_, fun first rounds last => ⟨fun h => ?_, ?_⟩,
    fun lister rounds last h tracker relative received listing hlisting hround =>
      ⟨h.sublist hround, Lister.sorted_subdirectories hlisting,
        fun names => Lister.strictlySorted_subdirectories hlisting⟩⟩
  · rw [visit_of_rounds (hstart tree) hchildren hfuel, Tree.map_fst_rounds]
    rfl
  · obtain ⟨trees, htrees, rfl, rfl⟩ := rounds_iff.1 h
    obtain ⟨tree, rfl, rfl⟩ := List.map_eq_singleton_iff.1 htrees
    rw [List.flatMap_singleton]
    exact ⟨tree, rfl, rfl, (Tree.map_fst_rounds tree).symm, rfl⟩
  · rintro ⟨tree, rfl, rfl, -, rfl⟩
    exact hstart tree

/-- The directories of a listing of two, and of nothing below them. -/
def twoFolders : Tree Path := .node [] [.node [0x62] [], .node [0x61] []]

/-- The directory `a` is taken before `b`, as it comes first in canonical order. -/
theorem takes_preorder_mixedTree :
    visit (fun path : Path => if path = [] then [[0x62], [0x61]] else []) 4 (start []) =
        ([[], [0x61], [0x62]], ⟨[], 0, true⟩) ∧
      [[0x61], [(0x62 : UInt8)]].Pairwise fun a b => Order.comparePaths a true b true = .lt := by
  have hrounds : twoFolders.rounds = [([], [[0x62], [0x61]]), ([0x61], []), ([0x62], [])] := rfl
  constructor
  · have hchildren : ∀ round ∈ twoFolders.rounds,
        (if round.1 = [] then [[0x62], [0x61]] else []) = round.2 := by
      rw [hrounds]
      decide
    exact takes_preorder.1 twoFolders _ hchildren 4 (by decide)
  · have htaken := (takes_preorder.2.1 [] _ _).2 ⟨twoFolders, rfl, hrounds, rfl, rfl⟩
    exact (takes_preorder.2.2 mixedTree _ _ htaken {} [] true _ result_mixedTree
      List.mem_cons_self).2.2 _ rfl (fun _ => isLabel_mixedTree) (by decide)

end Pending

end TreeManifest
