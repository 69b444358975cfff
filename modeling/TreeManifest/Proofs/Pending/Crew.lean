import Mathlib.Data.List.Nodup
import Mathlib.Data.Set.Card
import Mathlib.Logic.Relation
import TreeManifest.Path
import TreeManifest.Walk.Pending

/-!
# A crew that shares a stack

Any number of workers take items from a stack. Each hands its item back together with the items
that it brings, and then takes the next one. The items form a tree, so an item comes to the stack
from one side only, and the stack closes only when nobody can bring an item any more.

A worker that is told to wait keeps asking. Such a question changes nothing, so it does not matter
how often it is repeated or what ends the waiting.

## Main definitions

- `Pending.Below`, `Pending.IsTree`: the items that come to a stack, and when they form a tree.
- `Pending.Crew`: a stack with its workers, and what was taken and handed back so far.
- `Pending.Crew.Step`: a worker asks for an item, or hands its item back.
- `Pending.Crew.Ends`: every run that goes on changing something ends.
- `Pending.Call`, `Pending.after`: calls by anybody, in any order.

## Main statements

- `Pending.Crew.sound_move`: what every step preserves.
- `Pending.Crew.ends_start`: every run ends with each item taken once.
- `Pending.crew_takes_each_once`: the stack gives every item out once, and closes after the last.
-/

namespace TreeManifest.Pending

variable {α : Type}

/-- The items that come to a stack: the first one, and whatever such an item brings. -/
inductive Below (children : α → List α) (first : α) : α → Prop where
  | start : Below children first first
  | child {parent item : α} (hparent : Below children first parent)
      (hitem : item ∈ children parent) : Below children first item

/-- Finitely many items of which each is brought by one other item, and only once. -/
structure IsTree (children : α → List α) (first : α) : Prop where
  finite : {item | Below children first item}.Finite
  nodup : ∀ {item}, Below children first item → (children item).Nodup
  first_notMem : ∀ {item}, Below children first item → first ∉ children item
  parent_eq : ∀ {parent other item}, Below children first parent → Below children first other →
    item ∈ children parent → item ∈ children other → parent = other

inductive Worker (α : Type) where
  /-- About to ask for an item. -/
  | free
  | holding (item : α)
  /-- Told that there is nothing left. -/
  | left

@[simp] def Worker.item? : Worker α → Option α
  | .holding item => some item
  | .free | .left => none

@[simp] def Worker.cost : Worker α → Nat
  | .left => 0
  | .free => 1
  | .holding _ => 2

/-- A stack, its workers, and the items that were taken and handed back, the latest first. -/
structure Crew (α : Type) where
  pending : Pending α
  workers : List (Worker α)
  popped : List α
  completed : List α

namespace Crew

def start (first : α) (workers : Nat) : Crew α :=
  ⟨.start first, List.replicate workers .free, [], []⟩

/-- The items that were taken and not yet handed back. -/
def held (crew : Crew α) : List α := crew.workers.filterMap Worker.item?

def ask (crew : Crew α) (worker : Nat) : Crew α :=
  match crew.pending.pop with
  | (.taken item, pending) =>
    { crew with
      pending
      workers := crew.workers.set worker (.holding item)
      popped := item :: crew.popped }
  | (.finished, pending) => { crew with pending, workers := crew.workers.set worker .left }
  | (.blocked, pending) => { crew with pending }

def handBack (children : α → List α) (crew : Crew α) (worker : Nat) (item : α) : Crew α where
  pending := crew.pending.complete (children item)
  workers := crew.workers.set worker .free
  popped := crew.popped
  completed := item :: crew.completed

inductive Step (children : α → List α) (crew : Crew α) : Crew α → Prop where
  | ask {worker : Nat} (hworker : crew.workers[worker]? = some .free) :
      Step children crew (crew.ask worker)
  | handBack {worker : Nat} {item : α} (hworker : crew.workers[worker]? = some (.holding item)) :
      Step children crew (crew.handBack children worker item)

/-- Every run that goes on changing something ends, in a crew that has left and fulfils `goal`. -/
inductive Ends (children : α → List α) (goal : Crew α → Prop) : Crew α → Prop where
  | done {crew : Crew α} (hleft : ∀ worker ∈ crew.workers, worker = .left) (hgoal : goal crew) :
      Ends children goal crew
  | step {crew : Crew α} (hsome : ∃ after, Step children crew after ∧ after ≠ crew)
      (hall : ∀ after, Step children crew after → after ≠ crew → Ends children goal after) :
      Ends children goal crew

variable {children : α → List α} {first : α} {crew after : Crew α}

/-! ## Moves -/

/-- What a step does to a crew. -/
inductive Move (children : α → List α) (crew : Crew α) : Crew α → Prop where
  | take {worker : Nat} {item : α} {rest : List α} (hworker : crew.workers[worker]? = some .free)
      (hopen : crew.pending.closed = false) (hstack : crew.pending.stack = item :: rest) :
      Move children crew ⟨⟨rest, crew.pending.inFlight + 1, false⟩,
        crew.workers.set worker (.holding item), item :: crew.popped, crew.completed⟩
  | leave {worker : Nat} (hworker : crew.workers[worker]? = some .free)
      (hclosed : crew.pending.closed = true) :
      Move children crew { crew with workers := crew.workers.set worker .left }
  | close {worker : Nat} (hworker : crew.workers[worker]? = some .free)
      (hopen : crew.pending.closed = false) (hstack : crew.pending.stack = [])
      (hidle : crew.pending.inFlight = 0) :
      Move children crew { crew with
        pending := { crew.pending with closed := true }
        workers := crew.workers.set worker .left }
  | wait (hopen : crew.pending.closed = false) (hstack : crew.pending.stack = [])
      (hbusy : crew.pending.inFlight ≠ 0) : Move children crew crew
  | handBack {worker : Nat} {item : α} (hworker : crew.workers[worker]? = some (.holding item)) :
      Move children crew (crew.handBack children worker item)

/-- A worker that asks for work takes an item, leaves, closes the stack or waits. -/
theorem move_ask {worker : Nat} (hworker : crew.workers[worker]? = some .free) :
    Move children crew (crew.ask worker) := by
  unfold ask Pending.pop
  cases hclosed : crew.pending.closed with
  | true => exact .leave hworker hclosed
  | false =>
    cases hstack : crew.pending.stack with
    | cons item rest =>
      have hmove : Move children crew _ := .take hworker hclosed hstack
      simpa using hmove
    | nil =>
      by_cases hidle : crew.pending.inFlight = 0
      · have hmove : Move children crew _ := .close hworker hclosed hstack hidle
        simpa [hidle, hstack] using hmove
      · have hmove : Move children crew crew := .wait hclosed hstack hidle
        simpa [hidle] using hmove

/-- Every step is a move. -/
theorem move_of_step (h : Step children crew after) : Move children crew after := by
  cases h with
  | ask hworker => exact move_ask hworker
  | handBack hworker => exact .handBack hworker

/-! ## Items -/

theorem exists_set {workers : List (Worker α)} {worker : Nat} {old : Worker α} (new : Worker α)
    (h : workers[worker]? = some old) :
    ∃ front back, workers = front ++ old :: back ∧
      workers.set worker new = front ++ new :: back := by
  obtain ⟨hlt, rfl⟩ := List.getElem?_eq_some_iff.1 h
  obtain ⟨front, back, hworkers, -, hset⟩ := @List.exists_of_set _ _ new _ hlt
  exact ⟨front, back, hworkers, hset⟩

/-- What the workers hold before and after one of them changes. -/
theorem exists_filterMap_set {workers : List (Worker α)} {worker : Nat} {old : Worker α}
    (new : Worker α) (h : workers[worker]? = some old) :
    ∃ front back, workers.filterMap Worker.item? = front ++ (old.item?.toList ++ back) ∧
      (workers.set worker new).filterMap Worker.item? = front ++ (new.item?.toList ++ back) := by
  obtain ⟨front, back, hworkers, hset⟩ := exists_set new h
  refine ⟨front.filterMap Worker.item?, back.filterMap Worker.item?, ?_, ?_⟩
  · rw [hworkers, List.filterMap_append]
    cases old <;> rfl
  · rw [hset, List.filterMap_append]
    cases new <;> rfl

/-- What holds in every crew that has begun with the first item. -/
structure Sound (children : α → List α) (first : α) (crew : Crew α) : Prop where
  nodup : (crew.popped ++ crew.pending.stack).Nodup
  perm : crew.popped.Perm (crew.completed ++ crew.held)
  first_mem : first ∈ crew.popped ++ crew.pending.stack
  below : ∀ item ∈ crew.popped ++ crew.pending.stack, Below children first item
  /-- Only an item that was handed back has brought others. -/
  parent : ∀ item ∈ crew.popped ++ crew.pending.stack,
    item = first ∨ ∃ parent ∈ crew.completed, item ∈ children parent
  brought : ∀ item ∈ crew.completed, children item ⊆ crew.popped ++ crew.pending.stack
  inFlight_eq : crew.pending.inFlight = crew.held.length
  closed : crew.pending.closed = true → crew.pending.stack = [] ∧ crew.held = []
  left : .left ∈ crew.workers → crew.pending.closed = true

theorem sound_start (children : α → List α) (first : α) (workers : Nat) :
    Sound children first (start first workers) := by
  have hheld : (start first workers).held = [] := by
    refine List.filterMap_eq_nil_iff.2 fun worker hworker => ?_
    rw [List.eq_of_mem_replicate hworker]
    rfl
  constructor
  · simp [start, Pending.start]
  · rw [hheld]
    exact .refl []
  · simp [start, Pending.start]
  · intro item hitem
    have heq : item = first := by simpa [start, Pending.start] using hitem
    exact heq ▸ .start
  · intro item hitem
    exact .inl (by simpa [start, Pending.start] using hitem)
  · simp [start]
  · rw [hheld]
    rfl
  · simp [start, Pending.start]
  · simp [start]

/-- An item that is held has brought nothing yet. -/
theorem Sound.notMem_of_mem_children (h : Sound children first crew)
    (htree : IsTree children first) {item child : α} (hitem : item ∈ crew.held)
    (hchild : child ∈ children item) : child ∉ crew.popped ++ crew.pending.stack := by
  intro hmem
  have hnodup : (crew.completed ++ crew.held).Nodup :=
    h.perm.nodup_iff.1 (List.nodup_append.1 h.nodup).1
  have hbelow : ∀ other ∈ crew.completed ++ crew.held, Below children first other :=
    fun other hother => h.below other (List.mem_append_left _ (h.perm.mem_iff.2 hother))
  have hitemBelow := hbelow item (List.mem_append_right _ hitem)
  rcases h.parent child hmem with rfl | ⟨parent, hparent, hbrought⟩
  · exact htree.first_notMem hitemBelow hchild
  · -- The child has one parent, which would be held and handed back at once.
    have heq := htree.parent_eq (hbelow parent (List.mem_append_left _ hparent)) hitemBelow
      hbrought hchild
    exact (List.nodup_append.1 hnodup).2.2 parent hparent item hitem heq

theorem left_mem_of_mem_set {worker : Nat} {new : Worker α}
    (h : .left ∈ crew.workers.set worker new) (hne : new ≠ .left) : .left ∈ crew.workers :=
  (List.mem_or_eq_of_mem_set h).resolve_right hne.symm

/-- Handing an item back with its children keeps the crew sound. -/
theorem sound_handBack (htree : IsTree children first) {worker : Nat} {item : α}
    (hworker : crew.workers[worker]? = some (.holding item)) (h : Sound children first crew) :
    Sound children first (crew.handBack children worker item) := by
  obtain ⟨front, back, hheld, hheld'⟩ := exists_filterMap_set .free hworker
  change crew.held = front ++ item :: back at hheld
  change (crew.handBack children worker item).held = front ++ back at hheld'
  have hitem : item ∈ crew.held := by simp [hheld]
  have hbelow : Below children first item :=
    h.below item (List.mem_append_left _ (h.perm.mem_iff.2 (List.mem_append_right _ hitem)))
  have hperm : ((crew.handBack children worker item).popped ++
      (crew.handBack children worker item).pending.stack).Perm
        (children item ++ (crew.popped ++ crew.pending.stack)) := by
    show (crew.popped ++ ((children item).reverse ++ crew.pending.stack)).Perm _
    rw [← List.append_assoc, ← List.append_assoc]
    exact (List.perm_append_comm.trans ((List.reverse_perm _).append_right _)).append_right _
  constructor
  · rw [hperm.nodup_iff, List.nodup_append]
    refine ⟨htree.nodup hbelow, h.nodup, ?_⟩
    rintro child hchild other hother rfl
    exact h.notMem_of_mem_children htree hitem hchild hother
  · rw [hheld']
    show crew.popped.Perm (item :: crew.completed ++ (front ++ back))
    have hpopped := h.perm
    rw [hheld, ← List.append_assoc] at hpopped
    rw [List.cons_append, ← List.append_assoc]
    exact hpopped.trans List.perm_middle
  · exact hperm.mem_iff.2 (List.mem_append_right _ h.first_mem)
  · intro other hother
    rcases List.mem_append.1 (hperm.mem_iff.1 hother) with hother | hother
    · exact .child hbelow hother
    · exact h.below other hother
  · intro other hother
    rcases List.mem_append.1 (hperm.mem_iff.1 hother) with hother | hother
    · exact .inr ⟨item, List.mem_cons_self, hother⟩
    · exact (h.parent other hother).imp_right fun ⟨parent, hparent, hbrought⟩ =>
        ⟨parent, List.mem_cons_of_mem _ hparent, hbrought⟩
  · intro other hother child hchild
    refine hperm.mem_iff.2 (List.mem_append.2 ?_)
    rcases List.mem_cons.1 hother with rfl | hother
    · exact .inl hchild
    · exact .inr (h.brought other hother hchild)
  · have hcount := h.inFlight_eq
    rw [hheld] at hcount
    rw [hheld']
    show crew.pending.inFlight - 1 = _
    simp only [List.length_append, List.length_cons] at hcount ⊢
    omega
  · intro hclosed
    -- Nothing is held once the stack is closed.
    rw [(h.closed hclosed).2] at hitem
    cases hitem
  · exact fun hleft => h.left (left_mem_of_mem_set hleft (by simp))

/-- Taking an item keeps the crew sound. -/
theorem sound_take {worker : Nat} {item : α} {rest : List α}
    (hworker : crew.workers[worker]? = some .free) (hopen : crew.pending.closed = false)
    (hstack : crew.pending.stack = item :: rest) (h : Sound children first crew) :
    Sound children first ⟨⟨rest, crew.pending.inFlight + 1, false⟩,
      crew.workers.set worker (.holding item), item :: crew.popped, crew.completed⟩ := by
  obtain ⟨front, back, hheld, hheld'⟩ := exists_filterMap_set (.holding item) hworker
  change crew.held = front ++ back at hheld
  change _ = front ++ item :: back at hheld'
  have hperm : (item :: crew.popped ++ rest).Perm (crew.popped ++ crew.pending.stack) := by
    rw [hstack]
    exact List.perm_middle.symm
  constructor
  · exact hperm.nodup_iff.2 h.nodup
  · rw [held, hheld', ← List.append_assoc]
    have hpopped := h.perm
    rw [hheld, ← List.append_assoc] at hpopped
    exact (hpopped.cons item).trans List.perm_middle.symm
  · exact hperm.mem_iff.2 h.first_mem
  · exact fun other hother => h.below other (hperm.mem_iff.1 hother)
  · exact fun other hother => h.parent other (hperm.mem_iff.1 hother)
  · exact fun other hother child hchild => hperm.mem_iff.2 (h.brought other hother hchild)
  · have hcount := h.inFlight_eq
    rw [hheld] at hcount
    rw [held, hheld']
    simp only [List.length_append, List.length_cons] at hcount ⊢
    omega
  · intro hclosed
    cases hclosed
  · intro hleft
    rw [h.left (left_mem_of_mem_set hleft (by simp))] at hopen
    cases hopen

/-- A worker that leaves takes nothing with it. -/
theorem sound_leave {worker : Nat} (hworker : crew.workers[worker]? = some .free)
    (h : Sound children first crew) (hstack : crew.pending.stack = []) (hheld : crew.held = []) :
    Sound children first { crew with
      pending := { crew.pending with closed := true }
      workers := crew.workers.set worker .left } := by
  obtain ⟨front, back, hbefore, hafter⟩ := exists_filterMap_set .left hworker
  have hsame : (crew.workers.set worker .left).filterMap Worker.item? = crew.held :=
    hafter.trans hbefore.symm
  constructor
  · exact h.nodup
  · rw [held, hsame]
    exact h.perm
  · exact h.first_mem
  · exact h.below
  · exact h.parent
  · exact h.brought
  · rw [held, hsame]
    exact h.inFlight_eq
  · exact fun _ => ⟨hstack, hsame.trans hheld⟩
  · exact fun _ => rfl

/-- Every move preserves what holds in a crew. -/
theorem sound_move (htree : IsTree children first) (h : Sound children first crew)
    (hmove : Move children crew after) : Sound children first after := by
  cases hmove with
  | take hworker hopen hstack => exact sound_take hworker hopen hstack h
  | handBack hworker => exact sound_handBack htree hworker h
  | wait => exact h
  | leave hworker hclosed =>
    obtain ⟨hstack, hheld⟩ := h.closed hclosed
    have hsound := sound_leave hworker h hstack hheld
    rwa [← hclosed] at hsound
  | close hworker hopen hstack hidle =>
    have hcount := h.inFlight_eq
    rw [hidle] at hcount
    exact sound_leave hworker h hstack (List.length_eq_zero_iff.1 hcount.symm)

/-- However the workers move, the crew stays sound. -/
theorem sound_reaches (htree : IsTree children first) {last : Crew α}
    (h : Sound children first crew) (hreaches : Relation.ReflTransGen (Step children) crew last) :
    Sound children first last := by
  induction hreaches with
  | refl => exact h
  | tail _ hstep ih => exact sound_move htree ih (move_of_step hstep)

/-- With nothing waiting and nothing held, every item was handed back. -/
theorem Sound.mem_completed (h : Sound children first crew) (hstack : crew.pending.stack = [])
    (hheld : crew.held = []) {item : α} (hitem : Below children first item) :
    item ∈ crew.completed := by
  have hall : ∀ other ∈ crew.popped ++ crew.pending.stack, other ∈ crew.completed := by
    intro other hother
    rw [hstack, List.append_nil] at hother
    simpa [hheld] using h.perm.mem_iff.1 hother
  induction hitem with
  | start => exact hall first h.first_mem
  | child _ hmem ih => exact hall _ (h.brought _ ih hmem)

/-- The number in flight is that of the items that were taken and not handed back. -/
theorem Sound.inFlight_eq_length_filter [DecidableEq α] (h : Sound children first crew) :
    crew.pending.inFlight = (crew.popped.filter (· ∉ crew.completed)).length := by
  have hnodup := h.perm.nodup_iff.1 (List.nodup_append.1 h.nodup).1
  have hheld : crew.held.filter (· ∉ crew.completed) = crew.held := by
    refine List.filter_eq_self.2 fun item hitem => decide_eq_true fun hmem => ?_
    exact (List.nodup_append.1 hnodup).2.2 item hmem item hitem rfl
  have hcompleted : crew.completed.filter (· ∉ crew.completed) = [] :=
    List.filter_eq_nil_iff.2 (by simp)
  have hperm := h.perm.filter (· ∉ crew.completed)
  rw [List.filter_append, hheld, hcompleted, List.nil_append] at hperm
  rw [hperm.length_eq, h.inFlight_eq]

/-! ## Runs end -/

/-- What is left to do for a crew when there are as many items. -/
def cost (items : Nat) (crew : Crew α) : Nat :=
  2 * (items - crew.popped.length) + (crew.workers.map Worker.cost).sum

theorem sum_cost_set {workers : List (Worker α)} {worker : Nat} {old : Worker α}
    (new : Worker α) (h : workers[worker]? = some old) :
    ((workers.set worker new).map Worker.cost).sum + old.cost =
      (workers.map Worker.cost).sum + new.cost := by
  obtain ⟨front, back, hworkers, hset⟩ := exists_set new h
  rw [hset, hworkers]
  simp only [List.map_append, List.map_cons, List.sum_append, List.sum_cons]
  omega

/-- A crew takes at most as many items as the tree has. -/
theorem Sound.length_popped_le (h : Sound children first crew) (htree : IsTree children first) :
    crew.popped.length ≤ htree.finite.toFinset.card := by
  classical
  rw [← List.toFinset_card_of_nodup (List.nodup_append.1 h.nodup).1]
  apply Finset.card_le_card
  intro item hitem
  rw [Set.Finite.mem_toFinset]
  exact h.below item (List.mem_append_left _ (List.mem_toFinset.1 hitem))

/-- A move that is more than waiting gets cheaper. -/
theorem cost_move (htree : IsTree children first) (h : Sound children first crew)
    (hmove : Move children crew after) :
    after = crew ∧ crew.pending.inFlight ≠ 0 ∨
      after.cost htree.finite.toFinset.card < crew.cost htree.finite.toFinset.card := by
  have hbound := (sound_move htree h hmove).length_popped_le htree
  cases hmove with
  | wait hopen hstack hbusy => exact .inl ⟨rfl, hbusy⟩
  | @take worker item rest hworker hopen hstack =>
    have hsum := sum_cost_set (.holding item) hworker
    right
    simp only [cost, Worker.cost, List.length_cons] at hsum hbound ⊢
    omega
  | leave hworker | close hworker =>
    have hsum := sum_cost_set .left hworker
    right
    simp only [cost, Worker.cost] at hsum ⊢
    omega
  | handBack hworker =>
    have hsum := sum_cost_set .free hworker
    right
    simp only [cost, handBack, Worker.cost] at hsum ⊢
    omega

/-- A crew of which somebody has not left can change something. -/
theorem exists_change (htree : IsTree children first) (h : Sound children first crew)
    (hstays : ∃ worker ∈ crew.workers, worker ≠ .left) :
    ∃ after, Step children crew after ∧ after ≠ crew := by
  by_cases hheld : crew.held = []
  · obtain ⟨found, hfound, hne⟩ := hstays
    obtain ⟨worker, hworker⟩ := List.mem_iff_getElem?.1 hfound
    cases found with
    | left => exact absurd rfl hne
    | holding item =>
      have hmem : item ∈ crew.held := List.mem_filterMap.2 ⟨_, hfound, rfl⟩
      rw [hheld] at hmem
      cases hmem
    | free =>
      refine ⟨_, .ask hworker, ?_⟩
      have hidle : crew.pending.inFlight = 0 := by
        rw [h.inFlight_eq, hheld]
        rfl
      rcases cost_move htree h (move_ask hworker) with ⟨-, hbusy⟩ | hlt
      · exact absurd hidle hbusy
      · intro heq
        rw [heq] at hlt
        exact lt_irrefl _ hlt
  · obtain ⟨item, hitem⟩ := List.exists_mem_of_ne_nil _ hheld
    obtain ⟨found, hfound, hholds⟩ := List.mem_filterMap.1 hitem
    obtain ⟨worker, hworker⟩ := List.mem_iff_getElem?.1 hfound
    cases found with
    | free | left => cases hholds
    | holding item =>
      refine ⟨_, .handBack hworker, fun heq => ?_⟩
      have hlength := congrArg (·.completed.length) heq
      simp [handBack] at hlength

/-- Workers neither come nor vanish. -/
theorem length_workers_move (hmove : Move children crew after) :
    after.workers.length = crew.workers.length := by
  cases hmove <;> simp [handBack]

/-- Every run of at least one worker ends, and then the stack is closed and every item was taken
once. -/
theorem ends_of_sound [DecidableEq α] (htree : IsTree children first)
    (h : Sound children first crew) (hsome : crew.workers ≠ []) :
    Ends children (fun final => final.pending.closed = true ∧
      ∀ item, Below children first item → final.popped.countP (· = item) = 1) crew := by
  generalize hcost : crew.cost htree.finite.toFinset.card = bound
  induction bound using Nat.strong_induction_on generalizing crew with
  | _ bound ih =>
    by_cases hstays : ∃ worker ∈ crew.workers, worker ≠ .left
    · refine .step (exists_change htree h hstays) fun after hstep hne => ?_
      have hmove := move_of_step hstep
      rcases cost_move htree h hmove with ⟨heq, -⟩ | hlt
      · exact absurd heq hne
      · refine ih _ (hcost ▸ hlt) (sound_move htree h hmove) ?_ rfl
        rw [← List.length_pos_iff, length_workers_move hmove, List.length_pos_iff]
        exact hsome
    · push Not at hstays
      obtain ⟨worker, hworker⟩ := List.exists_mem_of_ne_nil _ hsome
      have hclosed := h.left (hstays worker hworker ▸ hworker)
      refine .done hstays ⟨hclosed, fun item hitem => ?_⟩
      have hcompleted := h.mem_completed (h.closed hclosed).1 (h.closed hclosed).2 hitem
      have hmem := h.perm.mem_iff.2 (List.mem_append_left _ hcompleted)
      have hcount := List.count_eq_one_of_mem (List.nodup_append.1 h.nodup).1 hmem
      simpa only [List.count, beq_eq_decide] using hcount

/-- The stack closes in a step only when everything was handed back. -/
theorem Sound.of_closing (h : Sound children first crew) (hmove : Move children crew after)
    (hopen : crew.pending.closed = false) (hclosed : after.pending.closed = true) :
    crew.pending.stack = [] ∧ crew.pending.inFlight = 0 ∧
      ∀ item, Below children first item → item ∈ crew.completed := by
  cases hmove with
  | take => cases hclosed
  | wait | leave | handBack => exact absurd (hopen.symm.trans hclosed) (by decide)
  | close hworker _ hstack hidle =>
    have hcount := h.inFlight_eq
    rw [hidle] at hcount
    have hheld := List.length_eq_zero_iff.1 hcount.symm
    exact ⟨hstack, hidle, fun item hitem => h.mem_completed hstack hheld hitem⟩

end Crew

/-! ## Calls -/

/-- What anybody may do to a stack. -/
inductive Call (α : Type) where
  | pop
  | complete (items : List α)
  | abort

def Call.apply (pending : Pending α) : Call α → Pending α
  | .pop => pending.pop.2
  | .complete items => pending.complete items
  | .abort => pending.abort

def after (pending : Pending α) (calls : List (Call α)) : Pending α :=
  calls.foldl Call.apply pending

/-- A closed stack stays closed, whatever is called. -/
theorem closed_apply {pending : Pending α} (h : pending.closed = true) (call : Call α) :
    (call.apply pending).closed = true := by
  cases call with
  | pop => simp [Call.apply, pop, h]
  | complete items => exact h
  | abort => rfl

/-- A closed stack stays closed after any calls. -/
theorem closed_after {pending : Pending α} (h : pending.closed = true) (calls : List (Call α)) :
    (pending.after calls).closed = true := by
  induction calls generalizing pending with
  | nil => exact h
  | cons call calls ih => exact ih (closed_apply h call)

theorem after_append (pending : Pending α) (calls later : List (Call α)) :
    pending.after (calls ++ later) = (pending.after calls).after later :=
  List.foldl_append

/-- A stack is closed for good once it was aborted. -/
theorem closed_of_abort_mem (pending : Pending α) {calls : List (Call α)} (h : .abort ∈ calls) :
    (pending.after calls).closed = true := by
  obtain ⟨front, back, rfl⟩ := List.append_of_mem h
  rw [after_append]
  exact closed_after rfl back

/-- A closed stack hands nothing out. -/
theorem pop_of_closed {pending : Pending α} (h : pending.closed = true) :
    pending.pop.1 = .finished := by
  simp [pop, h]

/-! ## The protocol -/

/-- Any number of workers that each take an item and then hand it back with its children take
every item of a finite tree once. At any moment the number in flight is that of the items taken and
not handed back, and the stack closes only when nothing waits, nothing is in flight and everything
was handed back. Whatever anybody calls, a stack that was closed or stopped gives nothing out. -/
theorem crew_takes_each_once [DecidableEq α] {children : α → List α} {first : α}
    (htree : IsTree children first) (workers : Nat) :
    (∀ crew, Relation.ReflTransGen (Crew.Step children) (.start first workers) crew →
      crew.popped.Nodup ∧
      (∀ item ∈ crew.popped, Below children first item) ∧
      crew.pending.inFlight = (crew.popped.filter (· ∉ crew.completed)).length ∧
      ∀ after, Crew.Step children crew after →
        crew.pending.closed = false → after.pending.closed = true →
        crew.pending.stack = [] ∧ crew.pending.inFlight = 0 ∧
          ∀ item, Below children first item → item ∈ crew.completed) ∧
    (0 < workers →
      Crew.Ends children (fun final => final.pending.closed = true ∧
        ∀ item, Below children first item → final.popped.countP (· = item) = 1)
          (.start first workers)) ∧
    ∀ (pending : Pending α) (calls : List (Call α)),
      (pending.after calls).closed = true ∨ .abort ∈ calls →
      ∀ later, (pending.after (calls ++ later)).pop.1 = .finished := by
  have hstart := Crew.sound_start children first workers
  refine ⟨fun crew hreaches => ?_, fun hworkers => ?_, fun pending calls hstop later => ?_⟩
  · have hsound := Crew.sound_reaches htree hstart hreaches
    refine ⟨(List.nodup_append.1 hsound.nodup).1, ?_, hsound.inFlight_eq_length_filter, ?_⟩
    · exact fun item hitem => hsound.below item (List.mem_append_left _ hitem)
    · exact fun after hstep => hsound.of_closing (Crew.move_of_step hstep)
  · apply Crew.ends_of_sound htree hstart
    simpa [Crew.start] using hworkers.ne'
  · have hclosed : (pending.after calls).closed = true :=
      hstop.elim id (closed_of_abort_mem pending)
    apply pop_of_closed
    rw [after_append]
    exact closed_after hclosed later

/-- The directories `a`, `a/c` and `b` of a root. -/
def threeBelow (path : Path) : List Path :=
  if path = [] then [[0x61], [0x62]]
  else if path = [0x61] then [[0x61, 0x2F, 0x63]]
  else []

theorem mem_of_below_threeBelow {path : Path} (h : Below threeBelow [] path) :
    path ∈ [[], [0x61], [0x62], [0x61, 0x2F, 0x63]] := by
  have hclosed : ∀ parent ∈ [[], [0x61], [0x62], [0x61, 0x2F, 0x63]],
      ∀ item ∈ threeBelow parent, item ∈ [[], [0x61], [0x62], [0x61, 0x2F, 0x63]] := by
    decide
  induction h with
  | start => decide
  | child _ hitem ih => exact hclosed _ ih _ hitem

theorem isTree_threeBelow : IsTree threeBelow [] where
  finite := (List.finite_toSet _).subset fun _ => mem_of_below_threeBelow
  nodup h := by
    have hall : ∀ item ∈ [[], [0x61], [0x62], [0x61, 0x2F, 0x63]], (threeBelow item).Nodup := by
      decide
    exact hall _ (mem_of_below_threeBelow h)
  first_notMem h := by
    have hall : ∀ item ∈ [[], [0x61], [0x62], [0x61, 0x2F, 0x63]], [] ∉ threeBelow item := by
      decide
    exact hall _ (mem_of_below_threeBelow h)
  parent_eq h h' hitem hitem' := by
    have hall : ∀ parent ∈ [[], [0x61], [0x62], [0x61, 0x2F, 0x63]],
        ∀ other ∈ [[], [0x61], [0x62], [0x61, 0x2F, 0x63]], ∀ item ∈ threeBelow parent,
          item ∈ threeBelow other → parent = other := by
      decide
    exact hall _ (mem_of_below_threeBelow h) _ (mem_of_below_threeBelow h') _ hitem hitem'

/-- Two workers take the four directories once each, in whatever order they ask. -/
theorem crew_takes_each_once_threeBelow :
    IsTree threeBelow [] ∧ 0 < 2 ∧
      Crew.Ends threeBelow (fun final => final.pending.closed = true ∧
        ∀ item, Below threeBelow [] item → final.popped.countP (· = item) = 1) (.start [] 2) :=
  ⟨isTree_threeBelow, by decide, (crew_takes_each_once isTree_threeBelow 2).2.1 (by decide)⟩

end TreeManifest.Pending
