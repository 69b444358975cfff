import Mathlib.Logic.Relation
import TreeManifest.Attributes
import TreeManifest.Attributes.Memory
import TreeManifest.Proofs.Hardlink.Groups
import TreeManifest.Record.Read
import TreeManifest.System

/-!
# Every operation keeps the rule for attribute maps

Entries are made from a path and a mode, from what the system knows of an object, or from a text, and
are then changed by a handful of operations. However these are put together, a map of attributes has a
binding and binds visible names only.

## Main definitions

- `Entry.Origin`: where entries come from.
- `Entry.Operation`: what can be done to one entry, with its answer and the entry afterwards.
- `Entry.Step`: one step of the work on a list of entries.

## Main statements

- `Record.wellFormed_toEntry`: loading gives a well-formed entry, whatever the record holds.
- `Entry.Operation.wellFormed_run`: an operation on one entry keeps the rule.
- `Entry.Step.wellFormed`: a step keeps the rule for all entries of a list.
- `Entry.wellFormed_of_steps`: the rule holds after any sequence of steps, and an operation that
  fails has changed nothing.
-/

namespace TreeManifest

namespace Entry

variable {entry other : Entry} {map : AttributeMap} {name : String} {value : Bytes}

/-! ## Single operations -/

/-- Well-formedness is a matter of the attributes alone. -/
theorem WellFormed.congr (h : entry.WellFormed) (hsame : other.attributes = entry.attributes) :
    other.WellFormed := by
  intro map hmap
  exact h map (hsame ▸ hmap)

/-- An entry without attributes is well-formed. -/
theorem wellFormed_of_attributes_eq_none (h : entry.attributes = none) : entry.WellFormed := by
  intro map hmap
  rw [h] at hmap
  cases hmap

/-- Putting a map with visible names into an entry makes it well-formed, whatever it had. -/
theorem wellFormed_putAttributes (entry : Entry) {map : Option AttributeMap}
    (h : ∀ kept, map = some kept → ∀ name ∈ kept.keys, AttributeName.IsVisible name) :
    (entry.putAttributes map).WellFormed := by
  intro kept hkept
  obtain ⟨hmap, hbound⟩ := Option.filter_eq_some_iff.1 hkept
  exact ⟨by simpa using hbound, h kept hmap⟩

theorem isEmpty_insert (map : AttributeMap) (name : String) (value : Bytes) :
    (map.insert name value).isEmpty = false := by
  have hname : name ∈ (map.insert name value).keys :=
    AttributeMap.contains_iff.1 ((AttributeMap.contains_insert map name name value).2 (.inl rfl))
  obtain ⟨binding, hbinding, -⟩ := List.mem_map.1 hname
  exact List.isEmpty_eq_false_iff_exists_mem.2 ⟨binding, hbinding⟩

/-- Setting an attribute either fails or keeps an entry well-formed. -/
theorem WellFormed.setAttribute (h : entry.WellFormed)
    (hset : entry.setAttribute name value = .ok other) : other.WellFormed := by
  unfold Entry.setAttribute at hset
  cases hcheck : AttributeName.check name with
  | error error =>
    rw [hcheck] at hset
    cases hset
  | ok _ =>
    rw [hcheck] at hset
    cases hset
    intro map hmap
    obtain rfl := Option.some.inj hmap
    refine ⟨isEmpty_insert _ _ _, fun key hkey => ?_⟩
    rw [← AttributeMap.contains_iff, AttributeMap.contains_insert] at hkey
    rcases hkey with rfl | hkey
    · exact AttributeName.check_eq_ok_iff.1 hcheck
    · exact h.isVisible (AttributeMap.contains_iff.1 hkey)

/-- Removing an attribute keeps an entry well-formed, for it never leaves an empty map. -/
theorem WellFormed.removeAttribute (h : entry.WellFormed) (name : String) :
    (entry.removeAttribute name).2.WellFormed := by
  unfold Entry.removeAttribute
  split
  · exact h
  · next map hmap =>
    apply wellFormed_putAttributes
    rintro _ ⟨⟩ key hkey
    exact (h map hmap).2 key (AttributeMap.mem_keys_filter.1 hkey).1

/-- Bindings that pass the check of names have visible names. -/
theorem isVisible_of_forM_check {bindings : List (String × Bytes)}
    (h : (bindings.forM fun binding => AttributeName.check binding.1) = .ok ()) :
    ∀ binding ∈ bindings, AttributeName.IsVisible binding.1 := by
  induction bindings with
  | nil =>
    intro binding hbinding
    cases hbinding
  | cons first rest ih =>
    change (do AttributeName.check first.1
               rest.forM fun binding => AttributeName.check binding.1) = .ok () at h
    cases hcheck : AttributeName.check first.1 with
    | error error =>
      rw [hcheck] at h
      cases h
    | ok _ =>
      rw [hcheck] at h
      rw [List.forall_mem_cons]
      exact ⟨AttributeName.check_eq_ok_iff.1 hcheck, ih h⟩

theorem isVisible_of_mem_keys_ofList {bindings : List (String × Bytes)}
    (h : ∀ binding ∈ bindings, AttributeName.IsVisible binding.1) :
    ∀ name ∈ (AttributeMap.ofList bindings).keys, AttributeName.IsVisible name := by
  intro name hname
  rw [← AttributeMap.contains_iff, AttributeMap.contains_ofList] at hname
  obtain ⟨value, hvalue⟩ := hname
  exact h _ hvalue

/-- Replacing all attributes makes an entry well-formed, whatever it had. -/
theorem wellFormed_setAttributes {bindings : List (String × Bytes)}
    (hset : entry.setAttributes bindings = .ok other) : other.WellFormed := by
  unfold Entry.setAttributes at hset
  cases hcheck : bindings.forM fun binding => AttributeName.check binding.1 with
  | error error =>
    rw [hcheck] at hset
    cases hset
  | ok _ =>
    rw [hcheck] at hset
    cases hset
    apply wellFormed_putAttributes
    rintro _ ⟨⟩
    exact isVisible_of_mem_keys_ofList (isVisible_of_forM_check hcheck)

/-- The reserved names are dropped here, so only the empty name has to be absent before. -/
theorem wellFormed_normalizeReserved
    (h : ∀ map, entry.attributes = some map → "" ∉ map.keys) :
    entry.normalizeReserved.2.WellFormed := by
  unfold normalizeReserved
  split
  · next hnone => exact wellFormed_of_attributes_eq_none hnone
  · next map hmap =>
    have hkept : (entry.putAttributes
        (some (map.filter fun name => !AttributeName.isReserved name))).WellFormed := by
      apply wellFormed_putAttributes
      rintro _ ⟨⟩ name hname
      obtain ⟨hbound, hreserved⟩ := AttributeMap.mem_keys_filter.1 hname
      refine ⟨?_, by simpa using hreserved⟩
      rintro rfl
      exact h map hmap hbound
    exact hkept.congr rfl

/-- Moving reserved attributes out keeps an entry well-formed. -/
theorem WellFormed.normalizeReserved (h : entry.WellFormed) :
    entry.normalizeReserved.2.WellFormed := by
  apply wellFormed_normalizeReserved
  intro map hmap hempty
  exact ((h map hmap).2 "" hempty).1 rfl

end Entry

/-- Loading gives a well-formed entry, whatever the record holds. -/
theorem Record.wellFormed_toEntry (record : Record) : record.toEntry.WellFormed := by
  unfold Record.toEntry
  dsimp only
  apply Entry.wellFormed_putAttributes
  intro kept hkept
  refine (Entry.wellFormed_normalizeReserved ?_ kept hkept).2
  intro map hmap hempty
  obtain ⟨bound, -, rfl⟩ := Option.map_eq_some_iff.1 hmap
  exact absurd (AttributeMap.mem_keys_filter.1 hempty).2 (by simp)

namespace Entry

/-- An entry that was read is that of a record. -/
theorem exists_record_of_parse {text : String} (h : Entry.parse text = .ok entry) :
    ∃ record, Record.parse text = .ok record ∧ record.toEntry = entry := by
  unfold Entry.parse at h
  cases hrecord : Record.parse text with
  | error fault =>
    rw [hrecord] at h
    cases h
  | ok record =>
    rw [hrecord] at h
    exact ⟨record, rfl, Except.ok.inj h⟩

variable {σ : Type}

/-- Capture keeps visible names only, whatever the provider lists. -/
theorem isVisible_of_mem_readListed (provider : AttributeProvider σ) (target : Path)
    (names : List String) (state : σ) :
    ∀ binding ∈ ((readListed provider target names).run state).value,
      AttributeName.IsVisible binding.1 := by
  induction names generalizing state with
  | nil =>
    intro binding hbinding
    cases hbinding
  | cons name rest ih =>
    rw [readListed]
    by_cases hvisible : AttributeName.IsVisible name
    · rw [if_pos hvisible, Task.run_bind]
      dsimp only
      rcases ((provider.get target name).run state).value with error | _ | value
      · exact ih _
      · exact ih _
      · rw [Task.run_bind, Task.run_pure, List.forall_mem_cons]
        exact ⟨hvisible, ih _⟩
    · rw [if_neg hvisible]
      exact ih state

/-- Capture keeps an entry well-formed for every provider. -/
theorem WellFormed.captureAttributes (h : entry.WellFormed) (provider : AttributeProvider σ)
    (target : Path) (state : σ) :
    ((captureAttributes provider entry target).run state).value.2.WellFormed := by
  unfold TreeManifest.captureAttributes
  split
  · exact h
  · rw [Task.run_bind]
    dsimp only
    rcases ((provider.list target).run state).value with error | names
    · exact h
    · apply wellFormed_putAttributes
      rintro _ ⟨⟩
      exact isVisible_of_mem_keys_ofList (isVisible_of_mem_readListed provider target names _)

/-- Classification keeps an entry well-formed for every tracker. -/
theorem WellFormed.classify (h : entry.WellFormed) (tracker : Hardlink.Tracker)
    (linkCount : UInt64) : (tracker.classify entry linkCount).2.1.WellFormed := by
  unfold Hardlink.Tracker.classify
  split
  · exact h
  · split
    · exact h
    · split
      · exact h.congr rfl
      · exact h.congr rfl

theorem wellFormed_settleOne {all : List Entry} (hall : ∀ entry ∈ all, entry.WellFormed)
    (tracker : Hardlink.Tracker) (h : entry.WellFormed) :
    (Hardlink.settleOne all tracker entry).1.WellFormed := by
  unfold Hardlink.settleOne
  split
  · exact h
  · next identity hgroup =>
    split
    · have helected : (entry.putAttributes
          ((Hardlink.members identity all).findSome? (·.attributes))).WellFormed := by
        apply wellFormed_putAttributes
        intro map hmap
        obtain ⟨member, hmember, hattributes⟩ := List.exists_of_findSome?_eq_some hmap
        exact (hall member (List.mem_of_mem_filter hmember) map hattributes).2
      exact helected.congr rfl
    · exact wellFormed_of_attributes_eq_none rfl

/-- Settling a part of the entries takes contents from well-formed entries only. -/
theorem wellFormed_settleFrom {all : List Entry} (hall : ∀ entry ∈ all, entry.WellFormed)
    (tracker : Hardlink.Tracker) {entries : List Entry}
    (h : ∀ entry ∈ entries, entry.WellFormed) :
    ∀ entry ∈ Hardlink.settleFrom all tracker entries, entry.WellFormed := by
  induction entries generalizing tracker with
  | nil => exact h
  | cons first rest ih =>
    obtain ⟨hfirst, hrest⟩ := List.forall_mem_cons.1 h
    rw [Hardlink.settleFrom_cons, List.forall_mem_cons]
    exact ⟨wellFormed_settleOne hall tracker hfirst, ih _ hrest⟩

/-- Settling roles keeps all entries well-formed. -/
theorem wellFormed_settle {entries : List Entry} (h : ∀ entry ∈ entries, entry.WellFormed) :
    ∀ entry ∈ Hardlink.settle entries, entry.WellFormed :=
  wellFormed_settleFrom h {} h

/-! ## Sequences of operations -/

inductive Origin where
  | new (path : Path) (mode : UInt32)
  | root
  | stat (path : Path) (object : Stat)
  | text (contents : String)

/-- The entry of an origin. Only a text may have none. -/
def Origin.make : Origin → Except Json.Fault Entry
  | .new path mode => .ok (.new path mode)
  | .root => .ok .root
  | .stat path object => .ok (.ofStat path object)
  | .text contents => Entry.parse contents

/-- Every way of making an entry gives a well-formed one. -/
theorem Origin.wellFormed {origin : Origin} (h : origin.make = .ok entry) : entry.WellFormed := by
  cases origin with
  | new path mode =>
    cases h
    exact wellFormed_new path mode
  | root =>
    cases h
    exact wellFormed_root
  | stat path object =>
    cases h
    exact wellFormed_of_attributes_eq_none rfl
  | text contents =>
    obtain ⟨record, -, rfl⟩ := exists_record_of_parse h
    exact record.wellFormed_toEntry

inductive Refusal where
  | name (error : AttributeNameError)
  | metadata (error : MetadataError)

/-- What can be done to one entry. All fields but the attributes may be assigned freely. -/
inductive Operation : Type 1 where
  | setAttribute (name : String) (value : Bytes)
  | removeAttribute (name : String)
  | setAttributes (bindings : List (String × Bytes))
  | clearAttributes
  | normalizeReserved
  | captureAttributes {σ : Type} (provider : AttributeProvider σ) (target : Path) (state : σ)
  | classify (tracker : Hardlink.Tracker) (linkCount : UInt64)
  | assign (fields : Entry)

namespace Operation

/-- Stores the entry that an operation gives, if it gives one. -/
def store (entry : Entry) : Except AttributeNameError Entry → Except Refusal Unit × Entry
  | .ok changed => (.ok (), changed)
  | .error error => (.error (.name error), entry)

/-- The answer of an operation, and the entry after it. -/
def run (entry : Entry) : Operation → Except Refusal Unit × Entry
  | .setAttribute name value => store entry (entry.setAttribute name value)
  | .removeAttribute name => (.ok (), (entry.removeAttribute name).2)
  | .setAttributes bindings => store entry (entry.setAttributes bindings)
  | .clearAttributes => (.ok (), entry.clearAttributes)
  | .normalizeReserved => (.ok (), entry.normalizeReserved.2)
  | .captureAttributes provider target state =>
    let answer := ((TreeManifest.captureAttributes provider entry target).run state).value
    ((answer.1.map fun _ => ()).mapError .metadata, answer.2)
  | .classify tracker linkCount => (.ok (), (tracker.classify entry linkCount).2.1)
  | .assign fields => (.ok (), { fields with attributes := entry.attributes })

/-- Storing the answer of an operation keeps an entry well-formed if the answer is. -/
theorem wellFormed_store {answer : Except AttributeNameError Entry} (h : entry.WellFormed)
    (hanswer : ∀ changed, answer = .ok changed → changed.WellFormed) :
    (store entry answer).2.WellFormed := by
  cases answer with
  | ok changed => exact hanswer changed rfl
  | error error => exact h

/-- Every operation keeps an entry well-formed. -/
theorem wellFormed_run (operation : Operation) (h : entry.WellFormed) :
    (operation.run entry).2.WellFormed := by
  cases operation with
  | setAttribute name value => exact wellFormed_store h fun _ hset => h.setAttribute hset
  | removeAttribute name => exact h.removeAttribute name
  | setAttributes bindings => exact wellFormed_store h fun _ hset => wellFormed_setAttributes hset
  | clearAttributes => exact wellFormed_of_attributes_eq_none rfl
  | normalizeReserved => exact h.normalizeReserved
  | captureAttributes provider target state => exact h.captureAttributes provider target state
  | classify tracker linkCount => exact h.classify tracker linkCount
  | assign fields => exact h.congr rfl

/-- A refused operation leaves the entry as it was. -/
theorem store_eq_self_of_error {answer : Except AttributeNameError Entry} {refusal : Refusal}
    (h : (store entry answer).1 = .error refusal) : (store entry answer).2 = entry := by
  cases answer with
  | ok changed => cases h
  | error error => rfl

/-- Capture fails before it has touched the entry: once the names are listed it works. -/
theorem captureAttributes_eq_self_of_error {provider : AttributeProvider σ} {target : Path}
    {state : σ} {error : MetadataError}
    (h : ((TreeManifest.captureAttributes provider entry target).run state).value.1 =
      .error error) :
    ((TreeManifest.captureAttributes provider entry target).run state).value.2 = entry := by
  unfold TreeManifest.captureAttributes at h ⊢
  by_cases hcarries : (!entry.kind.carriesAttributes) = true
  · rw [if_pos hcarries]
    rfl
  · rw [if_neg hcarries, Task.run_bind] at h ⊢
    dsimp only at h ⊢
    cases hlist : ((provider.list target).run state).value with
    | error fault => rfl
    | ok names =>
      rw [hlist] at h
      cases h

/-- An operation that fails has changed nothing. -/
theorem run_eq_self_of_error {operation : Operation} {refusal : Refusal}
    (h : (operation.run entry).1 = .error refusal) : (operation.run entry).2 = entry := by
  cases operation with
  | setAttribute name value => exact store_eq_self_of_error h
  | setAttributes bindings => exact store_eq_self_of_error h
  | captureAttributes provider target state =>
    cases hanswer : ((TreeManifest.captureAttributes provider entry target).run state).value.1 with
    | error error => exact captureAttributes_eq_self_of_error hanswer
    | ok size =>
      simp only [run, hanswer] at h
      cases h
  | _ => cases h

end Operation

/-- One step of the work on a list of entries: a new one, an operation on one of them, the settling
of a part of the list, or a list with copies of some of them in any order. -/
inductive Step : List Entry → List Entry → Prop where
  | create {entries : List Entry} {origin : Origin} {entry : Entry}
      (h : origin.make = .ok entry) : Step entries (entry :: entries)
  | change (front back : List Entry) (entry : Entry) (operation : Operation) :
      Step (front ++ entry :: back) (front ++ (operation.run entry).2 :: back)
  | settle (front part back : List Entry) :
      Step (front ++ part ++ back) (front ++ Hardlink.settle part ++ back)
  | arrange {entries after : List Entry} (h : ∀ entry ∈ after, entry ∈ entries) :
      Step entries after

/-- One step keeps all entries well-formed. -/
theorem Step.wellFormed {before after : List Entry} (h : Step before after)
    (hbefore : ∀ entry ∈ before, entry.WellFormed) : ∀ entry ∈ after, entry.WellFormed := by
  cases h with
  | create horigin =>
    rw [List.forall_mem_cons]
    exact ⟨Origin.wellFormed horigin, hbefore⟩
  | change front back entry operation =>
    rw [List.forall_mem_append, List.forall_mem_cons] at hbefore ⊢
    obtain ⟨hfront, hentry, hback⟩ := hbefore
    exact ⟨hfront, operation.wellFormed_run hentry, hback⟩
  | settle front part back =>
    rw [List.forall_mem_append, List.forall_mem_append] at hbefore ⊢
    obtain ⟨⟨hfront, hpart⟩, hback⟩ := hbefore
    exact ⟨⟨hfront, wellFormed_settle hpart⟩, hback⟩
  | arrange hmem =>
    intro entry hentry
    exact hbefore entry (hmem entry hentry)

/-- After any number of steps all entries are well-formed. -/
theorem wellFormed_of_reflTransGen {entries : List Entry}
    (h : Relation.ReflTransGen Step [] entries) : ∀ entry ∈ entries, entry.WellFormed := by
  induction h with
  | refl =>
    intro entry hentry
    cases hentry
  | tail _ hstep ih => exact hstep.wellFormed ih

/-- Whatever sequence of steps made a list of entries, all of them are well-formed. An operation
that fails leaves its entry as it was. -/
theorem wellFormed_of_steps :
    (∀ entries, Relation.ReflTransGen Step [] entries → ∀ entry ∈ entries, entry.WellFormed) ∧
    ∀ (entry : Entry) (operation : Operation) (refusal : Refusal),
      (operation.run entry).1 = .error refusal → (operation.run entry).2 = entry :=
  ⟨fun _ => wellFormed_of_reflTransGen, fun _ _ _ => Operation.run_eq_self_of_error⟩

/-! ## Two names of one file -/

def sharedStat : Stat := ⟨0o100644, 1, 5, 0, 0, 2, 0, ⟨1, 7⟩⟩

/-- Attributes that show hidden names beside a visible one. -/
def sharedAttributes : MemoryStore :=
  ⟨[([0x61], {
    values := .ofList [("", [1]), ("user.a", [2]), ("\x00lf", [3])] })]⟩

def capturedName : Entry :=
  ((Operation.captureAttributes MemoryStore.provider [0x61] sharedAttributes).run
    ((Operation.classify {} 2).run (.ofStat [0x61] sharedStat)).2).2

/-- The second name of the file, with an attribute of its own. -/
def linkedName : Entry :=
  ((Operation.setAttribute "user.b" [4]).run
    ((Operation.classify ⟨[(⟨1, 7⟩, [0x61])]⟩ 2).run (.ofStat [0x62] sharedStat)).2).2

theorem steps_twoNames :
    Relation.ReflTransGen Step [] (Hardlink.settle [capturedName, linkedName]) := by
  have hlinked : Relation.ReflTransGen Step [] [linkedName] :=
    ((Relation.ReflTransGen.single (@Step.create [] (.stat [0x62] sharedStat) _ rfl)).tail
      (.change [] [] _ (.classify ⟨[(⟨1, 7⟩, [0x61])]⟩ 2))).tail
        (.change [] [] _ (.setAttribute "user.b" [4]))
  have hcaptured : Relation.ReflTransGen Step [linkedName] [capturedName, linkedName] :=
    ((Relation.ReflTransGen.single
      (@Step.create [linkedName] (.stat [0x61] sharedStat) _ rfl)).tail
        (.change [] [linkedName] _ (.classify {} 2))).tail
          (.change [] [linkedName] _
            (.captureAttributes MemoryStore.provider [0x61] sharedAttributes))
  exact (hlinked.trans hcaptured).tail (.settle [] [capturedName, linkedName] [])

theorem wellFormed_of_steps_twoNames :
    Relation.ReflTransGen Step [] (Hardlink.settle [capturedName, linkedName]) ∧
    (∀ entry ∈ Hardlink.settle [capturedName, linkedName], entry.WellFormed) ∧
    (Hardlink.settle [capturedName, linkedName]).map
      (fun entry => entry.attributes.map AttributeMap.toList) = [some [("user.a", [2])], none] ∧
    ((Operation.setAttribute "" [5]).run linkedName).1 = .error (.name .empty) ∧
    ((Operation.setAttribute "" [5]).run linkedName).2 = linkedName := by
  obtain ⟨hwf, herror⟩ := wellFormed_of_steps
  exact ⟨steps_twoNames, hwf _ steps_twoNames, by decide, rfl,
    herror linkedName (.setAttribute "" [5]) _ rfl⟩

end Entry

end TreeManifest
