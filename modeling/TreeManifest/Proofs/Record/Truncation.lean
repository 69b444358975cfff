import TreeManifest.Proofs.Json.Cuts
import TreeManifest.Proofs.Record.RoundTrip

/-!
# Records that are cut off

A written record that is cut off anywhere is refused because it ends too early, and for no other
reason. A number alone may be cut off unnoticed, but then nothing is left for what must follow it.

## Main definitions

- `Record.Stops`, `Record.StopsIn`: a reader finds that its tokens end, or takes all of them.
- `Record.StopsAtMember`: how a member of an object ends too early.
- `Record.Starves`: a loop over separated items finds that its tokens end.

## Main statements

- `Record.Starves.separate`: such a loop finds every cut.
- `Record.stopsIn_write?`: the value of any field.
- `Entry.parse_truncated`: of the beginnings of a written entry only the whole text is loaded.
-/

namespace TreeManifest

namespace Record

open Json (Fault Token IsCut Delimited tokens spelledText spelledInt)

variable {α : Type} {front : List Char}

/-- Whether a reader found that its tokens end too early, or took all of them. -/
def Stops (result : Except Fault (α × List Token)) : Prop :=
  result = .error .truncated ∨ ∃ value, result = .ok (value, [])

/-- Whether a reader stops wherever a text is cut off. -/
def StopsIn (read : List Token → Except Fault (α × List Token)) (text : List Char) : Prop :=
  ∀ front, IsCut front text → Stops (read (tokens front))

/-! ## Separated items -/

/-- A loop over separated items that finds that its tokens end: when there are none left, when an
item is cut off, and when it finds the same behind a whole item. -/
structure Starves {σ ι β : Type} (loop : Bool → σ → List Token → Except Fault β)
    (write : ι → List Char) (Ready : σ → List ι → Prop) : Prop where
  empty : ∀ first state, loop first state [] = .error .truncated
  cut : ∀ {first state item more front}, Ready state (item :: more) → IsCut front (write item) →
    loop first state (lead first ++ tokens front) = .error .truncated
  next : ∀ {first state item more}, Ready state (item :: more) → ∃ after, Ready after more ∧
    ∀ rest, Delimited rest → loop false after (tokens rest) = .error .truncated →
      loop first state (lead first ++ tokens (write item ++ rest)) = .error .truncated

namespace Starves

variable {σ ι β : Type} {loop : Bool → σ → List Token → Except Fault β} {write : ι → List Char}
  {Ready : σ → List ι → Prop} {first : Bool} {state : σ} {item : ι} {items more : List ι}
  {closing : Char}

/-- The items are cut off one behind the other, each of them behind its comma. -/
theorem cons (h : Starves loop write Ready) (hready : Ready state (item :: more))
    (hcut : IsCut front (write item ++ ((more.map write).flatMap (',' :: ·) ++ [closing]))) :
    loop first state (lead first ++ tokens front) = .error .truncated := by
  induction more generalizing first state item front with
  | nil =>
    rcases hcut.append_cases with hitem | ⟨rest, rfl, hrest⟩
    · exact h.cut hready hitem
    · obtain rfl := IsCut.eq_nil_of_singleton hrest
      obtain ⟨after, -, hnext⟩ := h.next hready
      exact hnext [] Json.delimited_nil (Json.tokens_nil ▸ h.empty false after)
  | cons other more ih =>
    rcases hcut.append_cases with hitem | ⟨rest, rfl, hrest⟩
    · exact h.cut hready hitem
    · obtain ⟨after, hafter, hnext⟩ := h.next hready
      rw [List.map_cons, List.flatMap_cons, List.append_assoc] at hrest
      rcases hrest.cons_cases with rfl | ⟨rest, rfl, hmore⟩
      · exact hnext [] Json.delimited_nil (Json.tokens_nil ▸ h.empty false after)
      · refine hnext _ (Json.delimited_cons_of_punctuation rfl rest) ?_
        rw [Json.tokens_cons_of_punctuation rfl]
        exact ih hafter hmore

/-- Wherever separated items are cut off in front of their closing character, the loop finds it. -/
theorem separate (h : Starves loop write Ready) (state : σ) (hready : Ready state items)
    (hcut : IsCut front (Record.separate (items.map write) ++ [closing])) :
    loop true state (tokens front) = .error .truncated := by
  cases items with
  | nil =>
    obtain rfl := IsCut.eq_nil_of_singleton hcut
    exact Json.tokens_nil ▸ h.empty true state
  | cons item more =>
    rw [List.map_cons, separate_cons, List.append_assoc] at hcut
    exact h.cons hready hcut

end Starves

/-! ## Integers -/

/-- A cut number is recognized as truncated or is a number nearer to zero, which still has to fit
the type. -/
theorem stopsIn_ofInt {type : IntegerType α} {number : Int}
    (hlow : Int64.minValue.toInt ≤ number) (hhigh : number < UInt64.size)
    (hfit : ∀ smaller ∈ Set.uIcc 0 number, ∃ value, type.fit? smaller = some value) :
    StopsIn (readInteger type) (Decimal.ofInt number) := by
  intro front hcut
  rcases Json.tokens_of_isCut_ofInt hcut with hempty | hsign | ⟨smaller, hsmaller, htokens⟩
  · exact .inl (hempty ▸ rfl)
  · exact .inl (hsign ▸ rfl)
  · obtain ⟨value, hvalue⟩ := hfit smaller hsmaller
    have hmin : Int64.minValue.toInt ≤ 0 := by decide
    have hmax : (0 : Int) < UInt64.size := by decide
    have hbounds := Set.mem_uIcc.1 hsmaller
    refine .inr ⟨value, ?_⟩
    rw [htokens, readInteger, integer_spelledInt (by omega) (by omega) hvalue]
    rfl

theorem stopsIn_writeWord (word : UInt32) :
    StopsIn (readInteger wordType) (writeNatural word.toNat) := by
  have h : (word.toNat : Int) < UInt32.size := Int.ofNat_lt.2 word.toNat_lt_size
  refine stopsIn_ofInt (minValue_le_natCast _) (Int.lt_trans h (by decide)) fun smaller hsmaller => ?_
  have hbounds := Set.mem_uIcc.1 hsmaller
  exact ⟨_, if_pos (by omega)⟩

theorem stopsIn_writeSize (size : UInt64) :
    StopsIn (readInteger sizeType) (writeNatural size.toNat) := by
  have h : (size.toNat : Int) < UInt64.size := Int.ofNat_lt.2 size.toNat_lt_size
  refine stopsIn_ofInt (minValue_le_natCast _) h fun smaller hsmaller => ?_
  have hbounds := Set.mem_uIcc.1 hsmaller
  exact ⟨_, if_pos (by omega)⟩

theorem stopsIn_writeSigned (value : Int64) :
    StopsIn (readInteger signedType) (writeSigned value) := by
  have hhigh := value.toInt_le
  refine stopsIn_ofInt value.minValue_le_toInt (Int.lt_of_le_of_lt hhigh (by decide))
    fun smaller hsmaller => ?_
  have hlow := value.minValue_le_toInt
  have hmin : Int64.minValue.toInt ≤ 0 := by decide
  have hmax : 0 ≤ Int64.maxValue.toInt := by decide
  have hbounds := Set.mem_uIcc.1 hsmaller
  exact ⟨_, if_pos (by omega)⟩

/-! ## Byte strings -/

theorem starves_readByteElements :
    Starves (fun first (_ : Unit) => readByteElements first)
      (fun byte : UInt8 => Decimal.digits byte.toNat) (fun _ _ => True) where
  empty first _ := by cases first <;> rfl
  cut {first _ byte _ front} _ hcut := by
    rcases Json.tokens_of_isCut_digits hcut with hempty | ⟨smaller, hlt, htokens⟩
    · rw [hempty]
      cases first <;> rfl
    · have hbyte : spelledInt smaller = spelledByte (UInt8.ofNat smaller) := by
        rw [spelledByte, UInt8.toNat_ofNat_of_lt' (Nat.lt_trans hlt byte.toNat_lt_size)]
      rw [htokens, hbyte, readByteElements_lead]
      rfl
  next {first _ byte _} _ := by
    refine ⟨(), trivial, fun rest hrest hstarved => ?_⟩
    rw [Json.spells_digits byte.toNat rest hrest]
    exact (readByteElements_lead first byte (tokens rest)).trans (by rw [hstarved]; rfl)

/-- A cut array of bytes is recognized as truncated. -/
theorem stopsIn_writeBytes (bytes : Bytes) : StopsIn readBytes (writeBytes bytes) := by
  intro front hcut
  rcases hcut.cons_cases with rfl | ⟨rest, rfl, hrest⟩
  · exact .inl (by rw [Json.tokens_nil]; rfl)
  · rw [Json.tokens_cons_of_punctuation rfl]
    exact .inl (starves_readByteElements.separate () trivial hrest)

/-! ## Members of objects -/

/-- How a member that is cut off stops the reader of an object: its name is missing or broken off,
its value is, or nothing is left behind its value. -/
inductive StopsAtMember (first : Bool) (name : String)
    (read : List Token → Except Fault (α × List Token)) (tokens : List Token) : Prop
  | missing (h : nextMember first tokens = .error .truncated)
  | name {body : Json.StringBody} {rest : List Token}
    (h : nextMember first tokens = .ok (some (body, rest))) (htext : body.text = .error .truncated)
  | value {body : Json.StringBody} {rest : List Token}
    (h : nextMember first tokens = .ok (some (body, rest))) (htext : body.text = .ok name)
    (hvalue : readAfterColon read rest = .error .truncated)
  | whole {body : Json.StringBody} {rest : List Token} {value : α}
    (h : nextMember first tokens = .ok (some (body, rest))) (htext : body.text = .ok name)
    (hvalue : readAfterColon read rest = .ok (value, []))

/-- A cut within a member stops at that member. -/
theorem stopsAtMember_of_isCut {first : Bool} {name : String} {value : List Char}
    {read : List Token → Except Fault (α × List Token)} (hread : StopsIn read value)
    (h : IsCut front (Json.quote name ++ ':' :: value)) :
    StopsAtMember first name read (lead first ++ tokens front) := by
  rcases h.append_cases with hname | ⟨rest, rfl, hrest⟩
  · rcases Json.tokens_of_isCut_quote hname with hempty | ⟨body, hbody, htext⟩
    · refine .missing ?_
      rw [hempty]
      cases first <;> rfl
    · exact .name (hbody ▸ nextMember_lead first body []) htext
  · have hmember := nextMember_lead first (spelledText name) (tokens rest)
    rw [← Json.tokens_quote] at hmember
    have htext := Json.text_spelledText name
    rcases hrest.cons_cases with rfl | ⟨rest, rfl, hvalue⟩
    · exact .value hmember htext (Json.tokens_nil ▸ rfl)
    · have hcolon : readAfterColon read (tokens (':' :: rest)) = read (tokens rest) := by
        rw [Json.tokens_cons_of_punctuation rfl]
        rfl
      rcases hread rest hvalue with hstops | ⟨value, hstops⟩
      · exact .value hmember htext (hcolon.trans hstops)
      · exact .whole hmember htext (hcolon.trans hstops)

/-! ## Attributes -/

theorem readBindings_missing {first : Bool} {tokens : List Token} {fault : Fault}
    (h : nextMember first tokens = .error fault) : readBindings first tokens = .error fault := by
  rw [readBindings]
  split <;> simp_all

/-- A map that stops within a member is recognized as truncated. -/
theorem StopsAtMember.readBindings_eq {first : Bool} {name : String} {tokens : List Token}
    (h : StopsAtMember first name readBytes tokens) :
    readBindings first tokens = .error .truncated := by
  cases h with
  | missing h => exact readBindings_missing h
  | name h htext =>
    rw [readBindings_member h, htext]
    rfl
  | value h htext hvalue =>
    rw [readBindings_member h, htext, hvalue]
    rfl
  | whole h htext hvalue =>
    rw [readBindings_step h htext hvalue, readBindings_missing rfl]
    rfl

theorem starves_readBindings :
    Starves (fun first (_ : Unit) => readBindings first) writeBinding (fun _ _ => True) where
  empty first _ := readBindings_missing rfl
  cut {_ _ binding _ _} _ hcut :=
    (stopsAtMember_of_isCut (stopsIn_writeBytes binding.2) hcut).readBindings_eq
  next {first _ binding _} _ := by
    obtain ⟨spelled, hspells, hmember⟩ :=
      (member_writeBinding binding).exists_spelled reads_of_writesBytes
    refine ⟨(), trivial, fun rest hrest hstarved => ?_⟩
    rw [hspells rest hrest]
    exact (readBindings_lead hmember first (tokens rest)).trans (by rw [hstarved]; rfl)

/-- A cut map of attributes is recognized as truncated. -/
theorem stopsIn_writeAttributes (map : AttributeMap) :
    StopsIn readAttributes (writeAttributes map) := by
  intro front hcut
  rcases hcut.cons_cases with rfl | ⟨rest, rfl, hrest⟩
  · exact .inl (Json.tokens_nil ▸ rfl)
  · have hbindings : readBindings true (tokens rest) = .error .truncated :=
      starves_readBindings.separate () trivial hrest
    rw [Json.tokens_cons_of_punctuation rfl, readAttributes, hbindings]
    exact .inl rfl

/-! ## Fields -/

/-- A cut role is recognized as truncated. -/
theorem stopsIn_roleName (role : HardlinkRole) :
    StopsIn readRole (Json.quote (roleName role)) := by
  intro front hcut
  rcases Json.tokens_of_isCut_quote hcut with hempty | ⟨body, hbody, htext⟩
  · exact .inl (hempty ▸ rfl)
  · rw [hbody, readRole, roleOf, htext]
    exact .inl rfl

/-- A value that is present stops its reader even if it may be null. -/
theorem StopsIn.option {read : List Token → Except Fault (α × List Token)} {text : List Char}
    (h : StopsIn read text) (hnull : ∀ more, ¬ Stops (read (.word (.ok .null) :: more))) :
    StopsIn (readOption read) text := by
  intro front hcut
  have hstops := h front hcut
  unfold readOption
  split
  · next more heq => exact absurd (heq ▸ hstops) (hnull more)
  · rcases hstops with htruncated | ⟨value, hvalue⟩
    · exact .inl (by rw [htruncated]; rfl)
    · exact .inr ⟨some value, by rw [hvalue]; rfl⟩

theorem not_stops_of_unfit {result : Except Fault (α × List Token)} {cause : Json.Mismatch}
    (h : result = .error (.unfit cause)) : ¬ Stops result := by
  rw [h]
  rintro (h | ⟨_, h⟩) <;> cases h

/-- The written value of a field stops its reader wherever it is cut off. -/
theorem stopsIn_write? {field : Field} {value : field.Value} {text : List Char}
    (h : field.write? value = some text) : StopsIn field.read text := by
  cases field with
  | path => cases h; exact stopsIn_writeBytes value
  | size => cases h; exact stopsIn_writeSize value
  | mode => cases h; exact stopsIn_writeWord value
  | attributes =>
    obtain ⟨map, rfl, rfl⟩ := Option.map_eq_some_iff.1 h
    exact (stopsIn_writeAttributes map).option fun _ => not_stops_of_unfit rfl
  | flags =>
    obtain ⟨word, rfl, rfl⟩ := Option.map_eq_some_iff.1 h
    exact (stopsIn_writeWord word).option fun _ => not_stops_of_unfit rfl
  | link =>
    obtain ⟨bytes, rfl, rfl⟩ := Option.map_eq_some_iff.1 h
    exact (stopsIn_writeBytes bytes).option fun _ => not_stops_of_unfit rfl
  | role => cases h; exact stopsIn_roleName value
  | modTime => cases h; exact stopsIn_writeSigned value
  | uid => cases h; exact stopsIn_writeSigned value
  | gid => cases h; exact stopsIn_writeSigned value
  | startChunk => cases h; exact stopsIn_writeSigned value
  | startOffset => cases h; exact stopsIn_writeSigned value

/-! ## Records -/

theorem readMembers_missing {first : Bool} {draft : Draft} {tokens : List Token} {fault : Fault}
    (h : nextMember first tokens = .error fault) :
    readMembers first draft tokens = .error fault := by
  rw [readMembers]
  split <;> simp_all

/-- A record that stops within a member is recognized as truncated. -/
theorem StopsAtMember.readMembers_eq {first : Bool} {field : Field} {draft : Draft}
    {tokens : List Token} (h : StopsAtMember first field.name field.read tokens)
    (hnew : draft field = none) : readMembers first draft tokens = .error .truncated := by
  cases h with
  | missing h => exact readMembers_missing h
  | name h htext =>
    rw [readMembers_member h, htext]
    rfl
  | value h htext hvalue =>
    rw [readMembers_member h, htext]
    simp only [bind, Except.bind, Field.ofName?_name, hnew, Option.isSome_none, Bool.false_eq_true,
      if_false, hvalue]
  | whole h htext hvalue => rw [readMembers_step h htext hnew hvalue, readMembers_missing rfl]

/-- Whether the members are those of distinct fields of a record that a draft lacks. -/
def Lacks (record : Record) (draft : Draft) (members : List (List Char)) : Prop :=
  ∃ fields : List Field, fields.Nodup ∧ (∀ field ∈ fields, draft field = none) ∧
    fields.filterMap record.member? = members

/-- A member that is still lacking is that of an empty field. -/
theorem Lacks.cons {record : Record} {draft : Draft} {member : List Char}
    {more : List (List Char)} (h : record.Lacks draft (member :: more)) :
    ∃ field text, field.write? (record field) = some text ∧
      member = Json.quote field.name ++ ':' :: text ∧ draft field = none ∧
        record.Lacks (draft.set field (record field)) more := by
  obtain ⟨fields, hnodup, hnew, hfields⟩ := h
  obtain ⟨skipped, field, rest, rfl, -, hmember, hrest⟩ := List.filterMap_eq_cons_iff.1 hfields
  obtain ⟨text, htext, rfl⟩ := Option.map_eq_some_iff.1 hmember
  obtain ⟨hfield, hnodup⟩ := List.nodup_cons.1 (List.nodup_append.1 hnodup).2.1
  have hall : ∀ other ∈ field :: rest, draft other = none :=
    fun other hother => hnew other (List.mem_append_right skipped hother)
  refine ⟨field, text, htext, rfl, hall field List.mem_cons_self, rest, hnodup, ?_, hrest⟩
  intro other hother
  rw [Draft.set_of_ne draft fun heq : field = other => hfield (heq ▸ hother)]
  exact hall other (List.mem_cons_of_mem _ hother)

theorem starves_readMembers (record : Record) : Starves readMembers id record.Lacks where
  empty first _ := readMembers_missing rfl
  cut {_ _ _ _ _} hready hcut := by
    obtain ⟨field, text, htext, rfl, hnew, -⟩ := hready.cons
    exact (stopsAtMember_of_isCut (stopsIn_write? htext) hcut).readMembers_eq hnew
  next {first draft _ _} hready := by
    obtain ⟨field, text, htext, rfl, hnew, hafter⟩ := hready.cons
    obtain ⟨spelled, hspells, hmember⟩ :=
      (member_quote field.name (writes_of_write? htext)).exists_spelled reads_of_writes
    refine ⟨_, hafter, fun rest hrest hstarved => ?_⟩
    have hstep := isStep_field hmember first draft (tokens rest) fun other heq =>
      Option.some.inj heq ▸ hnew
    rw [id_eq, hspells rest hrest, hstep]
    exact hstarved

/-- A written record that is cut off ends too early. -/
theorem parse_of_isCut {record : Record} {text : String}
    (h : IsCut text.toList record.characters) : parse text = .error .truncated := by
  have hread : read (tokens text.toList) = .error .truncated := by
    generalize text.toList = front at h ⊢
    rcases h.cons_cases with rfl | ⟨rest, rfl, hrest⟩
    · exact Json.tokens_nil ▸ rfl
    · have hlacks : record.Lacks .empty (Field.all.filterMap record.member?) :=
        ⟨Field.all, by decide, fun _ _ => rfl, rfl⟩
      rw [← List.map_id (Field.all.filterMap record.member?)] at hrest
      have hmembers := (starves_readMembers record).separate .empty hlacks hrest
      rw [Json.tokens_cons_of_punctuation rfl, read, hmembers]
      rfl
  rw [parse, hread]
  rfl

end Record

/-- Of all beginnings of a written entry only the whole text is loaded. Every other one, the empty
text included, is refused because it ends too early. -/
theorem Entry.parse_truncated {entry : Entry} {text : String}
    (h : text.toList <+: entry.render.toList) :
    Entry.parse text =
      if text = entry.render then .ok (Record.ofEntry entry).toEntry else .error .truncated := by
  split
  · next hwhole => rw [hwhole, parse_render_eq]
  · next hne =>
    have hcut : Json.IsCut text.toList (Record.ofEntry entry).characters := by
      refine .of_beginning (by simpa [render, Record.render] using h) fun heq => hne ?_
      rw [render, Record.render, ← heq, String.ofList_toList]
    rw [Entry.parse, Record.parse_of_isCut hcut]
    rfl

/-- An entry whose text is cut off behind two of the four digits of an escape. -/
theorem Entry.parse_truncated_escape :
    let entry := { Entry.new [0x61] 0o100644 with
      attributes := some (.ofList [("user.\x01", [10])]) }
    let text := "\x7b\"path\":[97],\"size\":0,\"mod_time\":0,\"mode\":33188,\"uid\":-1," ++
      "\"gid\":-1,\"attributes\":\x7b\"user.\\u00"
    text.toList <+: entry.render.toList ∧ Entry.parse text = .error .truncated := by
  intro entry text
  have hfront : text.toList <+: entry.render.toList := by
    rw [← List.isPrefixOf_iff_prefix]
    decide +kernel
  have hlength : text.toList.length ≠ entry.render.toList.length := by
    decide +kernel
  have hne : text ≠ entry.render := fun heq => hlength (congrArg (·.toList.length) heq)
  exact ⟨hfront, (Entry.parse_truncated hfront).trans (if_neg hne)⟩

end TreeManifest
