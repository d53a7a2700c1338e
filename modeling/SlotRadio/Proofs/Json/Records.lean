import SlotRadio.Json.Record
import SlotRadio.Proofs.Json.Values
/-!
# Reading and writing records

An object is read entry by entry.  `Slots.Grow` compares what has been read
with what will have been read at the end, by what the entries still to come
hold under the name of each member; an entry under the name of a member
makes one step of it (`Slots.Grow.fill`), and an entry under any other name
none (`Slots.grow_cons_iff`).  So the order of the entries does not matter
(`Record.reads_object`), and what a record is written as is one of the
objects that it is read from (`Record.reads_written`).
-/

namespace SlotRadio.Json

/-- No two members have one name. -/
def DistinctNames (ms : List Member) : Prop :=
  (ms.map (·.name)).Nodup

instance (ms : List Member) : Decidable (DistinctNames ms) :=
  inferInstanceAs (Decidable (ms.map (·.name)).Nodup)

/-- An entry adds its text to those under its own name. -/
theorem textsUnder_cons_self (e : Entry) (entries : List Entry) :
    textsUnder (e :: entries) e.name = e.text :: textsUnder entries e.name := by
  simp [textsUnder]

/-- An entry adds nothing under another name. -/
theorem textsUnder_cons_of_ne {e : Entry} {name : String} (h : name ≠ e.name)
    (entries : List Entry) : textsUnder (e :: entries) name = textsUnder entries name := by
  simp [textsUnder, h.symm]

/-- Entries under the name of no member hold values. -/
def OthersAreValues (ms : List Member) (entries : List Entry) : Prop :=
  ∀ e ∈ entries, (∀ m ∈ ms, m.name ≠ e.name) → Phrase .value e.text

/-- What entries make of what has been read under a name: either they hold
nothing under it, and that stays as it is, or nothing has been read yet, and
the only text under it is read. -/
def Codec.Fills {α : Type} (c : Codec α) (name : String) (entries : List Entry)
    (before after : Option α) : Prop :=
  textsUnder entries name = [] ∧ after = before ∨
    before = none ∧ ∃ text a, textsUnder entries name = [text] ∧ c.Reads text a ∧
      after = some a

namespace Slots

/-- What entries make of what has been read. -/
def Grow : (ms : List Member) → List Entry → Slots ms → Slots ms → Prop
  | [], _, _, _ => True
  | m :: ms, entries, (value, slots), (value', slots') =>
    m.codec.Fills m.name entries value value' ∧ Grow ms entries slots slots'

/-- Without entries no slot is filled. -/
theorem eq_of_grow_nil : {ms : List Member} → {before after : Slots ms} →
    Grow ms [] before after → before = after
  | [], _, _, _ => rfl
  | m :: ms, (value, slots), (value', slots'), ⟨hm, hms⟩ => by
    obtain ⟨-, rfl⟩ | ⟨-, _, _, htexts, -⟩ := hm
    · rw [eq_of_grow_nil hms]
    · cases htexts

/-- An entry under another name changes nothing. -/
theorem grow_cons_iff {e : Entry} {entries : List Entry} : {ms : List Member} →
    {before after : Slots ms} → (∀ m ∈ ms, m.name ≠ e.name) →
    (Grow ms (e :: entries) before after ↔ Grow ms entries before after)
  | [], _, _, _ => Iff.rfl
  | m :: ms, (value, slots), (value', slots'), h =>
    and_congr (by unfold Codec.Fills; rw [textsUnder_cons_of_ne (h m (by simp))])
      (grow_cons_iff fun m hm => h m (List.mem_cons_of_mem _ hm))

/-- A name that no member has cannot have been taken. -/
theorem taken?_eq_none {name : String} : {ms : List Member} → {slots : Slots ms} →
    (∀ m ∈ ms, m.name ≠ name) → slots.taken? ms name = none
  | [], _, _ => rfl
  | m :: ms, (value, slots), h => by
    rw [taken?, if_neg (h m (by simp))]
    exact taken?_eq_none fun m hm => h m (List.mem_cons_of_mem _ hm)

/-- **An entry under the name of a member is read**, and the entries behind
it make the rest of what it and they make. -/
theorem Grow.fill {e : Entry} {entries : List Entry} : {ms : List Member} →
    {before after : Slots ms} → DistinctNames ms → (∃ m ∈ ms, m.name = e.name) →
    Grow ms (e :: entries) before after →
    before.taken? ms e.name = some false ∧
      ∀ s rest, Blank s → Delimited rest → ∃ s' between, Blank s' ∧
        before.fill ms e.name (s ++ (e.text ++ rest)) = .ok (between, s' ++ rest) ∧
        Grow ms entries between after
  | [], _, _, _, ⟨_, hm, _⟩, _ => by cases hm
  | m :: ms, (value, slots), (value', slots'), hdistinct, hknown, ⟨hm, hms⟩ => by
    obtain ⟨hnew, hdistinct⟩ := List.nodup_cons.1 hdistinct
    by_cases hname : m.name = e.name
    -- No other member has this name, so the members behind `m` stay as they are.
    · have hothers : ∀ m' ∈ ms, m'.name ≠ e.name := fun m' hm' heq =>
        hnew (List.mem_map.2 ⟨m', hm', heq.trans hname.symm⟩)
      rw [Codec.Fills, hname, textsUnder_cons_self] at hm
      obtain ⟨htexts, -⟩ | ⟨rfl, text, v, htexts, hreads, rfl⟩ := hm
      · cases htexts
      obtain ⟨rfl, hnone⟩ := List.cons.inj htexts
      refine ⟨by rw [taken?, if_pos hname]; rfl, fun s rest hs hrest => ?_⟩
      obtain ⟨s', hs', hread⟩ := hreads s rest hs hrest
      refine ⟨s', (some v, slots), hs', ?_, ?_, (grow_cons_iff hothers).1 hms⟩
      · rw [Slots.fill, if_pos hname, hread]
        rfl
      · exact .inl ⟨by rw [hname, hnone], rfl⟩
    · have hknown : ∃ m' ∈ ms, m'.name = e.name := by
        obtain ⟨m', hm', heq⟩ := hknown
        obtain rfl | hm' := List.mem_cons.1 hm'
        · exact (hname heq).elim
        · exact ⟨m', hm', heq⟩
      rw [Codec.Fills, textsUnder_cons_of_ne hname] at hm
      obtain ⟨htaken, hfill⟩ := Grow.fill hdistinct hknown hms
      refine ⟨by rw [taken?, if_neg hname, htaken], fun s rest hs hrest => ?_⟩
      obtain ⟨s', between, hs', hread, hgrow⟩ := hfill s rest hs hrest
      refine ⟨s', (value, between), hs', ?_, hm, hgrow⟩
      rw [Slots.fill, if_neg hname, hread]
      rfl

end Slots

/-! ## Reading objects -/

/-- Behind what separates two members comes the name of the next one. -/
theorem Separator.nextName_append {first : Bool} {sep : List Char} (h : Separator first sep)
    (rest : Input) : nextName first (sep ++ '"' :: rest) = .ok (.inl rest) := by
  cases h with
  | first hs =>
    rw [nextName, skipSpace_append_cons hs (by decide)]
    rfl
  | comma hs hs' =>
    rw [List.append_assoc, nextName, List.cons_append, skipSpace_append_cons hs (by decide)]
    simp only [skipSpace_append_cons hs' (show isSpace '"' = false by decide)]
    rfl

/-- A closing bracket ends the members, at the beginning as well as behind a
member. -/
theorem nextName_close (first : Bool) {s : List Char} (hs : Blank s) (rest : Input) :
    nextName first (s ++ '}' :: rest) = .ok (.inr rest) := by
  rw [nextName, skipSpace_append_cons hs (by decide)]
  rfl

/-- Blanks before the members make no difference. -/
theorem readMembers_blank_append {ms : List Member} (fuel : Nat) (first : Bool)
    (slots : Slots ms) {s : List Char} (hs : Blank s) (rest : Input) :
    readMembers ms fuel first slots (s ++ rest) = readMembers ms fuel first slots rest := by
  cases fuel with
  | zero => rfl
  | succ fuel => rw [readMembers, readMembers, nextName, nextName, hs.skipSpace_append]

/-- **The entries of an object are read in any order**, and entries under
other names are gone over. -/
theorem readMembers_of_entries {ms : List Member} (hdistinct : DistinctNames ms) {first : Bool}
    {entries : List Entry} {text : List Char} (h : EntriesText first entries text) :
    ∀ {before after : Slots ms} {fuel : Nat} (rest : Input), before.Grow ms entries after →
      OthersAreValues ms entries → entries.length < fuel →
      readMembers ms fuel first before (text ++ rest) = .ok (after, rest) := by
  induction h with
  | @close first s hs =>
    intro before after fuel rest hgrow _ hfuel
    obtain ⟨fuel, rfl⟩ := Nat.exists_eq_add_one.2 hfuel
    rw [List.append_assoc, readMembers, List.singleton_append, nextName_close first hs,
      Slots.eq_of_grow_nil hgrow]
  | @entry first e entries sep name s s' text hsep hname hs hs' htext ih =>
    intro before after fuel rest hgrow hother hfuel
    obtain ⟨fuel, rfl⟩ := Nat.exists_eq_add_one.2 (Nat.zero_lt_of_lt hfuel)
    have hlater : OthersAreValues ms entries :=
      fun e he => hother e (List.mem_cons_of_mem _ he)
    have hleft : entries.length < fuel := Nat.lt_of_succ_lt_succ hfuel
    simp only [List.append_assoc, List.cons_append]
    rw [readMembers, hsep.nextName_append]
    simp only [hname.readBody_append, String.ofList_toList]
    by_cases hknown : ∃ m ∈ ms, m.name = e.name
    -- What is read may leave blanks of its text, which do not matter to the next entry.
    · obtain ⟨htaken, hfill⟩ := hgrow.fill hdistinct hknown
      obtain ⟨t, between, ht, hread, hgrow⟩ := hfill s' (text ++ rest) hs' htext.delimited
      simp only [htaken, takeColon_append hs, Option.isSome_some, if_pos, hread,
        readMembers_blank_append _ _ _ ht]
      exact ih rest hgrow hlater hleft
    · have hunknown : ∀ m ∈ ms, m.name ≠ e.name := fun m hm heq => hknown ⟨m, hm, heq⟩
      have hdelimited : Delimited (text ++ rest) := htext.delimited
      have hskip := skipValue_of_phrase hs' (hother e (by simp) hunknown) hdelimited
      simp only [Slots.taken?_eq_none hunknown, takeColon_append hs, hskip]
      exact ih rest ((Slots.grow_cons_iff hunknown).1 hgrow) hlater hleft

namespace Record

variable {ρ : Type} (r : Record ρ) (hdistinct : DistinctNames r.members)

include hdistinct

/-- **A record is read from an object** that lists its members in any order,
each of them once at the most, besides anything under other names. -/
theorem reads_object {entries : List Entry} {text : List Char} {slots : Slots r.members}
    {values : Values r.members} (htext : ObjectText entries text)
    (hgrow : (Slots.empty r.members).Grow r.members entries slots)
    (hother : OthersAreValues r.members entries)
    (hvalues : slots.finish r.members = .ok values) : r.codec.Reads text (r.build values) := by
  intro s rest hs _
  refine ⟨[], blank_nil, ?_⟩
  obtain @⟨text, htext⟩ := htext
  have hlength : entries.length < (text ++ rest).length + 1 := by
    have := htext.length_lt
    rw [List.length_append]
    omega
  show r.read (s ++ '{' :: (text ++ rest)) = .ok (r.build values, rest)
  rw [Record.read, skipSpace_append_cons hs (by decide)]
  show r.readObject (text ++ rest) = .ok (r.build values, rest)
  rw [readObject, readMembers_of_entries hdistinct htext rest hgrow hother hlength]
  simp only [hvalues]
  rfl

end Record

/-! ## Writing objects -/

/-- Blanks are all that a layout puts where blanks may stand. -/
structure Layout.Blank (l : Layout) : Prop where
  lineBreak : ∀ depth, Json.Blank (l.lineBreak depth)
  afterColon : Json.Blank l.afterColon

/-- The compact layout puts nothing where blanks may stand. -/
theorem Layout.blank_compact : Layout.compact.Blank where
  lineBreak _ := blank_nil
  afterColon := blank_nil

/-- The indented layout puts nothing but blanks where these may stand. -/
theorem Layout.blank_indented : Layout.indented.Blank where
  lineBreak depth c hc := by
    simp only [indented, List.mem_cons, List.mem_replicate] at hc
    obtain rfl | ⟨-, rfl⟩ := hc <;> decide
  afterColon c hc := by
    simp only [indented, List.mem_singleton] at hc
    subst hc
    decide

/-- Commas between items are commas before all items but the first. -/
theorem intercalate_cons (item : List Char) (items : List (List Char)) :
    [','].intercalate (item :: items) = item ++ items.flatMap (',' :: ·) := by
  induction items generalizing item with
  | nil => simp [List.intercalate]
  | cons next items ih =>
    rw [List.flatMap_cons, List.cons_append, ← ih next]
    rfl

section

variable {l : Layout} (hl : l.Blank)

/-- The entries that the members of an object are written as. -/
def writtenEntries (l : Layout) (depth : Nat) (members : List (String × Document)) :
    List Entry :=
  members.map fun (name, value) => ⟨name, render l depth value⟩

include hl

/-- The members behind the first one are written as the grammar wants the rest
of an object. -/
theorem entriesText_later (depth outer : Nat) (members : List (String × Document)) :
    EntriesText false (writtenEntries l depth members)
      ((renderMembers l depth members).flatMap (',' :: ·) ++ (l.lineBreak outer ++ ['}'])) := by
  induction members with
  | nil => exact .close (hl.lineBreak outer)
  | cons member members ih =>
    obtain ⟨name, value⟩ := member
    have hentry := EntriesText.entry (e := ⟨name, render l depth value⟩)
      (.comma blank_nil (hl.lineBreak depth)) (spelling_escaped name.toList) blank_nil
      hl.afterColon ih
    simpa [renderMembers, quote, writtenEntries] using hentry

/-- **What is written for an object is one.** -/
theorem objectText_render (depth : Nat) (members : List (String × Document)) :
    ObjectText (writtenEntries l (depth + 1) members) (render l depth (.object members)) := by
  cases members with
  | nil => exact .mk (.close blank_nil)
  | cons member members =>
    obtain ⟨name, value⟩ := member
    have hentry := EntriesText.entry (e := ⟨name, render l (depth + 1) value⟩)
      (.first (hl.lineBreak (depth + 1))) (spelling_escaped name.toList) blank_nil
      hl.afterColon (entriesText_later hl (depth + 1) depth members)
    refine .mk ?_
    rw [renderMembers, intercalate_cons]
    simpa [quote, writtenEntries] using hentry

end

/-! ## Records that have been written -/

namespace Slots

/-- All members have been read. -/
def full : (ms : List Member) → Values ms → Slots ms
  | [], _ => ()
  | _ :: ms, (v, values) => (some v, full ms values)

/-- Where every slot is filled no default is needed, and the values are those
of the slots. -/
theorem finish_full : (ms : List Member) → (values : Values ms) →
    (full ms values).finish ms = .ok values
  | [], _ => rfl
  | m :: ms, (v, values) => by
    rw [full, finish]
    simp only [Option.some_or, finish_full ms values]
    rfl

end Slots

/-- Each of the values is read from what it is written as. -/
def Readable (l : Layout) (depth : Nat) : (ms : List Member) → Values ms → Prop
  | [], _ => True
  | m :: ms, (v, values) =>
    m.codec.Reads (render l depth (m.codec.write v)) v ∧ Readable l depth ms values

/-- A written entry has the name of a member. -/
theorem name_mem_of_mem_written {l : Layout} {depth : Nat} {e : Entry} : {ms : List Member} →
    {values : Values ms} → e ∈ writtenEntries l depth (writeMembers ms values) →
    e.name ∈ ms.map (·.name)
  | [], _, h => by cases h
  | m :: ms, (v, values), h => by
    obtain rfl | h := List.mem_cons.1 h
    · simp
    · exact List.mem_cons_of_mem _ (name_mem_of_mem_written h)

/-- Under a name that no entry has there is no text. -/
theorem textsUnder_eq_nil {entries : List Entry} {name : String}
    (h : ∀ e ∈ entries, e.name ≠ name) : textsUnder entries name = [] := by
  simpa [textsUnder] using h

/-- The entries that are written fill all members. By recursion over these: the names are distinct,
so each entry goes to its own member and no other entry is read there. -/
theorem grow_written {l : Layout} {depth : Nat} : {ms : List Member} → {values : Values ms} →
    DistinctNames ms → Readable l depth ms values →
    (Slots.empty ms).Grow ms (writtenEntries l depth (writeMembers ms values))
      (Slots.full ms values)
  | [], _, _, _ => trivial
  | m :: ms, (v, values), hdistinct, ⟨hreads, hreadable⟩ => by
    obtain ⟨hnew, hdistinct⟩ := List.nodup_cons.1 hdistinct
    let e : Entry := ⟨m.name, render l depth (m.codec.write v)⟩
    have hothers : ∀ m' ∈ ms, m'.name ≠ e.name := fun m' hm' heq =>
      hnew (List.mem_map.2 ⟨m', hm', heq⟩)
    have hnone : textsUnder (writtenEntries l depth (writeMembers ms values)) e.name = [] :=
      textsUnder_eq_nil fun e' he' heq => by
        have hmem := name_mem_of_mem_written he'
        rw [heq] at hmem
        exact hnew hmem
    refine ⟨.inr ⟨rfl, e.text, v, ?_, hreads, rfl⟩, ?_⟩
    · show textsUnder (e :: writtenEntries l depth (writeMembers ms values)) e.name = [e.text]
      rw [textsUnder_cons_self, hnone]
    · exact (Slots.grow_cons_iff hothers).2 (grow_written hdistinct hreadable)

/-- **A record is read from what it is written as**, if this holds of the
values of its members. -/
theorem Record.reads_written {ρ : Type} (r : Record ρ) (hdistinct : DistinctNames r.members)
    {l : Layout} (hl : l.Blank) (depth : Nat) (a : ρ)
    (h : Readable l (depth + 1) r.members (r.parts a)) :
    r.codec.Reads (render l depth (r.codec.write a)) (r.build (r.parts a)) := by
  refine r.reads_object hdistinct (objectText_render hl depth _) (grow_written hdistinct h) ?_
    (Slots.finish_full _ _)
  intro e he hunknown
  obtain ⟨m, hm, heq⟩ := List.mem_map.1 (name_mem_of_mem_written he)
  exact (hunknown m hm heq).elim

end SlotRadio.Json
