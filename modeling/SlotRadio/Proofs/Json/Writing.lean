import SlotRadio.Json.Choice
import SlotRadio.Proofs.Json.Records
/-!
# Values that survive their documents

`Codec.Survives c l a` says that what the codec `c` writes for `a` is a value of
the grammar, and that `a` is read from it, wherever it stands in a document and
whichever blanks the layout `l` puts into it.  A value made of others survives
if they do: one that may be absent, a list, a record, and a choice between
alternatives.

* `Spelling.shape`, `ObjectText.phrase` — what has a content has a shape;
* `survives_option` — what is there must not look like `null`;
* `readItems_later`, `survives_list` — lists, item by item;
* `Record.survives` — records;
* `survives_plain`, `survives_carrying` — choices.
-/

namespace SlotRadio.Json

/-! ## Shapes -/

/-- What spells a content has the shape of a string. -/
theorem Spelling.shape {content text : List Char} (h : Spelling content text) :
    StringShape text := by
  induction h with
  | nil => exact .nil
  | plain hquote hescape hcontrol _ ih => exact .plain hquote hescape hcontrol ih
  | letter hletter _ ih => exact .letter (by simp [hletter]) ih
  | unit hhex _ _ ih => exact .unit hhex ih
  | pair hhigh _ hlow _ _ ih => exact .unit hhigh (.unit hlow ih)

/-- A string is written as a value, whatever characters are in it. -/
theorem phrase_quote (content : String) : Phrase .value (quote content) :=
  .string (spelling_escaped content.toList).shape

/-- What follows an entry of an object is the rest of one, if all entries hold
values. -/
theorem EntriesText.phrase {first : Bool} {entries : List Entry} {text : List Char}
    (h : EntriesText first entries text) (hlater : first = false)
    (hvalues : ∀ e ∈ entries, Phrase .value e.text) : Phrase (.rest .object) text := by
  induction h with
  | close hs => exact .close .object hs
  | @entry _ e entries _ _ _ _ _ hsep hname hs hs' _ ih =>
    obtain ⟨he, hentries⟩ := List.forall_mem_cons.1 hvalues
    cases hsep with
    | first => cases hlater
    | comma hbefore hbehind =>
      have hlead : Lead .object _ := .object hbehind hname.shape hs hs'
      simpa using Phrase.next .object hbefore hlead he (ih rfl hentries)

/-- **An object of values is a value.** -/
theorem ObjectText.phrase {entries : List Entry} {text : List Char} (h : ObjectText entries text)
    (hvalues : ∀ e ∈ entries, Phrase .value e.text) : Phrase .value text := by
  obtain ⟨h⟩ := h
  cases h with
  | close hs => exact .empty .object hs
  | entry hsep hname hs hs' hrest =>
    obtain ⟨he, hentries⟩ := List.forall_mem_cons.1 hvalues
    cases hsep with
    | first hbefore =>
      have hlead : Lead .object _ := .object hbefore hname.shape hs hs'
      simpa [Bracket.opening] using Phrase.filled .object hlead he (hrest.phrase rfl hentries)

/-! ## Single values -/

namespace Codec

variable {α β ε : Type} {l : Layout}

/-- A value is written as one, and read from what it is written as. -/
structure Survives (c : Codec α) (l : Layout) (a : α) : Prop where
  phrase : ∀ depth, Phrase .value (render l depth (c.write a))
  reads : ∀ depth, c.Reads (render l depth (c.write a)) a

/-- A value that survives is read from the whole of its compact text. -/
theorem Survives.decode_encode {c : Codec α} {a : α} (h : c.Survives .compact a) :
    c.decode (c.encode a) = .ok a := by
  have hdecode := (h.reads 0).decode_eq blank_nil blank_nil
  rwa [List.append_nil] at hdecode

/-- What survives is written as a value of the grammar, and may stand wherever
one may. -/
theorem Survives.phrase_encode {c : Codec α} {a : α} (h : c.Survives .compact a) :
    Phrase .value (c.encode a).toList := by
  rw [encode, Document.text, String.toList_ofList]
  exact h.phrase 0

/-- Every string survives, in every layout. -/
theorem survives_string (content : String) : string.Survives l content where
  phrase _ := phrase_quote content
  reads _ := reads_string content

/-- Truth values survive. -/
theorem survives_bool (b : Bool) : bool.Survives l b where
  phrase _ := by
    cases b with
    | false => exact .no
    | true => exact .yes
  reads _ := by
    cases b with
    | false => exact reads_bool false
    | true => exact reads_bool true

/-- A count survives where it is below the limit of its type. -/
theorem survives_below {limit n : Nat} (hlimit : limit ≤ Word.count) (h : n < limit) :
    (below limit).Survives l n where
  phrase _ := .number (numeral_integer n)
  reads _ := reads_below hlimit h

/-- An integer of thirty-two bits survives, with its sign. -/
theorem survives_int32 {n : Int} (h : IsInt32 n) : int32.Survives l n where
  phrase _ := .number (numeral_integer n)
  reads _ := reads_int32 h

/-- A value survives that is written as another one, if it can be got back
from it. -/
theorem survives_via {c : Codec α} {there : α → β} {back : β → α} {b : β}
    (hback : there (back b) = b) (h : c.Survives l (back b)) :
    (c.via there back).Survives l b where
  phrase := h.phrase
  reads depth s rest hs hrest := by
    obtain ⟨s', hs', hread⟩ := h.reads depth s rest hs hrest
    refine ⟨s', hs', ?_⟩
    show (c.read (s ++ (render l depth (c.write (back b)) ++ rest))).map _ = _
    rw [hread]
    exact congrArg (fun b => Except.ok (b, s' ++ rest)) hback

/-! ## Values that may be absent -/

/-- What is written for a value does not look like an absent one. -/
def Present (c : Codec α) (l : Layout) (a : α) : Prop :=
  ∀ depth, (render l depth (c.write a)).head? ≠ some 'n'

/-- What does not begin like `null` is read as the value that may be
missing. -/
theorem readOption_of_ne {c : Codec α} {first : Char} {s : List Char} (hs : Blank s)
    (hspace : isSpace first = false) (h : first ≠ 'n') (rest : Input) :
    readOption c (s ++ first :: rest) =
      (c.read (first :: rest)).map fun (a, left) => (some a, left) := by
  rw [readOption, skipSpace_append_cons hs hspace]
  split
  · next heq => exact (h (List.cons.inj heq).1).elim
  · rfl

/-- A missing value survives as `null`. -/
theorem survives_none (c : Codec α) : c.option.Survives l none where
  phrase _ := .null
  reads _ s rest hs _ := by
    refine ⟨[], blank_nil, ?_⟩
    show readOption c (s ++ 'n' :: 'u' :: 'l' :: 'l' :: rest) = .ok (none, rest)
    rw [readOption, skipSpace_append_cons hs (by decide)]
    rfl

/-- A value that may be missing survives if it does by itself and is not taken
for `null`. -/
theorem survives_some {c : Codec α} {a : α} (h : c.Survives l a) (hpresent : c.Present l a) :
    c.option.Survives l (some a) where
  phrase := h.phrase
  reads depth s rest hs hrest := by
    obtain ⟨first, text, htext, hspace, -⟩ := (h.phrase depth).exists_cons
    have hfirst : first ≠ 'n' := by
      rintro rfl
      exact hpresent depth (by rw [htext]; rfl)
    obtain ⟨s', hs', hread⟩ := h.reads depth [] rest blank_nil hrest
    refine ⟨s', hs', ?_⟩
    rw [List.nil_append, htext, List.cons_append] at hread
    show readOption c (s ++ (render l depth (c.write a) ++ rest)) = _
    rw [htext, List.cons_append, readOption_of_ne hs hspace hfirst, hread]
    rfl

/-- A value that may be absent survives if it does where it is there. -/
theorem survives_option {c : Codec α} {a : Option α}
    (h : ∀ b ∈ a, c.Survives l b ∧ c.Present l b) : c.option.Survives l a := by
  cases a with
  | none => exact survives_none c
  | some b =>
    obtain ⟨hb, hpresent⟩ := h b rfl
    exact survives_some hb hpresent

/-! ## Lists -/

/-- What is written behind an item of a list. -/
def laterItems (l : Layout) (depth outer : Nat) (items : List Document) : List Char :=
  (renderItems l depth items).flatMap (',' :: ·) ++ (l.lineBreak outer ++ [']'])

/-- The items behind the first one, each with a comma before it. -/
theorem laterItems_cons (l : Layout) (depth outer : Nat) (item : Document)
    (items : List Document) :
    laterItems l depth outer (item :: items) =
      ',' :: (l.lineBreak depth ++ (render l depth item ++ laterItems l depth outer items)) := by
  simp [laterItems, renderItems]

/-- A list that is not empty, as it is written: the bracket, the first item,
and the later ones with the bracket that closes. -/
theorem render_list_cons (l : Layout) (depth : Nat) (item : Document) (items : List Document) :
    render l depth (.array (item :: items)) =
      '[' :: (l.lineBreak (depth + 1) ++
        (render l (depth + 1) item ++ laterItems l (depth + 1) depth items)) := by
  simp [render, renderItems, bracket, intercalate_cons, laterItems]

/-- The later items of a list and its closing bracket are the rest of a
phrase. -/
theorem phrase_laterItems (hl : l.Blank) {depth : Nat} (outer : Nat) {items : List Document}
    (h : ∀ d ∈ items, Phrase .value (render l depth d)) :
    Phrase (.rest .list) (laterItems l depth outer items) := by
  induction items with
  | nil => exact .close .list (hl.lineBreak outer)
  | cons item items ih =>
    obtain ⟨hitem, hitems⟩ := List.forall_mem_cons.1 h
    rw [laterItems_cons]
    exact .next .list blank_nil (.list (hl.lineBreak depth)) hitem (ih hitems)

/-- A list of values is written as a value. -/
theorem phrase_list (hl : l.Blank) {depth : Nat} {items : List Document}
    (h : ∀ d ∈ items, Phrase .value (render l (depth + 1) d)) :
    Phrase .value (render l depth (.array items)) := by
  cases items with
  | nil => exact .empty .list blank_nil
  | cons item items =>
    obtain ⟨hitem, hitems⟩ := List.forall_mem_cons.1 h
    rw [render_list_cons]
    exact .filled .list (.list (hl.lineBreak (depth + 1))) hitem (phrase_laterItems hl depth hitems)

section

variable {c : Codec α} {fuel : Nat} {first : Bool} {s s' : List Char} {start : Char}
  {input left rest : Input}

/-- Before the first item stands no comma. -/
theorem nextItem_first (hs : Blank s) (hspace : isSpace start = false) (hopen : start ≠ ']') :
    nextItem true (s ++ start :: rest) = .ok (some (start :: rest)) := by
  rw [nextItem, skipSpace_append_cons hs hspace]
  simp only [if_neg hopen, if_pos]

/-- Before a later item stands a comma, with blanks around it. -/
theorem nextItem_later (hs : Blank s) (hs' : Blank s') (hspace : isSpace start = false)
    (hopen : start ≠ ']') :
    nextItem false (s ++ ',' :: (s' ++ start :: rest)) = .ok (some (start :: rest)) := by
  rw [nextItem, skipSpace_append_cons hs (by decide)]
  simp only [skipSpace_append_cons hs' hspace, if_neg hopen]
  rfl

/-- The closing bracket of a list ends it. -/
theorem readItems_close (c : Codec α) (fuel : Nat) (first : Bool) (hs : Blank s) (rest : Input) :
    readItems c (fuel + 1) first (s ++ ']' :: rest) = .ok ([], rest) := by
  have hnext : nextItem first (s ++ ']' :: rest) = .ok none := by
    rw [nextItem, skipSpace_append_cons hs (by decide)]
    rfl
  rw [readItems, hnext]
  simp only [takeClosing, skipSpace_append_cons hs (show isSpace ']' = false by decide)]
  rfl

/-- One item is read, and then the later ones with what is left of the
budget. -/
theorem readItems_item {item : Input} {a : α} {items : List α}
    (hnext : nextItem first input = .ok (some item)) (hread : c.read item = .ok (a, left))
    (hlater : readItems c fuel false left = .ok (items, rest)) :
    readItems c (fuel + 1) first input = .ok (a :: items, rest) := by
  rw [readItems, hnext]
  simp only [hread, hlater]
  rfl

/-- An item is read in front of those behind it, and does not look like the end
of the list. -/
theorem Survives.read_item (hl : l.Blank) {a : α} (ha : c.Survives l a) (depth outer : Nat)
    {items : List α} (hitems : ∀ b ∈ items, c.Survives l b) (rest : Input) :
    ∃ start text t,
      render l depth (c.write a) ++ (laterItems l depth outer (items.map c.write) ++ rest) =
        start :: text ∧
      isSpace start = false ∧ start ≠ ']' ∧ Blank t ∧
      c.read (start :: text) =
        .ok (a, t ++ (laterItems l depth outer (items.map c.write) ++ rest)) := by
  have hphrases : ∀ d ∈ items.map c.write, Phrase .value (render l depth d) := by
    intro d hd
    obtain ⟨b, hb, rfl⟩ := List.mem_map.1 hd
    exact (hitems b hb).phrase depth
  have hdelimited : Delimited (laterItems l depth outer (items.map c.write) ++ rest) :=
    (phrase_laterItems hl outer hphrases).delimited
  obtain ⟨start, text, htext, hspace, hopen⟩ := (ha.phrase depth).exists_cons
  obtain ⟨t, ht, hread⟩ := ha.reads depth [] _ blank_nil hdelimited
  rw [List.nil_append, htext, List.cons_append] at hread
  exact ⟨start, _, t, by rw [htext, List.cons_append], hspace, hopen, ht, hread⟩

/-- **The items of a list are read one by one**, behind the blanks that reading
the one before has left. -/
theorem readItems_later (hl : l.Blank) {depth outer : Nat} {items : List α}
    (h : ∀ a ∈ items, c.Survives l a) (hs : Blank s) (hfuel : items.length < fuel) :
    readItems c fuel false (s ++ (laterItems l depth outer (items.map c.write) ++ rest)) =
      .ok (items, rest) := by
  induction items generalizing s fuel with
  | nil =>
    obtain ⟨fuel, rfl⟩ := Nat.exists_eq_add_one.2 hfuel
    have hblank : Blank (s ++ l.lineBreak outer) := hs.append (hl.lineBreak outer)
    simpa [laterItems, renderItems] using readItems_close c fuel false hblank rest
  | cons a items ih =>
    obtain ⟨fuel, rfl⟩ := Nat.exists_eq_add_one.2 (Nat.zero_lt_of_lt hfuel)
    obtain ⟨ha, hitems⟩ := List.forall_mem_cons.1 h
    obtain ⟨start, text, t, htext, hspace, hopen, ht, hread⟩ :=
      ha.read_item hl depth outer hitems rest
    rw [List.map_cons, laterItems_cons]
    simp only [List.cons_append, List.append_assoc, htext]
    exact readItems_item (nextItem_later hs (hl.lineBreak depth) hspace hopen) hread
      (ih hitems ht (Nat.lt_of_succ_lt_succ hfuel))

/-- The later items take a character each at least, so that the input is a
budget for reading them. -/
theorem length_lt_laterItems (l : Layout) (depth outer : Nat) (items : List Document) :
    items.length < (laterItems l depth outer items).length := by
  induction items with
  | nil => simp [laterItems, renderItems]
  | cons item items ih =>
    rw [laterItems_cons]
    simp only [List.length_cons, List.length_append]
    omega

/-- A list is read from what it is written as, if its items are. There are fewer items than
characters, so the bound on the number of items is never what ends the reading. -/
theorem readList_written (hl : l.Blank) (depth : Nat) {items : List α}
    (h : ∀ a ∈ items, c.Survives l a) (hs : Blank s) :
    readList c (s ++ (render l depth (.array (items.map c.write)) ++ rest)) =
      .ok (items, rest) := by
  cases items with
  | nil =>
    show readList c (s ++ '[' :: ']' :: rest) = .ok ([], rest)
    rw [readList, skipSpace_append_cons hs (by decide)]
    exact readItems_close c (']' :: rest).length true blank_nil rest
  | cons a items =>
    obtain ⟨ha, hitems⟩ := List.forall_mem_cons.1 h
    obtain ⟨start, text, t, htext, hspace, hopen, ht, hread⟩ :=
      ha.read_item hl (depth + 1) depth hitems rest
    have hfuel : items.length < (l.lineBreak (depth + 1) ++ start :: text).length := by
      have hlater := length_lt_laterItems l (depth + 1) depth (items.map c.write)
      have hlength := congrArg List.length htext
      simp only [List.length_append, List.length_cons, List.length_map] at hlater hlength ⊢
      omega
    rw [List.map_cons, render_list_cons, readList, List.cons_append,
      skipSpace_append_cons hs (by decide)]
    simp only [List.append_assoc, htext]
    exact readItems_item (nextItem_first (hl.lineBreak (depth + 1)) hspace hopen) hread
      (readItems_later hl hitems ht hfuel)

end

/-- A list survives if its items do. -/
theorem survives_list (hl : l.Blank) {c : Codec α} {items : List α}
    (h : ∀ a ∈ items, c.Survives l a) : c.list.Survives l items where
  phrase depth := by
    refine phrase_list hl fun d hd => ?_
    obtain ⟨b, hb, rfl⟩ := List.mem_map.1 hd
    exact (h b hb).phrase _
  reads depth _ _ hs _ := ⟨[], blank_nil, readList_written hl depth h hs⟩

/-! ## Choices -/

/-- A closing bracket may have blanks before it. -/
theorem takeClosing_append {s : List Char} (hs : Blank s) {bracket : Char}
    (hspace : isSpace bracket = false) (rest : Input) :
    takeClosing bracket (s ++ bracket :: rest) = .ok rest := by
  rw [takeClosing, skipSpace_append_cons hs hspace]
  exact if_pos rfl

section

variable {branches : List (Branch ε)} {name : String} {s : List Char}

/-- An alternative without a value is read from its name. -/
theorem readBranch_plain {value : ε}
    (hbranch : Branch.find? branches name = .ok (.plain name value)) (hs : Blank s) (rest : Input) :
    Branch.read branches (s ++ (quote name ++ rest)) = .ok (value, rest) := by
  rw [Branch.read, quote, List.cons_append, skipSpace_append_cons hs (by decide),
    List.append_assoc]
  simp only [if_pos, List.singleton_append, Branch.readPlain,
    (spelling_escaped name.toList).readBody_append, String.ofList_toList, hbranch]

/-- An alternative that carries a value is read from an object with the value
under its name. -/
theorem readBranch_carrying {codec : Codec α} {inject : α → ε} {a : α} {e : Entry}
    {text : List Char}
    (hbranch : Branch.find? branches e.name = .ok (.carrying e.name codec inject))
    (htext : ObjectText [e] text) (hread : codec.Reads e.text a) (hs : Blank s) (rest : Input) :
    Branch.read branches (s ++ (text ++ rest)) = .ok (inject a, rest) := by
  obtain ⟨htext⟩ := htext
  cases htext with
  | @entry _ _ _ sep name t t' _ hsep hname ht ht' hrest =>
    cases hrest with
    | @close _ t'' ht'' =>
      have hdelimited : Delimited (t'' ++ '}' :: rest) :=
        ht''.delimited_append (by simp [Delimited])
      obtain ⟨u, hu, hread⟩ := hread t' _ ht' hdelimited
      have hclose : takeClosing '}' (u ++ (t'' ++ '}' :: rest)) = .ok rest := by
        rw [← List.append_assoc]
        exact takeClosing_append (hu.append ht'') (by decide) rest
      have hcarrying : Branch.readCarrying branches
          (sep ++ '"' :: (name ++ '"' :: (t ++ ':' :: (t' ++ (e.text ++ (t'' ++ '}' :: rest)))))) =
          .ok (inject a, rest) := by
        rw [Branch.readCarrying, hsep.nextName_append]
        simp only [hname.readBody_append, String.ofList_toList, hbranch, takeColon_append ht,
          Branch.readPayload, hread, Except.map, hclose]
      rw [Branch.read, List.cons_append, skipSpace_append_cons hs (by decide)]
      simpa using hcarrying

variable {c : Codec ε} {a : ε} (hchoice : c.read = Branch.read branches)

include hchoice

/-- An alternative that is written as its name survives if it has this name
among the alternatives. -/
theorem survives_plain (hwrite : c.write a = .string name)
    (hbranch : Branch.find? branches name = .ok (.plain name a)) : c.Survives l a where
  phrase _ := by
    rw [hwrite]
    exact phrase_quote name
  reads _ _ rest hs _ := by
    rw [hchoice, hwrite]
    exact ⟨[], blank_nil, readBranch_plain hbranch hs rest⟩

/-- An alternative that carries a value survives if it has its name among the
alternatives and the value survives. -/
theorem survives_carrying (hl : l.Blank) {codec : Codec α} {inject : α → ε} {v : α}
    (hwrite : c.write a = .tagged name (codec.write v))
    (hbranch : Branch.find? branches name = .ok (.carrying name codec inject))
    (hinject : inject v = a) (hv : codec.Survives l v) : c.Survives l a := by
  have htext (depth : Nat) : ObjectText [⟨name, render l (depth + 1) (codec.write v)⟩]
      (render l depth (c.write a)) := by
    rw [hwrite]
    exact objectText_render hl depth [(name, codec.write v)]
  constructor
  · intro depth
    refine (htext depth).phrase fun e he => ?_
    obtain rfl := List.mem_singleton.1 he
    exact hv.phrase (depth + 1)
  · intro depth s rest hs _
    rw [hchoice, ← hinject]
    rw [← hinject] at htext
    exact ⟨[], blank_nil,
      readBranch_carrying hbranch (htext depth) (hv.reads (depth + 1)) hs rest⟩

end

end Codec

/-! ## Records -/

/-- The values of all members survive. -/
def AllSurvive (l : Layout) : (ms : List Member) → Values ms → Prop
  | [], _ => True
  | m :: ms, (v, values) => m.codec.Survives l v ∧ AllSurvive l ms values

/-- Members that survive can be read back from what they are written as. -/
theorem AllSurvive.readable {l : Layout} (depth : Nat) : {ms : List Member} →
    {values : Values ms} → AllSurvive l ms values → Readable l depth ms values
  | [], _, _ => trivial
  | _ :: _, (_, _), ⟨h, hs⟩ => ⟨h.reads depth, hs.readable depth⟩

/-- Every entry of a record that survives holds a value of the grammar. -/
theorem AllSurvive.phrase {l : Layout} (depth : Nat) {e : Entry} : {ms : List Member} →
    {values : Values ms} → AllSurvive l ms values →
    e ∈ writtenEntries l depth (writeMembers ms values) → Phrase .value e.text
  | [], _, _, he => by cases he
  | m :: ms, (v, values), ⟨h, hs⟩, he => by
    obtain rfl | he := List.mem_cons.1 he
    · exact h.phrase depth
    · exact hs.phrase depth he

/-- **A record survives** if the values of its members do, and the record is
made of them. -/
theorem Record.survives {ρ : Type} (r : Record ρ) (hdistinct : DistinctNames r.members)
    {l : Layout} (hl : l.Blank) {a : ρ} (hbuild : r.build (r.parts a) = a)
    (h : AllSurvive l r.members (r.parts a)) : r.codec.Survives l a where
  phrase depth := (objectText_render hl depth _).phrase fun _ he => h.phrase (depth + 1) he
  reads depth := by
    have hreads := r.reads_written hdistinct hl depth a (h.readable (depth + 1))
    rwa [hbuild] at hreads

end SlotRadio.Json
