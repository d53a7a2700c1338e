import SlotRadio.Json.Document
import SlotRadio.Json.Skip
/-!
# The grammar of JSON

What a JSON text is, without a reader.

* `Blank` texts may stand between the parts of a value, and a `Delimited`
  text may follow one.
* `Spelling content text` says that the characters between two quotation
  marks stand for a content.  `StringShape` asks only for the shape, which a
  surrogate without its partner has too.
* `Numeral` is any number.
* `Phrase` is any value, or what follows one item of a list or an object, up
  to the closing bracket.
* `ObjectText entries` is the text of an object with these names and texts
  under them, in this order.
-/

namespace SlotRadio.Json

/-- Nothing but blanks. -/
def Blank (text : List Char) : Prop :=
  ∀ c ∈ text, isSpace c = true

/-- What may follow a value: nothing, or something that starts with a blank,
a comma or a closing bracket. -/
def Delimited (text : List Char) : Prop :=
  ∀ c ∈ text.head?, isSpace c = true ∨ c = ',' ∨ c = ']' ∨ c = '}'

theorem blank_nil : Blank [] := by
  simp [Blank]

theorem Blank.append {s s' : List Char} (h : Blank s) (h' : Blank s') : Blank (s ++ s') :=
  fun c hc => (List.mem_append.1 hc).elim (h c) (h' c)

theorem Blank.delimited {s : List Char} (h : Blank s) : Delimited s :=
  fun c hc => .inl (h c (List.mem_of_mem_head? hc))

theorem Blank.delimited_append {s rest : List Char} (h : Blank s) (hrest : Delimited rest) :
    Delimited (s ++ rest) := by
  cases s with
  | nil => exact hrest
  | cons c s =>
    rintro d ⟨⟩
    exact .inl (h c (by simp))

/-! ## Strings -/

/-- Four hexadecimal digits and their value. -/
inductive HexDigits : List Char → Nat → Prop
  | mk {a b c d : Char} {w x y z : Nat} (ha : hexValue? a = some w) (hb : hexValue? b = some x)
      (hc : hexValue? c = some y) (hd : hexValue? d = some z) :
      HexDigits [a, b, c, d] (((w * 16 + x) * 16 + y) * 16 + z)

/-- The inside of a string, by its shape alone. -/
inductive StringShape : List Char → Prop
  | nil : StringShape []
  | plain {c : Char} {text : List Char} (hquote : c ≠ '"') (hescape : c ≠ '\\')
      (hcontrol : 0x20 ≤ c.toNat) (htext : StringShape text) : StringShape (c :: text)
  | letter {c : Char} {text : List Char} (hletter : (simpleEscape? c).isSome = true)
      (htext : StringShape text) : StringShape ('\\' :: c :: text)
  | unit {hex : List Char} {n : Nat} {text : List Char} (hhex : HexDigits hex n)
      (htext : StringShape text) : StringShape ('\\' :: 'u' :: (hex ++ text))

/-- The inside of a string, after its content. -/
inductive Spelling : List Char → List Char → Prop
  | nil : Spelling [] []
  | plain {c : Char} {content text : List Char} (hquote : c ≠ '"') (hescape : c ≠ '\\')
      (hcontrol : 0x20 ≤ c.toNat) (htext : Spelling content text) :
      Spelling (c :: content) (c :: text)
  | letter {c x : Char} {content text : List Char} (hletter : simpleEscape? c = some x)
      (htext : Spelling content text) : Spelling (x :: content) ('\\' :: c :: text)
  | unit {hex : List Char} {n : Nat} {content text : List Char} (hhex : HexDigits hex n)
      (hsingle : n < 0xD800 ∨ 0xDFFF < n) (htext : Spelling content text) :
      Spelling (Char.ofNat n :: content) ('\\' :: 'u' :: (hex ++ text))
  | pair {high low : List Char} {m n : Nat} {content text : List Char}
      (hhigh : HexDigits high m) (hm : 0xD800 ≤ m ∧ m ≤ 0xDBFF)
      (hlow : HexDigits low n) (hn : 0xDC00 ≤ n ∧ n ≤ 0xDFFF)
      (htext : Spelling content text) :
      Spelling (Char.ofNat ((m - 0xD800) * 0x400 + (n - 0xDC00) + 0x10000) :: content)
        ('\\' :: 'u' :: (high ++ '\\' :: 'u' :: (low ++ text)))

/-! ## Numbers -/

/-- One digit or more. -/
structure Digits (text : List Char) : Prop where
  nonempty : text ≠ []
  all : ∀ c ∈ text, (Decimal.digitOf? c).isSome = true

/-- Digits without a needless zero at the front. -/
structure Whole (text : List Char) : Prop extends Digits text where
  reduced : text.head? = some '0' → text = ['0']

/-- An exponent, or none. -/
inductive Exponent : List Char → Prop
  | absent : Exponent []
  | given {letter : Char} {sign digits : List Char} (hletter : letter = 'e' ∨ letter = 'E')
      (hsign : sign = [] ∨ sign = ['+'] ∨ sign = ['-']) (hdigits : Digits digits) :
      Exponent (letter :: (sign ++ digits))

/-- A number without its sign. -/
inductive Magnitude : List Char → Prop
  | whole {digits exponent : List Char} (hdigits : Whole digits)
      (hexponent : Exponent exponent) : Magnitude (digits ++ exponent)
  | fraction {digits decimals exponent : List Char} (hdigits : Whole digits)
      (hdecimals : Digits decimals) (hexponent : Exponent exponent) :
      Magnitude (digits ++ '.' :: (decimals ++ exponent))

/-- A number. -/
inductive Numeral : List Char → Prop
  | positive {text : List Char} (h : Magnitude text) : Numeral text
  | negative {text : List Char} (h : Magnitude text) : Numeral ('-' :: text)

/-! ## Values -/

namespace Bracket

/-- The character that opens a bracket. -/
def opening : Bracket → Char
  | list => '['
  | object => '{'

/-- The character that closes a bracket. -/
def closing : Bracket → Char
  | list => ']'
  | object => '}'

end Bracket

/-- What stands before an item: in an object, its name. -/
inductive Lead : Bracket → List Char → Prop
  | list {s : List Char} (hs : Blank s) : Lead .list s
  | object {s name s' s'' : List Char} (hs : Blank s) (hname : StringShape name)
      (hs' : Blank s') (hs'' : Blank s'') :
      Lead .object (s ++ '"' :: (name ++ '"' :: (s' ++ ':' :: s'')))

/-- What a phrase is: a value, or what follows an item, up to the closing
bracket. -/
inductive Part where
  | value
  | rest (b : Bracket)

/-- A value or the rest of one. -/
inductive Phrase : Part → List Char → Prop
  | null : Phrase .value ['n', 'u', 'l', 'l']
  | yes : Phrase .value ['t', 'r', 'u', 'e']
  | no : Phrase .value ['f', 'a', 'l', 's', 'e']
  | number {text : List Char} (h : Numeral text) : Phrase .value text
  | string {text : List Char} (h : StringShape text) : Phrase .value ('"' :: (text ++ ['"']))
  | empty {s : List Char} (b : Bracket) (hs : Blank s) :
      Phrase .value (b.opening :: (s ++ [b.closing]))
  | filled {lead item rest : List Char} (b : Bracket) (hlead : Lead b lead)
      (hitem : Phrase .value item) (hrest : Phrase (.rest b) rest) :
      Phrase .value (b.opening :: (lead ++ (item ++ rest)))
  | close {s : List Char} (b : Bracket) (hs : Blank s) : Phrase (.rest b) (s ++ [b.closing])
  | next {s lead item rest : List Char} (b : Bracket) (hs : Blank s) (hlead : Lead b lead)
      (hitem : Phrase .value item) (hrest : Phrase (.rest b) rest) :
      Phrase (.rest b) (s ++ ',' :: (lead ++ (item ++ rest)))

/-! ## Objects and their entries -/

/-- A name in an object and the text of the value under it. -/
structure Entry where
  name : String
  text : List Char

/-- What stands before a name, at the first one or at a later one. -/
inductive Separator : Bool → List Char → Prop
  | first {s : List Char} (hs : Blank s) : Separator true s
  | comma {s s' : List Char} (hs : Blank s) (hs' : Blank s') : Separator false (s ++ ',' :: s')

/-- Entries up to the closing bracket. -/
inductive EntriesText : Bool → List Entry → List Char → Prop
  | close {first : Bool} {s : List Char} (hs : Blank s) : EntriesText first [] (s ++ ['}'])
  | entry {first : Bool} {e : Entry} {entries : List Entry} {sep name s s' rest : List Char}
      (hsep : Separator first sep) (hname : Spelling e.name.toList name) (hs : Blank s)
      (hs' : Blank s') (hrest : EntriesText false entries rest) :
      EntriesText first (e :: entries)
        (sep ++ '"' :: (name ++ '"' :: (s ++ ':' :: (s' ++ (e.text ++ rest)))))

/-- An object with the given entries. -/
inductive ObjectText (entries : List Entry) : List Char → Prop
  | mk {text : List Char} (h : EntriesText true entries text) : ObjectText entries ('{' :: text)

/-- The texts under a name. -/
def textsUnder (entries : List Entry) (name : String) : List (List Char) :=
  (entries.filter (·.name = name)).map (·.text)

theorem EntriesText.length_lt {first : Bool} {entries : List Entry} {text : List Char}
    (h : EntriesText first entries text) : entries.length < text.length := by
  induction h with
  | close => simp
  | entry _ _ _ _ _ ih =>
    simp only [List.length_cons, List.length_append]
    omega

/-- Later entries are set apart from the value before them. -/
theorem EntriesText.delimited {entries : List Entry} {text more : List Char}
    (h : EntriesText false entries text) : Delimited (text ++ more) := by
  cases h with
  | close hs =>
    rw [List.append_assoc]
    exact hs.delimited_append (by simp [Delimited])
  | entry hsep =>
    cases hsep with
    | comma hs =>
      simp only [List.append_assoc]
      exact hs.delimited_append (by simp [Delimited])

theorem Phrase.delimited {b : Bracket} {text more : List Char}
    (h : Phrase (.rest b) text) : Delimited (text ++ more) := by
  cases h with
  | close _ hs =>
    rw [List.append_assoc]
    exact hs.delimited_append (by cases b <;> simp [Delimited, Bracket.closing])
  | next _ hs =>
    rw [List.append_assoc]
    exact hs.delimited_append (by simp [Delimited])

end SlotRadio.Json
