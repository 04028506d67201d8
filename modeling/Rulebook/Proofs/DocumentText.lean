import Rulebook.Proofs.Decoding
import Rulebook.Proofs.NumberText

/-!
# Documents are read from their text

The text of a document is cut into the values that the document is made of (`Json.source`,
`Source.ofSymbols_print`): characters that are escaped come back as they were, and numbers as they
are read from what is written of them (`Number.reread?`), which need not be the same numbers. What
is made of the values depends on nothing else but how deep lists and objects stand inside each
other: a reader that allows as much gets the document with its numbers read again, and one that does
not fails (`Source.content_source`).
-/

namespace Rulebook

/-- The number that is read from the text of a number, if one is. -/
def Number.reread? (n : Number) : Option Number :=
  match Source.ofSymbols (Text.symbols (Json.numberText n)) with
  | (.number value, some []) => value
  | _ => none

namespace Json

mutual

/-- The document with every number read from its text again, unless one of them is beyond the range
then. -/
def reread? : Json → Option Json
  | .number value => value.reread?.map .number
  | .list items => (rereadItems? items).map .list
  | .object members => (rereadMembers? members).map .object
  | value => some value

/-- The items with every number read again. -/
def rereadItems? : List Json → Option (List Json)
  | [] => some []
  | item :: items => do
    let value ← item.reread?
    return value :: (← rereadItems? items)

/-- The members with every number read again. -/
def rereadMembers? : List (String × Json) → Option (List (String × Json))
  | [] => some []
  | (key, value) :: rest => do
    let value ← value.reread?
    return (key, value) :: (← rereadMembers? rest)

end

mutual

/-- The values that the text of a document is cut into. -/
def source : Json → Source
  | .null => .null
  | .bool value => .bool value
  | .number value => .number value.reread?
  | .text value => .text (.ok value)
  | .list items => .list (itemSources items) none
  | .object members => .object (memberSources members) none

/-- The values of items. -/
def itemSources : List Json → List Source
  | [] => []
  | item :: items => item.source :: itemSources items

/-- The values of members. -/
def memberSources : List (String × Json) → List (Except Failure String × Source)
  | [] => []
  | (key, value) :: rest => (.ok key, value.source) :: memberSources rest

end

end Json

namespace Source

open Text

/-! ## What is made of the values -/

mutual

/-- A reader that allows so many levels gets a document with at most as many, its numbers read
again. -/
theorem content_source (limit : Nat) (value : Json) :
    value.source.content limit =
      Except.ofOption .malformed (if value.nesting ≤ limit then value.reread? else none) := by
  match limit, value with
  | limit, .null => simp [Json.source, content, Json.nesting, Json.reread?]
  | limit, .bool value => simp [Json.source, content, Json.nesting, Json.reread?]
  | limit, .text value => simp [Json.source, content, Json.nesting, Json.reread?, Except.map]
  | limit, .number value =>
    cases h : value.reread? <;> simp [Json.source, content, Json.nesting, Json.reread?, h]
  | 0, .list items =>
    rw [Json.source, content, Json.nesting, if_neg (by omega)]
    rfl
  | 0, .object members =>
    rw [Json.source, content, Json.nesting, if_neg (by omega)]
    rfl
  | limit + 1, .list items =>
    rw [Json.source, content, contentItems_source limit items, Json.nesting, Json.reread?]
    by_cases h : Json.nestingItems items ≤ limit
    · rw [if_pos h, if_pos (by omega)]
      cases Json.rereadItems? items <;> rfl
    · rw [if_neg h, if_neg (by omega)]
      rfl
  | limit + 1, .object members =>
    rw [Json.source, content, contentMembers_source limit members, Json.nesting, Json.reread?]
    by_cases h : Json.nestingMembers members ≤ limit
    · rw [if_pos h, if_pos (by omega)]
      cases Json.rereadMembers? members <;> rfl
    · rw [if_neg h, if_neg (by omega)]
      rfl

theorem contentItems_source (limit : Nat) (items : List Json) :
    contentItems limit (Json.itemSources items) =
      Except.ofOption .malformed
        (if Json.nestingItems items ≤ limit then Json.rereadItems? items else none) := by
  match items with
  | [] => simp [Json.itemSources, contentItems, Json.nestingItems, Json.rereadItems?]
  | item :: items =>
    rw [Json.itemSources, contentItems, content_source limit item, contentItems_source limit items,
      Json.nestingItems, Json.rereadItems?]
    simp only [Nat.max_le]
    exact Except.ofOption_ite_bind_ite fun value rest => some (value :: rest)

theorem contentMembers_source (limit : Nat) (members : List (String × Json)) :
    contentMembers limit (Json.memberSources members) =
      Except.ofOption .malformed
        (if Json.nestingMembers members ≤ limit then Json.rereadMembers? members else none) := by
  match members with
  | [] => simp [Json.memberSources, contentMembers, Json.nestingMembers, Json.rereadMembers?]
  | (key, value) :: members =>
    rw [Json.memberSources, contentMembers, content_source limit value,
      contentMembers_source limit members, Json.nestingMembers, Json.rereadMembers?]
    simp only [Nat.max_le]
    exact Except.ofOption_ite_bind_ite fun value rest => some ((key, value) :: rest)

end

/-! ## Texts -/

/-- The four hexadecimal digits of a control character are read as its number. -/
theorem hexDigits_eq {n : Nat} (h : n < 32) :
    ∃ a b c d, Json.hexDigits n = [a, b, c, d] ∧ hexQuad? a b c d = some n := by
  have hall : ∀ k < 32,
      Json.hexDigits k = ['0', '0', Nat.digitChar (k / 16), Nat.digitChar (k % 16)] ∧
        hexQuad? '0' '0' (Nat.digitChar (k / 16)) (Nat.digitChar (k % 16)) = some k := by
    decide
  exact ⟨_, _, _, _, hall n h⟩

/-- A character is read back from what stands for it in a text. -/
theorem readText_escape (c : Char) (read rest : List Symbol) :
    readText ⟨read, none, none⟩ ((Json.escape c).map .char ++ rest) =
      readText ⟨.char c :: read, none, none⟩ rest := by
  unfold Json.escape
  -- seven characters have an escape of one letter
  iterate 7
    split
    · next h => rw [h]; rfl
  split
  · next h =>
    obtain ⟨p, q, r, s, hdigits, hquad⟩ := hexDigits_eq h
    have hunit : Written.pushUnit ⟨read, none, none⟩ c.toNat =
        ⟨.char c :: read, none, none⟩ := by
      have htrail : isTrail c.toNat = false := by
        simp only [isTrail, Bool.and_eq_false_iff, decide_eq_false_iff_not]
        omega
      have hlead : isLead c.toNat = false := by
        simp only [isLead, Bool.and_eq_false_iff, decide_eq_false_iff_not]
        omega
      simp only [Written.pushUnit, htrail, hlead, Bool.false_eq_true, if_false, Char.ofNat_toNat]
    simp only [hdigits, List.map_cons, List.map_nil, List.cons_append, List.nil_append]
    rw [readText, hquad]
    exact congrArg (readText · rest) hunit
  · next hquote hslash _ _ _ _ _ hspace =>
    rw [List.map_singleton, List.singleton_append, readText, if_neg hspace]
    · rfl
    all_goals simp [hquote, hslash]

/-- A text is read back from between its quotes. -/
theorem readText_quoted (cs read : List Char) (rest : List Symbol) :
    readText ⟨read.map .char, none, none⟩
        ((cs.flatMap Json.escape).map .char ++ .char '"' :: rest) =
      (.ok (String.ofList (read.reverse ++ cs)), .ok rest) := by
  induction cs generalizing read with
  | nil =>
    have hfinish : Written.finish ⟨read.map .char, none, none⟩ =
        .ok (String.ofList read.reverse) := by
      simp only [Written.finish, Written.settle, Option.isSome_none, Bool.false_eq_true, if_false,
        ← List.map_reverse, mapM_char?]
    rw [List.flatMap_nil, List.map_nil, List.nil_append, List.append_nil, readText, hfinish]
  | cons c cs ih =>
    rw [List.flatMap_cons, List.map_append, List.append_assoc, readText_escape, ← List.map_cons, ih,
      List.reverse_cons, List.append_assoc, List.singleton_append]

theorem readText_escaped (text : String) (rest : List Symbol) :
    readText .start ((text.toList.flatMap Json.escape).map .char ++ .char '"' :: rest) =
      (.ok text, .ok rest) := by
  have hread := readText_quoted text.toList [] rest
  rwa [List.reverse_nil, List.nil_append, String.ofList_toList] at hread

theorem symbols_quote (text : String) :
    symbols (Json.quote text) =
      .char '"' :: (text.toList.flatMap Json.escape).map .char ++ [.char '"'] := by
  rw [Json.quote, symbols_append, symbols_append]
  simp only [symbols, String.toList_ofList]
  rfl

/-! ## Values -/

/-- A character that a value can start with: no blank, no comma and no closing bracket. -/
def Starts (c : Char) : Prop := c ∉ [' ', '\n', '\t', '\r', ',', ']']

instance (c : Char) : Decidable (Starts c) := inferInstanceAs (Decidable (c ∉ _))

theorem Starts.dropSpace {c : Char} (h : Starts c) (rest : List Symbol) :
    dropSpace (.char c :: rest) = .char c :: rest := by
  simp only [Starts, List.mem_cons, List.not_mem_nil, or_false, not_or] at h
  obtain ⟨hspace, hline, htab, hreturn, -⟩ := h
  exact List.dropWhile_cons_of_neg (by simp [isSpace, hspace, hline, htab, hreturn])

/-- What starts with a character of a class does not start with one outside of it. -/
theorem head_ne (p : Char → Prop) {c d : Char} {rest rest' : List Symbol} (hc : p c) (hd : ¬p d) :
    Symbol.char c :: rest ≠ .char d :: rest' := by
  intro heq
  cases heq
  exact hd hc

theorem starts_of_isDigit {c : Char} (h : Decimal.isDigit c) : Starts c := by
  intro hmem
  have hall : [' ', '\n', '\t', '\r', ',', ']'].all (!Decimal.isDigit ·) = true := by decide
  have hc := List.all_eq_true.1 hall c hmem
  rw [h] at hc
  cases hc

/-- The text of a document starts like a value. -/
theorem print_head {value : Json} (h : value.InRange) :
    ∃ c tail, symbols value.print = .char c :: tail ∧ Starts c := by
  cases value with
  | null => exact ⟨'n', _, rfl, by decide⟩
  | bool value =>
    cases value with
    | true => exact ⟨'t', _, rfl, by decide⟩
    | false => exact ⟨'f', _, rfl, by decide⟩
  | number n =>
    obtain ⟨value, negative, cs, htext, hreads⟩ :=
      exists_readsTo (h n (List.mem_singleton_self _))
    rw [Json.print, symbols, htext]
    cases negative with
    | true => exact ⟨'-', cs.map .char, rfl, by decide⟩
    | false =>
      have hread := hreads [] numberEnds_nil
      rw [List.append_nil] at hread
      obtain ⟨c, tail, hcs, hc⟩ := head_of_readUnsigned (congrArg Prod.fst hread)
      exact ⟨c, tail, hcs, starts_of_isDigit hc⟩
  | text value =>
    rw [Json.print, symbols_quote]
    exact ⟨'"', _, rfl, by decide⟩
  | list items =>
    rw [Json.print, symbols_append, symbols_append]
    exact ⟨'[', _, rfl, by decide⟩
  | object members =>
    rw [Json.print, symbols_append, symbols_append]
    exact ⟨'\x7b', _, rfl, by decide⟩

theorem readValue_minus (fuel : Nat) (rest : List Symbol) :
    readValue (fuel + 1) (.char '-' :: rest) = closeNumber (readUnsigned true rest) := rfl

theorem readValue_digit (fuel : Nat) {c : Char} (h : Decimal.isDigit c) (rest : List Symbol) :
    readValue (fuel + 1) (.char c :: rest) =
      closeNumber (readUnsigned false (.char c :: rest)) := by
  rw [readValue, (starts_of_isDigit h).dropSpace]
  split
  · next heq => cases heq
  -- seven characters that are no digits start values of other kinds and negative numbers
  iterate 7
    · next heq => exact absurd heq (head_ne (Decimal.isDigit · = true) h (by decide))
  · next heq =>
    cases heq
    exact if_pos h
  · next heq => cases heq

/-- The text of a number is read as the same value whatever follows. -/
theorem readValue_readsTo {n : Number} {value : Option Number}
    (h : ReadsTo (Json.numberText n).toList value) (fuel : Nat) {rest : List Symbol}
    (hrest : NumberEnds rest) :
    readValue (fuel + 1) (symbols (Json.numberText n) ++ rest) = (.number value, some rest) := by
  obtain ⟨negative, cs, htext, hreads⟩ := h
  have hread := hreads rest hrest
  rw [symbols, htext]
  cases negative with
  | true =>
    rw [if_pos rfl, List.singleton_append, List.map_cons, List.cons_append, readValue_minus, hread]
    rfl
  | false =>
    obtain ⟨c, tail, hcs, hc⟩ := head_of_readUnsigned (congrArg Prod.fst hread)
    rw [if_neg Bool.false_ne_true, List.nil_append, hcs, readValue_digit fuel hc, ← hcs, hread]
    rfl

theorem reread?_eq {n : Number} {value : Option Number}
    (h : ReadsTo (Json.numberText n).toList value) : n.reread? = value := by
  have hread := readValue_readsTo h (3 * (symbols (Json.numberText n)).length + 2) numberEnds_nil
  rw [List.append_nil] at hread
  have halone : ofSymbols (symbols (Json.numberText n)) = (.number value, some []) := hread
  rw [Number.reread?, halone]

/-- A number of a document is read again from its text. -/
theorem readValue_number {n : Number} (h : n.InRange) (fuel : Nat) {rest : List Symbol}
    (hrest : NumberEnds rest) :
    readValue (fuel + 1) (symbols (Json.numberText n) ++ rest) =
      (.number n.reread?, some rest) := by
  obtain ⟨value, hreads⟩ := exists_readsTo h
  rw [reread?_eq hreads, readValue_readsTo hreads fuel hrest]

/-! ## Lists and objects -/

theorem numberEnds_of_mem {c : Char} (h : c ∈ [',', ']', '\x7d']) (rest : List Symbol) :
    NumberEnds (.char c :: rest) := by
  rintro _ _ heq
  cases heq
  have hall : [',', ']', '\x7d'].all (fun d =>
      !Decimal.isDigit d && d != '.' && d != 'e' && d != 'E') = true := by decide
  have hc := List.all_eq_true.1 hall c h
  simpa only [Bool.and_eq_true, Bool.not_eq_true', bne_iff_ne, and_assoc] using hc

theorem readItems_close (fuel : Nat) (first : Bool) (rest : List Symbol) :
    readItems (fuel + 1) first (.char ']' :: rest) = ([], none, some rest) := by
  cases first <;> rfl

theorem readItems_first (fuel : Nat) {c : Char} (h : Starts c) (tail : List Symbol) :
    readItems (fuel + 1) true (.char c :: tail) = readItem fuel (.char c :: tail) := by
  rw [readItems, h.dropSpace]
  split
  · next heq => cases heq
  · next heq => exact absurd heq (head_ne Starts h (by decide))
  · next heq => exact absurd heq (head_ne Starts h (by decide))
  · rfl

theorem readItems_comma (fuel : Nat) {c : Char} (h : Starts c) (tail : List Symbol) :
    readItems (fuel + 1) false (.char ',' :: .char c :: tail) =
      readItem fuel (.char c :: tail) := by
  have hcomma : Source.dropSpace (.char ',' :: .char c :: tail) = .char ',' :: .char c :: tail :=
    rfl
  rw [readItems, hcomma]
  simp only [Bool.false_eq_true, if_false, h.dropSpace]
  split
  · next heq => cases heq
  · next heq => exact absurd heq (head_ne Starts h (by decide))
  · rfl

theorem readValue_quote (fuel : Nat) (rest : List Symbol) :
    readValue (fuel + 1) (.char '"' :: rest) =
      match readText .start rest with
      | (value, .ok rest) => (.text value, some rest)
      | (.error reading, .error skipping) => (.broken reading skipping, none)
      | (.ok _, .error skipping) => failed skipping := rfl

theorem readValue_bracket (fuel : Nat) (rest : List Symbol) :
    readValue (fuel + 1) (.char '[' :: rest) =
      let (items, stop, after) := readItems fuel true rest
      (.list items stop, after) := rfl

theorem readValue_brace (fuel : Nat) (rest : List Symbol) :
    readValue (fuel + 1) (.char '\x7b' :: rest) =
      let (members, stop, after) := readMembers fuel true rest
      (.object members stop, after) := rfl

theorem readMembers_first (fuel : Nat) (rest : List Symbol) :
    readMembers (fuel + 1) true (.char '"' :: rest) = readMember fuel rest := rfl

theorem readMembers_comma (fuel : Nat) (rest : List Symbol) :
    readMembers (fuel + 1) false (.char ',' :: .char '"' :: rest) = readMember fuel rest := rfl

theorem readMembers_close (fuel : Nat) (first : Bool) (rest : List Symbol) :
    readMembers (fuel + 1) first (.char '\x7d' :: rest) = ([], none, some rest) := by
  cases first <;> rfl

theorem symbols_list (items : List Json) :
    symbols (Json.list items).print =
      .char '[' :: (symbols (Json.printItems items) ++ [.char ']']) := by
  rw [Json.print, symbols_append, symbols_append, List.append_assoc]
  rfl

theorem symbols_object (members : List (String × Json)) :
    symbols (Json.object members).print =
      .char '\x7b' :: (symbols (Json.printMembers members) ++ [.char '\x7d']) := by
  rw [Json.print, symbols_append, symbols_append, List.append_assoc]
  rfl

theorem symbols_printItems (item next : Json) (items : List Json) :
    symbols (Json.printItems (item :: next :: items)) =
      symbols item.print ++ .char ',' :: symbols (Json.printItems (next :: items)) := by
  rw [Json.printItems, symbols_append, symbols_append, List.append_assoc]
  rfl

theorem printItems_head {item : Json} (h : item.InRange) (items : List Json) :
    ∃ c tail, symbols (Json.printItems (item :: items)) = .char c :: tail ∧ Starts c := by
  obtain ⟨c, tail, htext, hc⟩ := print_head h
  cases items with
  | nil => exact ⟨c, tail, htext, hc⟩
  | cons next items =>
    rw [symbols_printItems, htext]
    exact ⟨c, _, rfl, hc⟩

theorem symbols_printMember (key : String) (value : Json) :
    symbols (Json.printMembers [(key, value)]) =
      .char '"' :: ((key.toList.flatMap Json.escape).map .char ++ .char '"' :: .char ':' ::
        symbols value.print) := by
  rw [Json.printMembers, symbols_append, symbols_append, symbols_quote]
  simp only [List.append_assoc, List.cons_append]
  rfl

theorem symbols_printMembers (key : String) (value : Json) (next : String × Json)
    (members : List (String × Json)) :
    symbols (Json.printMembers ((key, value) :: next :: members)) =
      .char '"' :: ((key.toList.flatMap Json.escape).map .char ++ .char '"' :: .char ':' ::
        (symbols value.print ++ .char ',' :: symbols (Json.printMembers (next :: members)))) := by
  rw [Json.printMembers, symbols_append, symbols_append, symbols_append, symbols_append,
    symbols_quote]
  simp only [List.append_assoc, List.cons_append]
  rfl

theorem printMembers_head (member : String × Json) (members : List (String × Json)) :
    ∃ text, symbols (Json.printMembers (member :: members)) = .char '"' :: text := by
  obtain ⟨key, value⟩ := member
  cases members with
  | nil => exact ⟨_, symbols_printMember key value⟩
  | cons next members => exact ⟨_, symbols_printMembers key value next members⟩

/-- A key is read before its value. -/
theorem readMember_key (fuel : Nat) (key : String) (rest : List Symbol) :
    readMember (fuel + 1)
        ((key.toList.flatMap Json.escape).map .char ++ .char '"' :: .char ':' :: rest) =
      match readValue fuel rest with
      | (value, none) => ([(.ok key, value)], none, none)
      | (value, some rest) =>
        let (members, stop, after) := readMembers fuel false rest
        ((.ok key, value) :: members, stop, after) := by
  rw [readMember, readText_escaped]
  rfl

-- The induction is on the fuel: the text after an item is no text of a smaller document.
mutual

/-- The text of a document is cut into its values, whatever follows that could not belong to a
number at its end. -/
theorem readValue_print (value : Json) (h : value.InRange) (fuel : Nat)
    (hfuel : 3 * (symbols value.print).length ≤ fuel) {rest : List Symbol}
    (hrest : NumberEnds rest) :
    readValue fuel (symbols value.print ++ rest) = (value.source, some rest) := by
  obtain ⟨c, tail, htext, -⟩ := print_head h
  -- no document is written as nothing, so there is fuel for it and for what it begins with
  have htwo : 2 ≤ fuel := by
    rw [htext, List.length_cons] at hfuel
    omega
  obtain ⟨fuel, rfl⟩ := Nat.exists_eq_add_of_le' htwo
  cases value with
  | null => rfl
  | bool value => cases value <;> rfl
  | number n =>
    rw [Json.print]
    exact readValue_number (h n (List.mem_singleton_self _)) (fuel + 1) hrest
  | text s =>
    have hquote : symbols (Json.text s).print ++ rest =
        .char '"' :: ((s.toList.flatMap Json.escape).map .char ++ .char '"' :: rest) := by
      rw [Json.print, symbols_quote, List.append_assoc, List.cons_append, List.singleton_append]
    rw [hquote, readValue_quote, readText_escaped]
    rfl
  | list items =>
    cases items with
    | nil => rfl
    | cons item items =>
      have hitem := Json.inRange_list.1 h item (List.mem_cons_self ..)
      obtain ⟨d, after, hitems, hd⟩ := printItems_head hitem items
      rw [symbols_list, List.length_cons, List.length_append, List.length_singleton] at hfuel
      have hread := readItem_print item items (Json.inRange_list.1 h) fuel (by omega) rest
      rw [hitems, List.cons_append] at hread
      rw [symbols_list, hitems, List.cons_append, List.cons_append, List.cons_append,
        List.append_assoc, List.singleton_append, readValue_bracket, readItems_first fuel hd, hread]
      rfl
  | object members =>
    cases members with
    | nil => rfl
    | cons member members =>
      obtain ⟨inner, hinner⟩ := printMembers_head member members
      rw [symbols_object, List.length_cons, List.length_append, List.length_singleton, hinner,
        List.length_cons] at hfuel
      have hread := readMember_print member members (Json.inRange_object.1 h) fuel hinner (by omega)
        rest
      rw [symbols_object, hinner, List.cons_append, List.cons_append, List.cons_append,
        List.append_assoc, List.singleton_append, readValue_brace, readMembers_first, hread]
      rfl
termination_by fuel

theorem readItem_print (item : Json) (items : List Json)
    (h : ∀ value ∈ item :: items, value.InRange) (fuel : Nat)
    (hfuel : 3 * (symbols (Json.printItems (item :: items))).length + 3 ≤ fuel)
    (rest : List Symbol) :
    readItem fuel (symbols (Json.printItems (item :: items)) ++ .char ']' :: rest) =
      (Json.itemSources (item :: items), none, some rest) := by
  have hitem := h item (List.mem_cons_self ..)
  obtain ⟨fuel, rfl⟩ : ∃ k, fuel = k + 2 := Nat.exists_eq_add_of_le' (by omega)
  match items with
  | [] =>
    rw [Json.printItems] at hfuel ⊢
    have hvalue := readValue_print item hitem (fuel + 1) (by omega)
      (numberEnds_of_mem (by decide : ']' ∈ [',', ']', '\x7d']) rest)
    rw [readItem, hvalue]
    dsimp only
    rw [readItems_close]
    rfl
  | next :: items =>
    rw [symbols_printItems, List.length_append, List.length_cons] at hfuel
    have hvalue := readValue_print item hitem (fuel + 1) (by omega)
      (numberEnds_of_mem (by decide : ',' ∈ [',', ']', '\x7d'])
        (symbols (Json.printItems (next :: items)) ++ .char ']' :: rest))
    have hitems := readItem_print next items (fun value hvalue => h value (.tail _ hvalue)) fuel
      (by omega) rest
    obtain ⟨c, tail, htext, hc⟩ := printItems_head (h next (.tail _ (.head _))) items
    rw [symbols_printItems, List.append_assoc, List.cons_append, readItem, hvalue]
    dsimp only
    rw [htext, List.cons_append] at hitems ⊢
    rw [readItems_comma fuel hc, hitems]
    rfl
termination_by fuel

theorem readMember_print (member : String × Json) (members : List (String × Json))
    (h : ∀ m ∈ member :: members, m.2.InRange) (fuel : Nat) {inner : List Symbol}
    (hinner : symbols (Json.printMembers (member :: members)) = .char '"' :: inner)
    (hfuel : 3 * inner.length + 3 ≤ fuel) (rest : List Symbol) :
    readMember fuel (inner ++ .char '\x7d' :: rest) =
      (Json.memberSources (member :: members), none, some rest) := by
  have hmember := h member (List.mem_cons_self ..)
  obtain ⟨key, value⟩ := member
  obtain ⟨fuel, rfl⟩ : ∃ k, fuel = k + 2 := Nat.exists_eq_add_of_le' (by omega)
  cases members with
  | nil =>
    rw [symbols_printMember] at hinner
    obtain rfl := (List.cons.inj hinner).2
    simp only [List.length_append, List.length_cons] at hfuel
    have hvalue := readValue_print value hmember (fuel + 1) (by omega)
      (numberEnds_of_mem (by decide : '\x7d' ∈ [',', ']', '\x7d']) rest)
    rw [List.append_assoc, List.cons_append, List.cons_append, readMember_key, hvalue]
    dsimp only
    rw [readMembers_close]
    rfl
  | cons next members =>
    obtain ⟨later, hlater⟩ := printMembers_head next members
    rw [symbols_printMembers, hlater] at hinner
    obtain rfl := (List.cons.inj hinner).2
    simp only [List.length_append, List.length_cons] at hfuel
    have hvalue := readValue_print value hmember (fuel + 1) (by omega)
      (numberEnds_of_mem (by decide : ',' ∈ [',', ']', '\x7d'])
        (.char '"' :: (later ++ .char '\x7d' :: rest)))
    have hmembers := readMember_print next members (fun m hm => h m (.tail _ hm)) fuel hlater
      (by omega) rest
    simp only [List.append_assoc, List.cons_append]
    rw [readMember_key, hvalue]
    dsimp only
    rw [readMembers_comma, hmembers]
    rfl
termination_by fuel

end

/-- The text of a document is cut into its values, and nothing is left of it. -/
theorem ofSymbols_print {value : Json} (h : value.InRange) :
    ofSymbols (symbols value.print) = (value.source, some []) := by
  have hread := readValue_print value h (3 * (symbols value.print).length + 3) (by omega)
    numberEnds_nil
  rwa [List.append_nil] at hread

end Source

/-- **Documents are read from their text.** A document whose numbers are those of documents is read
from its text by every reader that allows it to be nested so deep, with its members in order and
each of them once, and with its numbers read again; a reader that does not allow it fails, and so
does one that meets a number beyond the range. -/
theorem Json.readWithin_print {value : Json} (h : value.InRange) (limit : Nat) :
    readWithin limit value.print =
      Except.ofOption .malformed
        (if value.nesting ≤ limit then value.reread?.map Json.canonical else none) := by
  rw [readWithin, Source.ofSymbols_print h]
  dsimp only
  rw [Source.content_source]
  split
  · cases value.reread? <;> rfl
  · rfl

end Rulebook
