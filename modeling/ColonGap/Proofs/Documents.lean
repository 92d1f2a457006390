import ColonGap.Proofs.Characters
import ColonGap.Proofs.Decimals
import ColonGap.Report.Document
import Mathlib.Tactic.IntervalCases

/-!
# Documents can be read back

A document is written as JSON, and what it says is what a reader of JSON makes of it. `read?` is
such a reader: it knows the escapes of texts, decimal numbers, lists and records, and it passes over
blanks between them. What it makes of a document that was written is that document
(`read?_render`), with a text for each name and every malformed byte replaced.

## Nothing can be faked

A text ends at the first quote that no backslash stands before. The writer puts a backslash before
every quote and every backslash of a text, so whatever a text holds, the reader comes out of it
behind its last quote (`readText?_renderText`). The other parts of a document are found by their
first byte.

## How deep a document goes

The reader counts down a bound on the nesting, for which the length of the text is enough: whatever
stands inside a list or a record is written with fewer bytes than the whole.
-/

namespace ColonGap

namespace Utf8

/-! ### Malformed bytes -/

/-- A text with every malformed byte replaced by the replacement character. -/
def repaired (s : Bytes) : Bytes :=
  (scalars s).flatMap fun c ↦ encode c.code

/-- A valid text has nothing to be repaired. -/
theorem repaired_of_isValid {s : Bytes} (h : isValid s = true) : repaired s = s := by
  induction s using glyph_induction with
  | nil => rfl
  | cons b rest ih =>
    rw [isValid, scalars_cons, List.all_cons, Bool.and_eq_true, Bool.not_eq_true'] at h
    have hrest := ih h.2
    rw [repaired] at hrest ⊢
    rw [scalars_cons, List.flatMap_cons, encode_ofLead_of_wellFormed h.1, hrest, List.cons_append,
      List.take_append_drop]

/-- A byte below `0x80` occurs in no character but the one it stands for. -/
theorem notMem_encode {code : Nat} {n : UInt8} (hn : n < 0x80) (hcode : code ≠ n.toNat) :
    n ∉ encode code := by
  have hlt : n.toNat < 0x80 := UInt8.lt_iff_toNat_lt.1 hn
  have hbyte : ∀ k : Nat, k % 256 ≠ n.toNat → n ≠ k.toUInt8 := by
    rintro k hk rfl
    exact hk (by simp)
  unfold encode
  split_ifs with h1 h2 h3 h4 <;> simp only [List.mem_cons, List.not_mem_nil, or_false, not_or]
  · exact hbyte _ (by omega)
  · exact ⟨hbyte _ (by omega), hbyte _ (by omega)⟩
  · exact ⟨hbyte 0xEF (by omega), hbyte 0xBF (by omega), hbyte 0xBD (by omega)⟩
  · exact ⟨hbyte _ (by omega), hbyte _ (by omega), hbyte _ (by omega)⟩
  · simp only [Bool.or_eq_true, Bool.and_eq_true, decide_eq_true_eq] at h3
    exact ⟨hbyte _ (by omega), hbyte _ (by omega), hbyte _ (by omega), hbyte _ (by omega)⟩

end Utf8

namespace Report

/-! ### Texts -/

/-- The value of a hexadecimal digit. -/
def hexValue? (b : UInt8) : Option Nat :=
  if 48 ≤ b && b ≤ 57 then some (b.toNat - 48)
  else if 65 ≤ b && b ≤ 70 then some (b.toNat - 55)
  else if 97 ≤ b && b ≤ 102 then some (b.toNat - 87)
  else none

/-- The number that hexadecimal digits stand for. -/
def ofHex? (digits : Bytes) : Option Nat :=
  digits.foldlM (fun n b ↦ (hexValue? b).map (16 * n + ·)) 0

/-- What the letter behind a backslash stands for. -/
def unescaped? : UInt8 → Option UInt8
  | 34 => some 34
  | 47 => some 47
  | 92 => some 92
  | 98 => some 8
  | 102 => some 12
  | 110 => some 10
  | 114 => some 13
  | 116 => some 9
  | _ => none

/-- The rest of a text up to its closing quote, and what stands behind it. -/
def readText? : Bytes → Option (Bytes × Bytes)
  | [] => none
  | b :: s =>
    if b = 34 then some ([], s)
    else if b = 92 then
      match s with
      | [] => none
      | 117 :: h₁ :: h₂ :: h₃ :: h₄ :: s =>
        (ofHex? [h₁, h₂, h₃, h₄]).bind fun code ↦
          (readText? s).map (Prod.map (Utf8.encode code ++ ·) id)
      | letter :: s =>
        (unescaped? letter).bind fun b ↦ (readText? s).map (Prod.map ([b] ++ ·) id)
    else (readText? s).map (Prod.map ([b] ++ ·) id)

theorem hexValue?_hexDigit {n : Nat} (h : n < 16) : hexValue? (hexDigit n) = some n := by
  interval_cases n <;> rfl

/-- Hexadecimal digits are read as the number they were written for, up to their width. -/
theorem ofHex?_hexDigits (width n : Nat) :
    ofHex? (hexDigits width n) = some (n % 16 ^ width) := by
  induction width generalizing n with
  | zero => simp [ofHex?, hexDigits, Nat.mod_one]
  | succ width ih =>
    have hfront := ih (n / 16)
    rw [ofHex?] at hfront ⊢
    rw [hexDigits, List.foldlM_append, hfront]
    simp only [Option.bind_eq_bind, Option.bind_some, List.foldlM_cons, List.foldlM_nil,
      hexValue?_hexDigit (Nat.mod_lt n (by decide : 16 > 0)), Option.map_some]
    rw [Nat.pow_succ', Nat.mod_mul, Nat.add_comm]
    rfl

variable {s : Bytes}

theorem readText?_cons (b : UInt8) (s : Bytes) :
    readText? (b :: s)
      = if b = 34 then some ([], s)
        else if b = 92 then
          match s with
          | [] => none
          | 117 :: h₁ :: h₂ :: h₃ :: h₄ :: s =>
            (ofHex? [h₁, h₂, h₃, h₄]).bind fun code ↦
              (readText? s).map (Prod.map (Utf8.encode code ++ ·) id)
          | letter :: s =>
            (unescaped? letter).bind fun b ↦ (readText? s).map (Prod.map ([b] ++ ·) id)
        else (readText? s).map (Prod.map ([b] ++ ·) id) := by
  rw [readText?.eq_def]
  rfl

theorem readText?_quote (s : Bytes) : readText? (34 :: s) = some ([], s) := by
  rw [readText?_cons, if_pos rfl]

/-- Bytes that are neither quotes nor backslashes stand for themselves. -/
theorem readText?_plain {bytes : Bytes} (hquote : 34 ∉ bytes) (hslash : 92 ∉ bytes) (s : Bytes) :
    readText? (bytes ++ s) = (readText? s).map (Prod.map (bytes ++ ·) id) := by
  induction bytes with
  | nil =>
    show readText? s = _
    cases readText? s <;> rfl
  | cons b bytes ih =>
    simp only [List.mem_cons, not_or] at hquote hslash
    rw [List.cons_append, readText?_cons, if_neg (Ne.symm hquote.1), if_neg (Ne.symm hslash.1),
      ih hquote.2 hslash.2, Option.map_map]
    rfl

/-- A letter behind a backslash is read as the byte it stands for. -/
theorem readText?_letter {letter b : UInt8} (h : unescaped? letter = some b) (s : Bytes) :
    readText? (92 :: letter :: s) = (readText? s).map (Prod.map ([b] ++ ·) id) := by
  have hletter : letter ≠ 117 := by
    rintro rfl
    cases h
  rw [readText?_cons, if_neg (by decide), if_pos rfl]
  simp [hletter, h]

/-- A code that is written in four digits is read as its character. -/
theorem readText?_code {code : Nat} (h : code < 0x10000) (s : Bytes) :
    readText? (utf8 "\\u" ++ hexDigits 4 code ++ s)
      = (readText? s).map (Prod.map (Utf8.encode code ++ ·) id) := by
  have hhex := ofHex?_hexDigits 4 code
  rw [Nat.mod_eq_of_lt (by simpa using h)] at hhex
  have hutf8 : utf8 "\\u" = [92, 117] := by decide
  rw [hutf8, List.append_assoc, List.cons_append, readText?_cons, if_neg (by decide), if_pos rfl]
  simp only [hexDigits, List.nil_append, List.cons_append] at hhex ⊢
  rw [hhex]
  rfl

/-- Whatever character is written, its escape is read as that character. -/
theorem readText?_escapeScalar (c : Scalar) (s : Bytes) :
    readText? (Document.escapeScalar c ++ s)
      = (readText? s).map (Prod.map (Utf8.encode c.code ++ ·) id) := by
  rw [Document.escapeScalar]
  split
  case isTrue h =>
    rw [Scalar.isMalformed, Bool.and_eq_true, beq_iff_eq] at h
    rw [h.1]
    exact @readText?_code 0xFFFD (by decide) s
  case isFalse =>
    split
    case h_8 hquote hslash _ _ _ _ _ =>
      split
      case isTrue hescaped =>
        simp only [Bool.or_eq_true, beq_iff_eq, decide_eq_true_eq] at hescaped
        exact readText?_code (by omega) s
      case isFalse =>
        exact readText?_plain (Utf8.notMem_encode (by decide) hquote)
          (Utf8.notMem_encode (by decide) hslash) s
    -- The characters that have a letter of their own.
    all_goals
      rename_i hcode
      rw [hcode]
      exact readText?_letter rfl s

/-- **Texts.** A text is read back up to its closing quote, whatever it holds and whatever stands
behind it. -/
theorem readText?_renderText (text s : Bytes) :
    ∃ body, Document.renderText text ++ s = 34 :: body ∧
      readText? body = some (Utf8.repaired text, s) := by
  refine ⟨(Utf8.scalars text).flatMap Document.escapeScalar ++ 34 :: s, ?_, ?_⟩
  · simp [Document.renderText]
  · rw [Utf8.repaired]
    induction Utf8.scalars text with
    | nil => exact readText?_quote s
    | cons c cs ih =>
      rw [List.flatMap_cons, List.append_assoc, readText?_escapeScalar, ih]
      rfl

/-! ### Values -/

/-- A value as it is read from JSON. -/
inductive Value where
  | null
  | number (value : Int)
  | text (value : Bytes)
  | list (items : List Value)
  | record (fields : List (Bytes × Value))

mutual

/-- The value that a document stands for. -/
def Document.value : Document → Value
  | .null => .null
  | .number n => .number n
  | .text s => .text (Utf8.repaired s)
  | .list items => .list (valuesOf items)
  | .record fields => .record (namedValuesOf fields)

/-- The values of the items of a list. -/
def valuesOf : List Document → List Value
  | [] => []
  | item :: items => item.value :: valuesOf items

/-- The values of the fields of a record. -/
def namedValuesOf : List (String × Document) → List (Bytes × Value)
  | [] => []
  | (name, value) :: fields => (Utf8.repaired (utf8 name), value.value) :: namedValuesOf fields

end

/-- A blank between the parts of a document. -/
def isFiller (b : UInt8) : Bool :=
  b == 32 || b == 10 || b == 13 || b == 9

/-- A text without the blanks that it starts with. -/
def skip (s : Bytes) : Bytes :=
  s.dropWhile isFiller

mutual

/-- The value that a text starts with, and what stands behind it. Values may be nested as deep as
`fuel` says. -/
def read? : (fuel : Nat) → Bytes → Option (Value × Bytes)
  | 0, _ => none
  | _, [] => none
  | fuel + 1, b :: s =>
    if b = 34 then (readText? s).map fun (text, s) ↦ (.text text, s)
    else if b = 91 then
      if (skip s).head? = some 93 then some (.list [], (skip s).tail)
      else do
        let (item, s) ← read? fuel (skip s)
        let (items, s) ← readItems? fuel s
        some (.list (item :: items), s)
    else if b = 123 then
      if (skip s).head? = some 125 then some (.record [], (skip s).tail)
      else do
        let (field, s) ← readField? fuel (skip s)
        let (fields, s) ← readFields? fuel s
        some (.record (field :: fields), s)
    else if b = 110 then if s.take 3 = [117, 108, 108] then some (.null, s.drop 3) else none
    else (readInteger? (b :: s)).map fun (n, s) ↦ (.number n, s)

/-- The items of a list behind one of them, and what stands behind the list. -/
def readItems? : (fuel : Nat) → Bytes → Option (List Value × Bytes)
  | 0, _ => none
  | fuel + 1, s =>
    match skip s with
    | 93 :: s => some ([], s)
    | 44 :: s => do
      let (item, s) ← read? fuel (skip s)
      let (items, s) ← readItems? fuel s
      some (item :: items, s)
    | _ => none

/-- The field that a text starts with. -/
def readField? : (fuel : Nat) → Bytes → Option ((Bytes × Value) × Bytes)
  | 0, _ => none
  | fuel + 1, s =>
    match s with
    | 34 :: s => do
      let (name, s) ← readText? s
      match skip s with
      | 58 :: s => do
        let (value, s) ← read? fuel (skip s)
        some ((name, value), s)
      | _ => none
    | _ => none

/-- The fields of a record behind one of them, and what stands behind the record. -/
def readFields? : (fuel : Nat) → Bytes → Option (List (Bytes × Value) × Bytes)
  | 0, _ => none
  | fuel + 1, s =>
    match skip s with
    | 125 :: s => some ([], s)
    | 44 :: s => do
      let (field, s) ← readField? fuel (skip s)
      let (fields, s) ← readFields? fuel s
      some (field :: fields, s)
    | _ => none

end

/-! ### What is read -/

theorem skip_cons {b : UInt8} (h : isFiller b = false) (s : Bytes) : skip (b :: s) = b :: s :=
  List.dropWhile_cons_of_neg (by simp [h])

/-- A new line is passed over. -/
theorem skip_newline (level : Nat) (s : Bytes) : skip (Document.newline level ++ s) = skip s := by
  refine List.dropWhile_append_of_pos fun b hb ↦ ?_
  rcases List.mem_cons.1 hb with rfl | hb
  · rfl
  · rw [List.eq_of_mem_replicate hb]
    rfl

/-- A number starts with a sign or a digit. -/
theorem exists_signedDecimal_eq (n : Int) :
    ∃ b s, signedDecimal n = b :: s ∧ (b = 45 ∨ isDecimalDigit b = true) := by
  cases n with
  | negSucc n => exact ⟨45, _, rfl, .inl rfl⟩
  | ofNat n =>
    cases h : decimal n with
    | nil => exact absurd h (decimal_ne_nil n)
    | cons b s =>
      exact ⟨b, s, h, .inr (isDecimalDigit_of_mem_decimal (n := n) (by simp [h]))⟩

/-- A document starts neither with a blank nor with the end of a list. -/
theorem exists_render_eq (d : Document) (level : Nat) :
    ∃ b s, d.render level = b :: s ∧ isFiller b = false ∧ b ≠ 93 := by
  cases d with
  | null => exact ⟨110, _, rfl, by decide, by decide⟩
  | number n =>
    obtain ⟨b, s, hn, hb⟩ := exists_signedDecimal_eq n
    refine ⟨b, s, hn, ?_, ?_⟩
    · rw [Bool.eq_false_iff]
      intro hfiller
      simp only [isFiller, Bool.or_eq_true, beq_iff_eq] at hfiller
      rcases hfiller with ((rfl | rfl) | rfl) | rfl <;> exact absurd hb (by decide)
    · rintro rfl
      exact absurd hb (by decide)
  | text s => exact ⟨34, _, rfl, by decide, by decide⟩
  | list items => cases items <;> exact ⟨91, _, rfl, by decide, by decide⟩
  | record fields => cases fields <;> exact ⟨123, _, rfl, by decide, by decide⟩

section Steps

variable {fuel level : Nat} {s more : Bytes} {item value : Document} {name : String}

/-- A document that is written does not start with blanks. -/
theorem skip_render (d : Document) (level : Nat) (s : Bytes) :
    skip (d.render level ++ s) = d.render level ++ s := by
  obtain ⟨b, text, hrender, hb, -⟩ := exists_render_eq d level
  rw [hrender]
  exact skip_cons hb _

/-- A number is read as it was written, if no digit follows. -/
theorem read?_number (n : Int) (hs : ∀ b ∈ s.head?, isDecimalDigit b = false) :
    read? (fuel + 1) (signedDecimal n ++ s) = some (.number n, s) := by
  have hread := readInteger?_signedDecimal n hs
  obtain ⟨b, text, hn, hb⟩ := exists_signedDecimal_eq n
  have hne : ∀ c, ¬ (c = 45 ∨ isDecimalDigit c = true) → b ≠ c := by
    rintro c hc rfl
    exact hc hb
  rw [hn, List.cons_append] at hread ⊢
  rw [read?, if_neg (hne 34 (by decide)), if_neg (hne 91 (by decide)),
    if_neg (hne 123 (by decide)), if_neg (hne 110 (by decide)), hread]
  rfl

/-- A text is read as it was written, with every malformed byte replaced. -/
theorem read?_text (text s : Bytes) :
    read? (fuel + 1) (Document.renderText text ++ s) = some (.text (Utf8.repaired text), s) := by
  obtain ⟨body, hbody, hread⟩ := readText?_renderText text s
  rw [hbody, read?, if_pos rfl, hread]
  rfl

theorem readItems?_close (fuel level : Nat) (s : Bytes) :
    readItems? (fuel + 1) (Document.newline level ++ 93 :: s) = some ([], s) := by
  rw [readItems?, skip_newline, skip_cons (by decide)]
  rfl

theorem readItems?_cons {values : List Value}
    (hitem : read? fuel (item.render level ++ more) = some (item.value, more))
    (hitems : readItems? fuel more = some (values, s)) :
    readItems? (fuel + 1) (44 :: (Document.newline level ++ (item.render level ++ more)))
      = some (item.value :: values, s) := by
  rw [readItems?, skip_cons (by decide)]
  simp only [skip_newline, skip_render, hitem, hitems, Option.bind_eq_bind, Option.bind_some]

/-- A list is read from its first item on. -/
theorem read?_list {values : List Value}
    (hitem : read? fuel (item.render level ++ more) = some (item.value, more))
    (hitems : readItems? fuel more = some (values, s)) :
    read? (fuel + 1) (91 :: (Document.newline level ++ (item.render level ++ more)))
      = some (.list (item.value :: values), s) := by
  obtain ⟨b, text, hrender, -, hclose⟩ := exists_render_eq item level
  have hhead : (item.render level ++ more).head? ≠ some 93 := by simpa [hrender] using hclose
  rw [read?, if_neg (by decide), if_pos rfl, skip_newline, skip_render, if_neg hhead, hitem]
  simp only [hitems, Option.bind_eq_bind, Option.bind_some]

theorem skip_name (name : String) (s : Bytes) :
    skip (Document.renderText (utf8 name) ++ s) = Document.renderText (utf8 name) ++ s :=
  skip_cons (by decide) _

/-- A field is read as its name and its value. -/
theorem readField?_render
    (h : read? fuel (value.render level ++ more) = some (value.value, more)) :
    readField? (fuel + 1)
        (Document.renderText (utf8 name) ++ (utf8 ": " ++ (value.render level ++ more)))
      = some ((Utf8.repaired (utf8 name), value.value), more) := by
  obtain ⟨body, hbody, hread⟩ := readText?_renderText (utf8 name)
    (utf8 ": " ++ (value.render level ++ more))
  have hcolon : skip (utf8 ": " ++ (value.render level ++ more))
      = 58 :: 32 :: (value.render level ++ more) := rfl
  have hblank : skip (32 :: (value.render level ++ more)) = value.render level ++ more :=
    skip_render value level more
  rw [hbody, readField?]
  simp only [hread, hcolon, hblank, h, Option.bind_eq_bind, Option.bind_some]

theorem readFields?_close (fuel level : Nat) (s : Bytes) :
    readFields? (fuel + 1) (Document.newline level ++ 125 :: s) = some ([], s) := by
  rw [readFields?, skip_newline, skip_cons (by decide)]
  rfl

/-- A field of a record is read behind a comma, and then the others. -/
theorem readFields?_cons {fields : List (Bytes × Value)}
    (hvalue : read? fuel (value.render level ++ more) = some (value.value, more))
    (hfields : readFields? (fuel + 1) more = some (fields, s)) :
    readFields? (fuel + 2) (44 :: (Document.newline level ++
        (Document.renderText (utf8 name) ++ (utf8 ": " ++ (value.render level ++ more)))))
      = some ((Utf8.repaired (utf8 name), value.value) :: fields, s) := by
  rw [readFields?, skip_cons (by decide)]
  simp only [skip_newline, skip_name, readField?_render hvalue, hfields, Option.bind_eq_bind,
    Option.bind_some]

/-- A record is read from its first field on. -/
theorem read?_record {fields : List (Bytes × Value)}
    (hvalue : read? fuel (value.render level ++ more) = some (value.value, more))
    (hfields : readFields? (fuel + 1) more = some (fields, s)) :
    read? (fuel + 2) (123 :: (Document.newline level ++
        (Document.renderText (utf8 name) ++ (utf8 ": " ++ (value.render level ++ more)))))
      = some (.record ((Utf8.repaired (utf8 name), value.value) :: fields), s) := by
  rw [read?, if_neg (by decide), if_neg (by decide), if_pos rfl, skip_newline, skip_name,
    if_neg (by simp [Document.renderText]), readField?_render hvalue]
  simp only [hfields, Option.bind_eq_bind, Option.bind_some]

end Steps

/-- Behind an item or a field there is no digit. -/
theorem isDecimalDigit_of_mem_head? (level outer : Nat) (s : Bytes) :
    (∀ items : List Document,
      ∀ b ∈ (Document.renderItems level items ++ (Document.newline outer ++ s)).head?,
        isDecimalDigit b = false) ∧
      ∀ fields : List (String × Document),
        ∀ b ∈ (Document.renderFields level fields ++ (Document.newline outer ++ s)).head?,
          isDecimalDigit b = false := by
  constructor
  · intro items
    cases items <;> rintro b ⟨⟩ <;> decide
  · intro fields
    cases fields <;> rintro b ⟨⟩ <;> decide

mutual

/-- **Documents.** A document is read back, if what stands behind it does not go on with a digit. -/
theorem read?_render (d : Document) {fuel level : Nat} {s : Bytes}
    (hfuel : (d.render level).length ≤ fuel) (hs : ∀ b ∈ s.head?, isDecimalDigit b = false) :
    read? fuel (d.render level ++ s) = some (d.value, s) := by
  obtain ⟨b, text, hrender, -⟩ := exists_render_eq d level
  obtain ⟨fuel, rfl⟩ : ∃ n, fuel = n + 1 := by
    rw [hrender, List.length_cons] at hfuel
    exact Nat.exists_eq_add_of_le' (by omega)
  match d with
  | .null => rfl
  | .number n => exact read?_number n hs
  | .text text => exact read?_text text s
  | .list [] => rfl
  | .list (item :: items) =>
    simp only [Document.render, List.length_append, List.length_cons] at hfuel
    have hrest := (isDecimalDigit_of_mem_head? (level + 1) level (93 :: s)).1 items
    have hitem := @read?_render item fuel (level + 1) _ (by omega) hrest
    have hitems := @readItems?_renderItems items fuel (level + 1) level s (by omega)
    simpa [Document.render, Document.value, valuesOf] using read?_list hitem hitems
  | .record [] => rfl
  | .record ((name, value) :: fields) =>
    simp only [Document.render, List.length_append, List.length_cons] at hfuel
    obtain ⟨fuel, rfl⟩ : ∃ n, fuel = n + 1 := Nat.exists_eq_add_of_le' (by omega)
    have hrest := (isDecimalDigit_of_mem_head? (level + 1) level (125 :: s)).2 fields
    have hvalue := @read?_render value fuel (level + 1) _ (by omega) hrest
    have hfields := @readFields?_renderFields fields (fuel + 1) (level + 1) level s (by omega)
    simpa [Document.render, Document.value, namedValuesOf] using read?_record hvalue hfields

/-- The items of a list are read back, given more nesting than their text is long. -/
theorem readItems?_renderItems (items : List Document) {fuel level outer : Nat} {s : Bytes}
    (hfuel : (Document.renderItems level items).length < fuel) :
    readItems? fuel (Document.renderItems level items ++ (Document.newline outer ++ 93 :: s))
      = some (valuesOf items, s) := by
  obtain ⟨fuel, rfl⟩ : ∃ n, fuel = n + 1 := Nat.exists_eq_add_of_le' (by omega)
  match items with
  | [] => exact readItems?_close fuel outer s
  | item :: items =>
    simp only [Document.renderItems, List.length_append, List.length_cons] at hfuel
    have hrest := (isDecimalDigit_of_mem_head? level outer (93 :: s)).1 items
    have hitem := @read?_render item fuel level _ (by omega) hrest
    have hitems := @readItems?_renderItems items fuel level outer s (by omega)
    simpa [Document.renderItems, valuesOf] using readItems?_cons hitem hitems

/-- The fields of a record are read back, given more nesting than their text is long. -/
theorem readFields?_renderFields (fields : List (String × Document)) {fuel level outer : Nat}
    {s : Bytes} (hfuel : (Document.renderFields level fields).length < fuel) :
    readFields? fuel (Document.renderFields level fields ++ (Document.newline outer ++ 125 :: s))
      = some (namedValuesOf fields, s) := by
  obtain ⟨fuel, rfl⟩ : ∃ n, fuel = n + 1 := Nat.exists_eq_add_of_le' (by omega)
  match fields with
  | [] => exact readFields?_close fuel outer s
  | (name, value) :: fields =>
    simp only [Document.renderFields, List.length_append, List.length_cons] at hfuel
    obtain ⟨fuel, rfl⟩ : ∃ n, fuel = n + 1 := Nat.exists_eq_add_of_le' (by omega)
    have hrest := (isDecimalDigit_of_mem_head? level outer (125 :: s)).2 fields
    have hvalue := @read?_render value fuel level _ (by omega) hrest
    have hfields := @readFields?_renderFields fields (fuel + 1) level outer s (by omega)
    simpa [Document.renderFields, namedValuesOf] using readFields?_cons hvalue hfields

end

end Report

end ColonGap
