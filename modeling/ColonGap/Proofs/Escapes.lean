import ColonGap.Proofs.Extents
import ColonGap.Proofs.Words
import ColonGap.Script.Lexer.Escape

/-!
# Escapes are well-formed on both sides or on neither

The value of a string or template text is read from its bytes, escape by escape. Where a gap falls
into such a text the values differ, but an escape does not reach into a gap, so it is malformed on
both sides or on neither.

The argument is about one text and a tail that starts with a stop: what stands before the tail is
read without regard to it. `Splits` states this for any function that reads texts, because template
texts are read after their line breaks have been normalised and strings are read as they are.
-/

namespace ColonGap

/-- A text that is empty or starts as a stop does: with a byte that is one, or with the lead byte
of a longer sequence. -/
def Stops (s : Bytes) : Prop :=
  ∀ b ∈ s.head?, b.toNat < 0x80 ∧ b.toNat ∈ stopCodes ∨ 0xC2 ≤ b.toNat

theorem stops_nil : Stops [] := by
  simp [Stops]

/-- A character that is a stop stops an escape. -/
theorem stops_of_code {b : UInt8} {rest : Bytes}
    (h : isStopCode (Utf8.ofLead b rest).code = true) : Stops (b :: rest) := by
  intro c hc
  obtain rfl : b = c := by simpa using hc
  have hstop := mem_stopCodes h
  have hreads := Utf8.reads_ofLead b rest
  generalize Utf8.ofLead b rest = c at hreads hstop
  cases hreads with
  | ascii hb => exact .inl ⟨hb, hstop⟩
  | malformed => exact absurd hstop (by decide)
  | two | three | four =>
    right
    omega

/-- What holds of the stops below `0x80` and of all lead bytes holds of the first byte. -/
theorem Stops.head {s : Bytes} (h : Stops s) {p : Nat → Prop}
    (hstop : ∀ c ∈ stopCodes, c < 0x80 → p c) (hlead : ∀ n, 0xC2 ≤ n → p n) :
    ∀ b ∈ s.head?, p b.toNat := by
  intro b hb
  rcases h b hb with ⟨hlt, hb⟩ | hb
  · exact hstop _ hb hlt
  · exact hlead _ hb

/-- What stops an escape may be cut off. -/
theorem Stops.starts {s : Bytes} (h : Stops s) : Utf8.Starts s := by
  have hhead := h.head (p := fun n ↦ n < 0x80 ∨ 0xBF < n) (fun c _ hlt ↦ .inl hlt)
    (fun n hn ↦ .inr (by omega))
  intro b hb
  have hrange := hhead b hb
  rw [Bool.eq_false_iff, ne_eq, Utf8.isTail_iff]
  omega

namespace Script.Escape

variable {s : Bytes}

/-- What stops an escape is no hexadecimal digit. -/
theorem hexValue?_head (h : Stops s) : ∀ b ∈ s.head?, hexValue? b.toNat = none := by
  refine h.head (p := fun n ↦ hexValue? n = none) (by decide) fun n hn ↦ ?_
  have h1 : ¬ n ≤ 57 := by omega
  have h2 : ¬ n ≤ 102 := by omega
  have h3 : ¬ n ≤ 70 := by omega
  simp [hexValue?, h1, h2, h3]

/-- What stops an escape is no other ASCII character. -/
theorem head?_ne (h : Stops s) {n : UInt8} (hn : n.toNat ∉ stopCodes) (hlt : n.toNat < 0xC2) :
    s.head? ≠ some n := by
  intro hs
  have hne := h.head (p := (· ≠ n.toNat)) (by rintro c hc - rfl; exact hn hc) (by intro m hm; omega)
  exact hne n hs rfl

/-! ### One escape -/

/-- A function that resolves the start of a text does so without regard to a tail that stops: it
fails for every such tail, or it leaves a part of the text and the tail. -/
def Resolves (f : Bytes → Resolved) (text : Bytes) : Prop :=
  (∃ units rest, rest <:+ text ∧ ∀ s, Stops s → f (text ++ s) = .ok (units, rest ++ s)) ∨
    ∀ s, Stops s → ∃ cause, f (text ++ s) = .error cause

/-- Digits that are there are read without regard to what follows. -/
theorem hexNumber?_append_of_le {size value : Nat} {text : Bytes} (h : size ≤ text.length)
    (s : Bytes) : hexNumber? size (text ++ s) value = hexNumber? size text value := by
  induction text generalizing size value with
  | nil =>
    obtain rfl : size = 0 := by simpa using h
    rfl
  | cons b text ih =>
    cases size with
    | zero => rfl
    | succ size =>
      simp only [List.cons_append, hexNumber?]
      split
      · exact ih (by simpa using h)
      · rfl

/-- The digits run into the tail. -/
theorem hexNumber?_append_of_lt {size value : Nat} {text : Bytes} (hs : Stops s)
    (h : text.length < size) : hexNumber? size (text ++ s) value = none := by
  induction text generalizing size value with
  | nil =>
    cases size with
    | zero => simp at h
    | succ size =>
      cases s with
      | nil => rfl
      | cons b rest => simp [hexNumber?, hexValue?_head hs b rfl]
  | cons b text ih =>
    cases size with
    | zero => simp at h
    | succ size =>
      simp only [List.cons_append, hexNumber?]
      split
      · exact ih (by simpa using h)
      · rfl

/-- An escape of a fixed number of digits is resolved in its own text, or in no text. -/
theorem resolves_fixed (letter : UInt8) (size : Nat) (text : Bytes) :
    Resolves (fixed letter size) text := by
  by_cases hle : size ≤ text.length
  · cases hnumber : hexNumber? size text 0 with
    | none =>
      refine .inr fun s _ ↦ ?_
      rw [fixed, if_neg (by simp; omega), hexNumber?_append_of_le hle, hnumber]
      exact ⟨_, rfl⟩
    | some value =>
      refine .inl ⟨Utf16.ofCode value, text.drop size, List.drop_suffix _ _, fun s _ ↦ ?_⟩
      rw [fixed, if_neg (by simp; omega), hexNumber?_append_of_le hle, hnumber,
        List.drop_append_of_le_length hle]
  · refine .inr fun s hs ↦ ?_
    rw [fixed]
    split
    · exact ⟨_, rfl⟩
    · rw [hexNumber?_append_of_lt hs (by omega)]
      exact ⟨_, rfl⟩

/-- The digits in braces; `all` is mentioned in errors only. -/
theorem resolves_braced (size value : Nat) (text : Bytes) :
    (∃ units rest, rest <:+ text ∧
        ∀ all s, Stops s → braced all size value (text ++ s) = .ok (units, rest ++ s)) ∨
      ∀ all s, Stops s → ∃ cause, braced all size value (text ++ s) = .error cause := by
  induction text generalizing size value with
  | nil =>
    refine .inr fun all s hs ↦ ?_
    cases s with
    | nil => exact ⟨_, rfl⟩
    | cons b rest =>
      have hne : b ≠ 125 := by
        rintro rfl
        exact head?_ne hs (n := 125) (by decide) (by decide) rfl
      simp [braced, hne, hexValue?_head hs b rfl]
  | cons b text ih =>
    simp only [List.cons_append, braced]
    by_cases hclose : b = 125
    · subst hclose
      by_cases hsize : size = 0
      · exact .inr fun all s _ ↦ ⟨.emptyEscape 117, by simp [hsize]⟩
      · exact .inl ⟨Utf16.ofCode value, text, List.suffix_cons _ _, fun all s _ ↦ by simp [hsize]⟩
    · have hne : (b == 125) = false := by simpa using hclose
      simp only [hne, Bool.false_eq_true, if_false]
      cases hexValue? b.toNat with
      | none => exact .inr fun all s _ ↦ ⟨_, rfl⟩
      | some d =>
        dsimp only
        by_cases hbig : 0x10FFFF < value * 16 + d
        · simp only [hbig, if_true]
          exact .inr fun all s _ ↦ ⟨_, rfl⟩
        · simp only [hbig, if_false]
          obtain ⟨units, rest, hrest, hok⟩ | hbad := ih (size + 1) (value * 16 + d)
          · exact .inl ⟨units, rest, hrest.trans (List.suffix_cons _ _), hok⟩
          · exact .inr hbad

/-- What stops an escape is no octal digit. -/
theorem not_octal_head (hs : Stops s) : startsOctal s = false := by
  cases s with
  | nil => rfl
  | cons b rest =>
    have hb := hs.head (p := fun n ↦ n < 48 ∨ 55 < n) (by decide) (fun n hn ↦ by omega) b rfl
    simp only [startsOctal, Bool.and_eq_false_iff, decide_eq_false_iff_not, UInt8.le_iff_toNat_le,
      UInt8.reduceToNat]
    omega

/-- An octal escape ends in its own text. -/
theorem octal_append (hs : Stops s) (value left : Nat) (text : Bytes) :
    octal value left (text ++ s) = ((octal value left text).1, (octal value left text).2 ++ s) := by
  induction text generalizing value left with
  | nil =>
    cases s with
    | nil => cases left <;> simp [octal]
    | cons b rest =>
      have hb := not_octal_head hs
      simp only [startsOctal] at hb
      cases left with
      | zero => simp [octal]
      | succ left =>
        rw [List.nil_append, octal, hb]
        simp [octal]
  | cons b text ih =>
    cases left with
    | zero => simp [octal]
    | succ left =>
      simp only [List.cons_append, octal]
      split
      · exact ih _ _
      · rfl

/-- An octal escape leaves an end of the text. -/
theorem octal_suffix (value left : Nat) (text : Bytes) : (octal value left text).2 <:+ text := by
  induction text generalizing value left with
  | nil => cases left <;> exact List.suffix_rfl
  | cons b text ih =>
    cases left with
    | zero => exact List.suffix_rfl
    | succ left =>
      rw [octal]
      split
      · exact (ih _ _).trans (List.suffix_cons _ _)
      · exact List.suffix_rfl

/-- Whether an octal digit follows is seen in the text itself. -/
theorem startsOctal_append (hs : Stops s) (text : Bytes) :
    startsOctal (text ++ s) = startsOctal text := by
  cases text with
  | nil => exact not_octal_head hs
  | cons b text => rfl

/-- What follows a `u` behind a backslash. -/
def unicode (text : Bytes) : Resolved :=
  match text with
  | 123 :: digits => braced digits 0 0 digits
  | _ => fixed 117 4 text

/-- Without a brace a code point has four digits. -/
theorem unicode_of_head?_ne {text : Bytes} (h : text.head? ≠ some 123) :
    unicode text = fixed 117 4 text := by
  unfold unicode
  split
  · simp at h
  · rfl

/-- An escape of a code point is resolved in its own text, or in no text. -/
theorem resolves_unicode (text : Bytes) : Resolves unicode text := by
  have hfixed : (∀ s, Stops s → (text ++ s).head? ≠ some 123) → Resolves unicode text := by
    intro hne
    obtain ⟨units, rest, hrest, hok⟩ | hbad := resolves_fixed 117 4 text
    · refine .inl ⟨units, rest, hrest, fun s hs ↦ ?_⟩
      rw [unicode_of_head?_ne (hne s hs), hok s hs]
    · refine .inr fun s hs ↦ ?_
      rw [unicode_of_head?_ne (hne s hs)]
      exact hbad s hs
  match text with
  | [] => exact hfixed fun s hs ↦ head?_ne hs (by decide) (by decide)
  | b :: text =>
    by_cases hb : b = 123
    · subst hb
      obtain ⟨units, rest, hrest, hok⟩ | hbad := resolves_braced 0 0 text
      · exact .inl ⟨units, rest, hrest.trans (List.suffix_cons _ _), fun s hs ↦ hok _ s hs⟩
      · exact .inr fun s hs ↦ hbad _ s hs
    · exact hfixed fun s _ ↦ by simpa using hb

/-- What follows a carriage return behind a backslash. -/
def returned (text : Bytes) : Resolved :=
  match text with
  | 10 :: rest => .ok ([], rest)
  | _ => .ok ([], text)

/-- A line that is continued behind a carriage return alone leaves all that follows. -/
theorem returned_of_head?_ne {text : Bytes} (h : text.head? ≠ some 10) :
    returned text = .ok ([], text) := by
  unfold returned
  split
  · simp at h
  · rfl

/-- A line that is continued is resolved in its own text. -/
theorem resolves_returned (text : Bytes) : Resolves returned text := by
  match text with
  | [] =>
    refine .inl ⟨[], [], List.suffix_rfl, fun s hs ↦ ?_⟩
    exact returned_of_head?_ne (head?_ne hs (by decide) (by decide))
  | b :: text =>
    by_cases hb : b = 10
    · subst hb
      exact .inl ⟨[], text, List.suffix_cons _ _, fun s _ ↦ rfl⟩
    · refine .inl ⟨[], b :: text, List.suffix_rfl, fun s _ ↦ ?_⟩
      exact returned_of_head?_ne (by simpa using hb)

/-- A digit behind a backslash, or a character that stands for itself. -/
def plain (strict : Bool) (b : UInt8) (text : Bytes) : Resolved :=
  if 48 ≤ b && b ≤ 55 && (b != 48 || startsOctal text) then
    if strict then .error .octalEscape
    else .ok (Utf16.ofCode (octal (b.toNat - 48) 2 text).1, (octal (b.toNat - 48) 2 text).2)
  else if b == 48 then .ok ([0], text)
  else .ok ([b.toUInt16], text)

/-- An escape that is not special is resolved in its own text. -/
theorem resolves_plain (strict : Bool) (b : UInt8) (text : Bytes) :
    Resolves (plain strict b) text := by
  by_cases hoctal : 48 ≤ b && b ≤ 55 && (b != 48 || startsOctal text)
  · cases strict with
    | true =>
      refine .inr fun s hs ↦ ⟨.octalEscape, ?_⟩
      rw [plain, startsOctal_append hs, if_pos hoctal]
      rfl
    | false =>
      refine .inl ⟨Utf16.ofCode (octal (b.toNat - 48) 2 text).1, _,
        octal_suffix (b.toNat - 48) 2 text, fun s hs ↦ ?_⟩
      rw [plain, startsOctal_append hs, if_pos hoctal, octal_append hs]
      rfl
  · by_cases hzero : b == 48
    · refine .inl ⟨[0], text, List.suffix_rfl, fun s hs ↦ ?_⟩
      rw [plain, startsOctal_append hs, if_neg hoctal, if_pos hzero]
    · refine .inl ⟨[b.toUInt16], text, List.suffix_rfl, fun s hs ↦ ?_⟩
      rw [plain, startsOctal_append hs, if_neg hoctal, if_neg hzero]

/-- The letters behind a backslash that stand for one character each, or for none. -/
def letters : List UInt8 :=
  [98, 102, 110, 114, 116, 118, 10]

/-- The ways to read an escape that starts with a byte below `0x80`. -/
theorem resolve_cases (strict : Bool) {b : UInt8} (hb : ¬ 0x80 ≤ b) :
    (∃ units, ∀ text, resolve strict (b :: text) = .ok (units, text)) ∨
      (∀ text, resolve strict (b :: text) = fixed 120 2 text) ∨
      (∀ text, resolve strict (b :: text) = unicode text) ∨
      (∀ text, resolve strict (b :: text) = returned text) ∨
      ∀ text, resolve strict (b :: text) = plain strict b text := by
  by_cases hletter : b ∈ letters
  · left
    simp only [letters, List.mem_cons, List.not_mem_nil, or_false] at hletter
    rcases hletter with rfl | rfl | rfl | rfl | rfl | rfl | rfl <;> exact ⟨_, fun text ↦ rfl⟩
  by_cases hx : b = 120
  · subst hx
    exact .inr (.inl fun text ↦ rfl)
  by_cases hu : b = 117
  · subst hu
    exact .inr (.inr (.inl fun text ↦ rfl))
  by_cases hreturn : b = 13
  · subst hreturn
    exact .inr (.inr (.inr (.inl fun text ↦ rfl)))
  · refine .inr (.inr (.inr (.inr fun text ↦ ?_)))
    simp only [letters, List.mem_cons, List.not_mem_nil, or_false, not_or] at hletter
    unfold resolve
    simp only [hb, if_false]
    split
    all_goals first
      | rfl
      | (exfalso; simp_all)

/-- The escape behind a backslash is read without regard to the tail, if there is one at all. -/
theorem resolves_resolve (strict : Bool) {text : Bytes} (htext : text ≠ []) :
    Resolves (resolve strict) text := by
  match text, htext with
  | b :: text, _ =>
    have hinside : ∀ f : Bytes → Resolved, Resolves f text →
        (∀ text, resolve strict (b :: text) = f text) → Resolves (resolve strict) (b :: text) := by
      rintro f (⟨units, rest, hrest, hok⟩ | hbad) heq
      · refine .inl ⟨units, rest, hrest.trans (List.suffix_cons _ _), fun s hs ↦ ?_⟩
        rw [List.cons_append, heq, hok s hs]
      · refine .inr fun s hs ↦ ?_
        rw [List.cons_append, heq]
        exact hbad s hs
    by_cases hhigh : 0x80 ≤ b
    · -- A character beyond ASCII stands for itself, unless it is a line break.
      have hle := Utf8.width_ofLead_le b text
      have hunfold : ∀ s, Stops s → resolve strict (b :: text ++ s)
          = .ok (if (Utf8.ofLead b text).code == 0x2028 || (Utf8.ofLead b text).code == 0x2029
              then [] else Utf16.ofCode (Utf8.ofLead b text).code,
            text.drop ((Utf8.ofLead b text).width - 1) ++ s) := by
        intro s hs
        unfold resolve
        simp only [List.cons_append, hhigh, if_true, Utf8.ofLead_append hs.starts,
          List.drop_append_of_le_length (show (Utf8.ofLead b text).width - 1 ≤ text.length by omega)]
        split <;> simp_all
      exact .inl ⟨_, _, (List.drop_suffix _ _).trans (List.suffix_cons _ _), hunfold⟩
    · obtain ⟨units, h⟩ | h | h | h | h := resolve_cases strict hhigh
      · exact hinside (fun text ↦ .ok (units, text))
          (.inl ⟨units, text, List.suffix_rfl, fun s _ ↦ rfl⟩) h
      · exact hinside _ (resolves_fixed 120 2 text) h
      · exact hinside _ (resolves_unicode text) h
      · exact hinside _ (resolves_returned text) h
      · exact hinside _ (resolves_plain strict b text) h

/-! ### Whole texts -/

/-- An escape leaves no more than it was given. -/
theorem length_of_resolve {strict : Bool} {text rest : Bytes} {units : List UInt16}
    (h : resolve strict text = .ok (units, rest)) : rest.length ≤ text.length := by
  by_cases htext : text = []
  · subst htext
    simp only [resolve, Except.ok.injEq, Prod.mk.injEq] at h
    simp [← h.2]
  · obtain ⟨units', rest', hrest, hok⟩ | hbad := resolves_resolve strict htext
    · have heq := hok [] stops_nil
      rw [List.append_nil, List.append_nil, h] at heq
      simp only [Except.ok.injEq, Prod.mk.injEq] at heq
      rw [heq.2]
      exact hrest.length_le
    · obtain ⟨cause, hcause⟩ := hbad [] stops_nil
      rw [List.append_nil, h] at hcause
      simp at hcause

/-- More steps than bytes change nothing. -/
theorem unitsWith_eq (strict : Bool) {fuel : Nat} {text : Bytes} (h : text.length ≤ fuel) :
    unitsWith strict fuel text = units strict text := by
  rw [units]
  induction hn : text.length using Nat.strongRecOn generalizing text fuel with
  | ind n ih =>
    match text, fuel with
    | [], 0 | [], fuel + 1 => simp [unitsWith, ← hn]
    | b :: text, 0 => simp at h
    | b :: text, fuel + 1 =>
      rw [← hn]
      simp only [List.length_cons, unitsWith] at h hn ⊢
      -- Whatever is left is read with enough steps on both sides.
      have hrest : ∀ rest : Bytes, rest.length ≤ text.length →
          unitsWith strict fuel rest = unitsWith strict text.length rest := by
        intro rest hle
        rw [ih rest.length (by omega) (by omega) rfl, ih rest.length (by omega) hle rfl]
      split
      · cases hresolve : resolve strict text with
        | error cause => rfl
        | ok found => simp only [hrest _ (length_of_resolve hresolve)]
      · rw [hrest _ (by rw [List.length_drop]; omega)]

/-- A text with an escape has its units, followed by those of the rest, if it is well-formed. -/
theorem units_escape (strict : Bool) (text : Bytes) :
    units strict (92 :: text)
      = match resolve strict text with
        | .error cause => .error cause
        | .ok (found, rest) => (units strict rest).map (found ++ ·) := by
  rw [units, List.length_cons, unitsWith]
  simp only [beq_self_eq_true, if_true]
  cases hresolve : resolve strict text with
  | error cause => rfl
  | ok found => simp only [unitsWith_eq strict (length_of_resolve hresolve)]

/-- A character that is no escape has its units, followed by those of the rest. -/
theorem units_cons (strict : Bool) {b : UInt8} (hb : b ≠ 92) (text : Bytes) :
    units strict (b :: text)
      = (units strict (text.drop ((Utf8.ofLead b text).width - 1))).map
          (Utf16.ofCode (Utf8.ofLead b text).code ++ ·) := by
  have hne : (b == 92) = false := by simpa using hb
  rw [units, List.length_cons, unitsWith]
  simp only [hne, Bool.false_eq_true, if_false]
  rw [unitsWith_eq strict (by rw [List.length_drop]; omega)]

/-- A function that gives the units of texts reads what stands before a tail that stops without
regard to the tail, unless it ends with a backslash. -/
def Splits (F : Bytes → Except Cause (List UInt16)) : Prop :=
  ∀ text : Bytes, text.getLast? ≠ some 92 →
    (∃ found, ∀ s, Stops s → F (text ++ s) = (F s).map (found ++ ·)) ∨
      ∀ s, Stops s → ∃ cause, F (text ++ s) = .error cause

/-- An end of a text does not end in a backslash if the text does not. -/
theorem getLast?_of_suffix {text rest : Bytes} (h : rest <:+ text) (hlast : text.getLast? ≠ some 92) :
    rest.getLast? ≠ some 92 := by
  obtain ⟨front, rfl⟩ := h
  intro hrest
  rw [List.getLast?_append, hrest] at hlast
  exact hlast rfl

theorem map_map_append (e : Except Cause (List UInt16)) (xs ys : List UInt16) :
    (e.map (ys ++ ·)).map (xs ++ ·) = e.map (xs ++ ys ++ ·) := by
  cases e <;> simp [Except.map]

/-- The value of a string is read up to a stop without regard to what follows. -/
theorem splits_units (strict : Bool) : Splits (units strict) := by
  intro text
  induction hn : text.length using Nat.strongRecOn generalizing text with
  | ind n ih =>
    intro hlast
    match text with
    | [] =>
      refine .inl ⟨[], fun s _ ↦ ?_⟩
      rw [List.nil_append]
      cases units strict s <;> rfl
    | b :: text =>
      have hgo : ∀ rest, rest <:+ text → ∀ units',
          (∀ s, Stops s →
            units strict (b :: text ++ s) = (units strict (rest ++ s)).map (units' ++ ·)) →
          (∃ found, ∀ s, Stops s →
            units strict (b :: text ++ s) = (units strict s).map (found ++ ·)) ∨
          ∀ s, Stops s → ∃ cause, units strict (b :: text ++ s) = .error cause := by
        intro rest hrest units' heq
        have hlength := hrest.length_le
        rw [List.length_cons] at hn
        obtain ⟨found, hok⟩ | hbad := ih rest.length (by omega) rest rfl
          (getLast?_of_suffix (hrest.trans (List.suffix_cons _ _)) hlast)
        · refine .inl ⟨units' ++ found, fun s hs ↦ ?_⟩
          rw [heq s hs, hok s hs, map_map_append]
        · refine .inr fun s hs ↦ ?_
          obtain ⟨cause, hcause⟩ := hbad s hs
          exact ⟨cause, by rw [heq s hs, hcause]; rfl⟩
      by_cases hb : b = 92
      · subst hb
        have htext : text ≠ [] := by
          rintro rfl
          simp at hlast
        obtain ⟨units', rest, hrest, hok⟩ | hbad := resolves_resolve strict htext
        · refine hgo rest hrest units' fun s hs ↦ ?_
          rw [List.cons_append, units_escape, hok s hs]
        · refine .inr fun s hs ↦ ?_
          obtain ⟨cause, hcause⟩ := hbad s hs
          exact ⟨cause, by rw [List.cons_append, units_escape, hcause]⟩
      · have hle := Utf8.width_ofLead_le b text
        refine hgo _ (List.drop_suffix ((Utf8.ofLead b text).width - 1) text)
          (Utf16.ofCode (Utf8.ofLead b text).code) fun s hs ↦ ?_
        rw [List.cons_append, units_cons strict hb, Utf8.ofLead_append hs.starts,
          List.drop_append_of_le_length (by omega)]

/-- Without a backslash there is nothing that could be malformed. -/
theorem exists_units (strict : Bool) {text : Bytes} (h : 92 ∉ text) :
    ∃ found, units strict text = .ok found := by
  induction text using Utf8.glyph_induction with
  | nil => exact ⟨[], rfl⟩
  | cons b rest ih =>
    rw [List.mem_cons, not_or] at h
    obtain ⟨found, hfound⟩ := ih fun hmem ↦ h.2 (List.mem_of_mem_drop hmem)
    rw [units_cons strict (Ne.symm h.1), hfound]
    exact ⟨_, rfl⟩

theorem units_ascii (strict : Bool) {b : UInt8} (hb : b < 0x80) (hne : b ≠ 92) (s : Bytes) :
    units strict (b :: s) = (units strict s).map (Utf16.ofCode b.toNat ++ ·) := by
  rw [units_cons strict hne, Utf8.ofLead_of_lt hb]
  rfl

/-! ### Normalised line breaks -/

theorem normalizeBreaks_cons {b : UInt8} (hb : b ≠ 13) (text : Bytes) :
    normalizeBreaks (b :: text) = b :: normalizeBreaks text := by
  rw [normalizeBreaks]
  all_goals simp_all

/-- Normalising line breaks changes the first byte only if it is a carriage return. -/
theorem head?_normalizeBreaks {text : Bytes} (h : text.head? ≠ some 13) :
    (normalizeBreaks text).head? = text.head? := by
  cases text with
  | nil => rfl
  | cons b text => rw [normalizeBreaks_cons (by simpa using h)]; rfl

theorem stops_normalizeBreaks {s : Bytes} (h : Stops s) : Stops (normalizeBreaks s) := by
  rw [Stops, head?_normalizeBreaks (head?_ne h (by decide) (by decide))]
  exact h

/-- Normalising line breaks brings in nothing but line feeds. -/
theorem mem_normalizeBreaks {text : Bytes} {b : UInt8} (h : b ∈ normalizeBreaks text) :
    b ∈ text ∨ b = 10 := by
  fun_induction normalizeBreaks text with
  | case1 => simp at h
  | case2 rest ih | case3 rest _ ih | case4 c rest _ _ ih =>
    rw [List.mem_cons] at h
    rcases h with rfl | h
    · simp
    · rcases ih h with hmem | rfl <;> simp_all

/-- Line breaks are normalised in two parts, if no line feed starts the second. -/
theorem normalizeBreaks_append {text s : Bytes} (hs : s.head? ≠ some 10) :
    normalizeBreaks (text ++ s) = normalizeBreaks text ++ normalizeBreaks s := by
  fun_induction normalizeBreaks text with
  | case1 => rfl
  | case2 rest ih => rw [List.cons_append, List.cons_append, normalizeBreaks, ih]; rfl
  | case3 rest hne ih =>
    rw [List.cons_append, List.cons_append, ← ih]
    cases rest with
    | nil =>
      cases s with
      | nil => rfl
      | cons c s =>
        rw [List.nil_append, normalizeBreaks]
        simpa using hs
    | cons c rest =>
      rw [List.cons_append, normalizeBreaks]
      intro tail htail
      exact hne rest (by simp_all)
  | case4 c rest _ hne ih =>
    rw [List.cons_append, List.cons_append, normalizeBreaks_cons _, ih]
    rintro rfl
    simp_all

/-- Only the empty text has nothing left when its line breaks are normalised. -/
theorem eq_nil_of_normalizeBreaks {text : Bytes} (h : normalizeBreaks text = []) : text = [] := by
  fun_cases normalizeBreaks text with
  | case1 => rfl
  | case2 rest | case3 rest | case4 c rest => simp_all [normalizeBreaks]

/-- A text that ends in a backslash when normalised ended in it before. -/
theorem getLast?_normalizeBreaks {text : Bytes} (h : (normalizeBreaks text).getLast? = some 92) :
    text.getLast? = some 92 := by
  have hcons : ∀ {b : UInt8} {rest : Bytes}, b ≠ 92 → (b :: rest).getLast? = some 92 →
      rest.getLast? = some 92 := by
    intro b rest hb hlast
    cases hrest : rest.getLast? with
    | none => simp_all [List.getLast?_cons]
    | some c => simpa [List.getLast?_cons, hrest] using hlast
  fun_induction normalizeBreaks text with
  | case1 => exact h
  | case2 rest ih => simp [List.getLast?_cons, ih (hcons (by decide) h)]
  | case3 rest _ ih => simp [List.getLast?_cons, ih (hcons (by decide) h)]
  | case4 c rest _ _ ih =>
    by_cases hc : c = 92
    · cases hrest : rest.getLast? with
      | none => simp [List.getLast?_cons, hrest, hc]
      | some d =>
        have hd : (normalizeBreaks rest).getLast? = some 92 := by
          cases hnormal : (normalizeBreaks rest).getLast? with
          | none =>
            rw [List.getLast?_eq_none_iff] at hnormal
            simp [eq_nil_of_normalizeBreaks hnormal] at hrest
          | some e => simpa [List.getLast?_cons, hnormal] using h
        simp [List.getLast?_cons, ih hd]
    · simp [List.getLast?_cons, ih (hcons hc h)]

/-- The value of template text is read up to a stop without regard to what follows. -/
theorem splits_normalized (strict : Bool) : Splits fun s ↦ units strict (normalizeBreaks s) := by
  intro text hlast
  have happend : ∀ s, Stops s → units strict (normalizeBreaks (text ++ s))
      = units strict (normalizeBreaks text ++ normalizeBreaks s) := by
    intro s hs
    rw [normalizeBreaks_append (head?_ne hs (by decide) (by decide))]
  have hlast' : (normalizeBreaks text).getLast? ≠ some 92 := fun h ↦
    hlast (getLast?_normalizeBreaks h)
  obtain ⟨found, hok⟩ | hbad := splits_units strict (normalizeBreaks text) hlast'
  · refine .inl ⟨found, fun s hs ↦ ?_⟩
    exact (happend s hs).trans (hok _ (stops_normalizeBreaks hs))
  · refine .inr fun s hs ↦ ?_
    obtain ⟨cause, hcause⟩ := hbad _ (stops_normalizeBreaks hs)
    exact ⟨cause, (happend s hs).trans hcause⟩

/-! ### Both sides -/

/-- What is needed of a function that gives the units of texts: it splits, it does not fail
without a backslash, and it takes a colon or a slash for itself. -/
structure Reading (F : Bytes → Except Cause (List UInt16)) : Prop where
  splits : Splits F
  ok : ∀ text : Bytes, 92 ∉ text → ∃ found, F text = .ok found
  mark : ∀ b : UInt8, b = 58 ∨ b = 47 → ∀ s, F (b :: s) = (F s).map ([b.toUInt16] ++ ·)

/-- The value of a string is malformed on both sides or on neither. -/
theorem reading_units (strict : Bool) : Reading (units strict) where
  splits := splits_units strict
  ok _ := exists_units strict
  mark := by
    rintro b (rfl | rfl) s <;> exact units_ascii strict (by decide) (by decide) s

/-- The value of template text is malformed on both sides or on neither. -/
theorem reading_normalized (strict : Bool) : Reading fun s ↦ units strict (normalizeBreaks s) where
  splits := splits_normalized strict
  ok text h := by
    refine exists_units strict fun hmem ↦ ?_
    rcases mem_normalizeBreaks hmem with hmem | hmem
    · exact h hmem
    · simp at hmem
  mark := by
    rintro b (rfl | rfl) s <;>
      exact (congrArg _ (normalizeBreaks_cons (by decide) s)).trans
        (units_ascii strict (by decide) (by decide) _)

end Script.Escape

namespace Script.Escape

open Piece

/-- Where a gap starts, both texts have a stop. -/
theorem stops_text {ps : List Piece} (hvalid : Valid ps)
    (hcut : ∀ i, Utf8.glyphs (text i ps) = glyphs i ps) (hgap : startsGap ps = true) (i : Side) :
    Stops (text i ps) := by
  obtain ⟨g, gs, hgs, hstop⟩ := hvalid.exists_stop hgap i
  have hcut' := hcut i
  rw [text, hgs] at hcut' ⊢
  obtain ⟨b, tails, hbytes, -, hread, -⟩ := Utf8.exists_bytes_of_cut hcut'
  rw [List.flatMap_cons, hbytes, List.cons_append]
  refine stops_of_code ?_
  rw [hread]
  exact hstop

theorem cut_of_append {ps qs : List Piece}
    (h : ∀ i, Utf8.glyphs (text i (ps ++ qs)) = glyphs i (ps ++ qs)) (i : Side) :
    Utf8.glyphs (text i qs) = glyphs i qs := by
  refine @Utf8.glyphs_flatMap_of_append (text i (ps ++ qs)) (glyphs i ps) _ ?_
  rw [h, Piece.glyphs_append]

/-- What a reading gives for blanks before a colon or slash. -/
theorem Reading.blanks {F : Bytes → Except Cause (List UInt16)} (hF : Reading F) {blanks : Bytes}
    (h : 92 ∉ blanks) {b : UInt8} (hb : b = 58 ∨ b = 47) :
    ∃ found, ∀ s, F (blanks ++ b :: s) = (F s).map (found ++ b.toUInt16 :: ·) := by
  have hstops : ∀ s, Stops (b :: s) := by
    intro s c hc
    obtain rfl : b = c := by simpa using hc
    rcases hb with rfl | rfl <;> exact .inl (by decide)
  obtain ⟨found, hok⟩ | hbad := hF.splits blanks fun hlast ↦ h (List.mem_of_getLast? hlast)
  · refine ⟨found, fun s ↦ ?_⟩
    rw [hok _ (hstops s), hF.mark b hb, Script.Escape.map_map_append]
    congr 1
    funext xs
    simp
  · obtain ⟨found, hfound⟩ := hF.ok blanks h
    obtain ⟨cause, hcause⟩ := hbad [] stops_nil
    rw [List.append_nil, hfound] at hcause
    simp at hcause

/-- **Escapes on both sides.** The units of the two texts are both there or both not, and if the
texts differ at a gap then they show the colon or slash behind it. -/
theorem Reading.agree {F : Bytes → Except Cause (List UInt16)} (hF : Reading F) {ps : List Piece}
    (hvalid : Valid ps) (hcut : ∀ i, Utf8.glyphs (text i ps) = glyphs i ps) :
    (∀ i, ∃ found, F (text i ps) = .ok found ∧
        (isRigid ps = true ∨ (58 : UInt16) ∈ found ∨ (47 : UInt16) ∈ found)) ∨
      ∀ i, ∃ cause, F (text i ps) = .error cause := by
  induction hn : ps.length using Nat.strongRecOn generalizing ps with
  | ind n ih =>
    obtain ⟨gs, qs, rfl, rfl | hqs⟩ := exists_front ps
    · cases hfound : F (gs.flatMap Glyph.bytes) with
      | error cause => exact .inr fun i ↦ ⟨cause, by simpa using hfound⟩
      | ok found => exact .inl fun i ↦ ⟨found, by simpa using hfound, by simp⟩
    match qs, hqs, hvalid.of_append with
    | gap blanks :: qs, hqs, ⟨hfill, ⟨c, rest, hrest, hc⟩, hvalid'⟩ =>
      subst hrest
      have hmem : ∀ i, ∀ g ∈ glyphs i (gs.map same ++ gap blanks :: same c :: rest),
          g ∈ Utf8.glyphs (text i (gs.map same ++ gap blanks :: same c :: rest)) := by
        intro i g hg
        rwa [hcut i]
      have hbyte : c.bytes = [c.code.toUInt8] :=
        Utf8.bytes_of_code_lt (hmem .old c (by simp)) (by omega)
      have hmark : c.code.toUInt8 = 58 ∨ c.code.toUInt8 = 47 := by
        rcases hc with hc | hc <;> simp [hc]
      -- What stands before the gap does not end with a backslash, and the blanks hold none.
      have hlast : (gs.flatMap Glyph.bytes).getLast? ≠ some 92 := by
        intro h
        rcases List.eq_nil_or_concat gs with rfl | ⟨front, g, rfl⟩
        · simp at h
        · have hg := hmem .old g (by simp)
          have hmay := hvalid.mayPrecede hqs g (by simp)
          simp only [ColonGap.mayPrecede, Bool.and_eq_true, bne_iff_ne] at hmay
          obtain ⟨b, tails, hbytes, -⟩ := Utf8.exists_bytes_of_mem_glyphs hg
          refine Utf8.notMem_bytes hg (n := 92) (by decide) hmay.2 ?_
          rw [List.concat_eq_append, List.flatMap_append, List.getLast?_append,
            List.flatMap_singleton] at h
          rw [hbytes] at h ⊢
          refine List.mem_of_getLast? ?_
          simpa [List.getLast?_cons] using h
      have hblanks : ∀ i, (92 : UInt8) ∉ (blanks i).flatMap Glyph.bytes := by
        intro i h
        obtain ⟨g, hg, hg'⟩ := List.mem_flatMap.1 h
        exact Utf8.notMem_bytes (hmem i g (by simp [hg])) (by decide)
          (Glyph.code_ne_of_isFiller (hfill i g hg) (by decide)) hg'
      have hbehind : ∀ i, ∃ found, F (text i (gap blanks :: same c :: rest))
          = (F (text i rest)).map (found ++ c.code.toUInt8.toUInt16 :: ·) := by
        intro i
        obtain ⟨found, hfound⟩ := hF.blanks (hblanks i) hmark
        exact ⟨found, by simpa [hbyte] using hfound (text i rest)⟩
      have hcut' := cut_of_append hcut
      have hstops := stops_text hvalid.of_append hcut' hqs
      obtain ⟨front, hfront⟩ | hbad := hF.splits _ hlast
      · have hwhole : ∀ i, ∃ found,
            F (text i (gs.map same ++ gap blanks :: same c :: rest))
              = (F (text i rest)).map (found ++ c.code.toUInt8.toUInt16 :: ·) := by
          intro i
          obtain ⟨found, hfound⟩ := hbehind i
          refine ⟨front ++ found, ?_⟩
          rw [text_append, text_map_same, hfront _ (hstops i), hfound]
          cases F (text i rest) <;> simp [Except.map]
        have hlength : rest.length < n := by
          simp only [List.length_append, List.length_cons] at hn
          omega
        have hrest : ∀ i, Utf8.glyphs (text i rest) = glyphs i rest :=
          @cut_of_append [gap blanks, same c] rest hcut'
        rcases ih rest.length hlength hvalid'.2 hrest rfl with hok | hbad
        · refine .inl fun i ↦ ?_
          obtain ⟨found, hfound⟩ := hwhole i
          obtain ⟨last, hlast, -⟩ := hok i
          refine ⟨_, by rw [hfound, hlast]; rfl, .inr ?_⟩
          rcases hc with hc | hc <;> simp [hc]
        · refine .inr fun i ↦ ?_
          obtain ⟨found, hfound⟩ := hwhole i
          obtain ⟨cause, hcause⟩ := hbad i
          exact ⟨cause, by rw [hfound, hcause]; rfl⟩
      · refine .inr fun i ↦ ?_
        obtain ⟨cause, hcause⟩ := hbad _ (hstops i)
        exact ⟨cause, by rwa [text_append, text_map_same]⟩

end Script.Escape

end ColonGap
