import ColonGap.Proofs.Blanks
import ColonGap.Proofs.Trivia
import Mathlib.Data.List.DropRight
import Mathlib.Tactic.IntervalCases

/-!
# The grammar of what stands before a colon

What may stand between a key and its colon is said here without a scanner: a text of *items*, each a
blank written in UTF-8, a closing bracket or parenthesis, a line comment that a line break follows,
or a block comment. Whether a piece of text is an item depends on what stands behind it, because a
line comment has to reach up to a line break (`IsItem`).

The search accepts this grammar and nothing else (`findColon_grammar`), and a text is cut into items
in one way only, so the colon and the end of the last bracket are determined by the text.

## Where a comment ends

A comment goes up to the *first* place at which its end starts. `UpTo` says this for both kinds of
comments, and one lemma (`upTo_iff`) turns it into the two searches of the scanner, which have the
same recursion.
-/

namespace ColonGap

namespace Gap

/-! ### The first place -/

/-- `body` goes up to the first place of `body ++ rest` at which a text with the property `P`
starts. -/
structure UpTo (P : Bytes → Prop) (body rest : Bytes) : Prop where
  here : P rest
  first : ∀ i < body.length, ¬ P ((body ++ rest).drop i)

theorem upTo_nil {P : Bytes → Prop} {rest : Bytes} : UpTo P [] rest ↔ P rest :=
  ⟨fun h ↦ h.here, fun h ↦ ⟨h, by simp⟩⟩

/-- A byte lies before the first such place if the condition does not hold at it. -/
theorem upTo_cons {P : Bytes → Prop} {b : UInt8} {body rest : Bytes} :
    UpTo P (b :: body) rest ↔ ¬ P (b :: (body ++ rest)) ∧ UpTo P body rest := by
  constructor
  · intro h
    refine ⟨h.first 0 (by simp), h.here, fun i hi ↦ ?_⟩
    simpa using h.first (i + 1) (by simpa using hi)
  · rintro ⟨hb, h⟩
    refine ⟨h.here, fun i hi ↦ ?_⟩
    cases i with
    | zero => simpa using hb
    | succ i => simpa using h.first i (by simpa using hi)

/-- A search that tries one place after the other finds the first. -/
theorem upTo_iff {test : Bytes → Bool} {search : Bytes → Option Nat}
    (hnil : search [] = if test [] then some 0 else none)
    (hcons : ∀ b rest, search (b :: rest)
      = if test (b :: rest) then some 0 else (search rest).map (· + 1)) {s : Bytes} {n : Nat} :
    search s = some n ↔
      ∃ body rest, s = body ++ rest ∧ body.length = n ∧ UpTo (fun t ↦ test t = true) body rest := by
  induction s generalizing n with
  | nil =>
    rw [hnil]
    constructor
    · intro h
      split at h
      case isTrue htest =>
        obtain rfl := Option.some.inj h
        exact ⟨[], [], rfl, rfl, upTo_nil.2 htest⟩
      case isFalse => cases h
    · rintro ⟨body, rest, hs, rfl, h⟩
      obtain ⟨rfl, rfl⟩ := List.append_eq_nil_iff.1 hs.symm
      rw [if_pos (upTo_nil.1 h)]
      rfl
  | cons b s ih =>
    rw [hcons]
    by_cases htest : test (b :: s) = true
    · rw [if_pos htest]
      constructor
      · intro h
        obtain rfl := Option.some.inj h
        exact ⟨[], b :: s, rfl, rfl, upTo_nil.2 htest⟩
      · rintro ⟨body, rest, hs, rfl, h⟩
        cases body with
        | nil => rfl
        | cons c body =>
          obtain ⟨rfl, rfl⟩ := List.cons.inj hs
          exact absurd htest (upTo_cons.1 h).1
    · rw [if_neg htest, Option.map_eq_some_iff]
      constructor
      · rintro ⟨m, hm, rfl⟩
        obtain ⟨body, rest, rfl, rfl, h⟩ := ih.1 hm
        exact ⟨b :: body, rest, rfl, rfl, upTo_cons.2 ⟨htest, h⟩⟩
      · rintro ⟨body, rest, hs, rfl, h⟩
        cases body with
        | nil =>
          obtain rfl : b :: s = rest := hs
          exact absurd (upTo_nil.1 h) htest
        | cons c body =>
          obtain ⟨rfl, rfl⟩ := List.cons.inj hs
          exact ⟨body.length, ih.2 ⟨body, rest, rfl, rfl, (upTo_cons.1 h).2⟩, rfl⟩

/-! ### Items -/

/-- A text that starts with a line break. -/
def BreaksLine (s : Bytes) : Prop :=
  ∃ c, isLineBreak c = true ∧ Utf8.encode c <+: s

/-- The piece of text, with `rest` behind it, is an item. -/
inductive IsItem : (piece rest : Bytes) → Prop
  /-- A blank in UTF-8. -/
  | blank {c : Nat} {rest : Bytes} (h : isBlank c = true) : IsItem (Utf8.encode c) rest
  /-- A closing bracket or parenthesis. -/
  | closing {b : UInt8} {rest : Bytes} (h : isClosing b = true) : IsItem [b] rest
  /-- A line comment, up to the first line break, which is not part of it. -/
  | line {body rest : Bytes} (h : UpTo BreaksLine body rest) : IsItem (47 :: 47 :: body) rest
  /-- A block comment, up to the first star and slash behind its opening. -/
  | block {body rest : Bytes} (h : UpTo ([42, 47] <+: ·) body (42 :: 47 :: rest)) :
      IsItem (47 :: 42 :: (body ++ [42, 47])) rest

/-- Whether an item closes a key. -/
def closes (piece : Bytes) : Bool :=
  piece == [93] || piece == [41]

/-- The scanner sees a line break where one stands. -/
theorem startsLineBreak_iff_breaksLine {s : Bytes} :
    startsLineBreak s = true ↔ BreaksLine s := by
  have h10 : Utf8.encode 10 = [10] := by decide
  have h13 : Utf8.encode 13 = [13] := by decide
  have h2028 : Utf8.encode 0x2028 = [0xE2, 0x80, 0xA8] := by decide
  have h2029 : Utf8.encode 0x2029 = [0xE2, 0x80, 0xA9] := by decide
  constructor
  · intro h
    cases s with
    | nil => simp [startsLineBreak] at h
    | cons b rest =>
      rcases startsLineBreak_iff.1 h with rfl | rfl | ⟨d, more, rfl, rfl, rfl | rfl⟩
      · exact ⟨10, by decide, by simp [h10]⟩
      · exact ⟨13, by decide, by simp [h13]⟩
      · exact ⟨0x2028, by decide, by simp [h2028]⟩
      · exact ⟨0x2029, by decide, by simp [h2029]⟩
  · rintro ⟨c, hc, rest, rfl⟩
    simp only [isLineBreak, Bool.or_eq_true, beq_iff_eq] at hc
    rcases hc with ((rfl | rfl) | rfl) | rfl
    · rw [h10]; rfl
    · rw [h13]; rfl
    · rw [h2028]; rfl
    · rw [h2029]; rfl

/-- The scanner finds the first line break. -/
theorem lineBreak?_eq_some_iff {s : Bytes} {n : Nat} :
    lineBreak? s = some n ↔
      ∃ body rest, s = body ++ rest ∧ body.length = n ∧ UpTo BreaksLine body rest := by
  have hbreak : (fun s ↦ startsLineBreak s = true) = BreaksLine :=
    funext fun _ ↦ propext startsLineBreak_iff_breaksLine
  rw [← hbreak]
  exact upTo_iff rfl fun _ _ ↦ rfl

/-- Looking for a text finds the first place where it stands. -/
theorem indexOf?_eq_some_iff {needle s : Bytes} {n : Nat} :
    Bytes.indexOf? needle s = some n ↔
      ∃ body rest, s = body ++ rest ∧ body.length = n ∧ UpTo (needle <+: ·) body rest := by
  have hprefix : (fun s ↦ needle.isPrefixOf s = true) = (needle <+: ·) :=
    funext fun _ ↦ propext List.isPrefixOf_iff_prefix
  rw [← hprefix]
  exact upTo_iff (by cases needle <;> rfl) fun _ _ ↦ rfl

/-- A blank that is written out is read as that blank, whatever stands behind it. -/
theorem ofLead_encode_of_isBlank {c : Nat} (h : isBlank c = true) (rest : Bytes) :
    ∃ b tails, Utf8.encode c = b :: tails ∧
      Utf8.ofLead b (tails ++ rest) = ⟨c, tails.length + 1⟩ := by
  simp only [isBlank, isSpace, Bool.or_eq_true, Bool.and_eq_true, beq_iff_eq, bne_iff_ne,
    decide_eq_true_eq] at h
  have hrange : (9 ≤ c ∧ c ≤ 13) ∨ (0x2000 ≤ c ∧ c ≤ 0x200A) ∨
      c = 0x20 ∨ c = 0xA0 ∨ c = 0x1680 ∨ c = 0x2028 ∨ c = 0x2029 ∨ c = 0x202F ∨ c = 0x205F ∨
      c = 0x3000 ∨ c = 0xFEFF := by omega
  rcases hrange with ⟨hlow, hhigh⟩ | ⟨hlow, hhigh⟩ | h | h | h | h | h | h | h | h | h
  · interval_cases c <;> exact ⟨_, _, rfl, rfl⟩
  · interval_cases c <;> exact ⟨_, _, rfl, rfl⟩
  all_goals subst h; exact ⟨_, _, rfl, rfl⟩

theorem lineBreak?_slashes (s : Bytes) :
    lineBreak? (47 :: 47 :: s) = (lineBreak? s).map (· + 2) := by
  simp [lineBreak?, startsLineBreak_slash, Function.comp_def]

/-- Neither bracket is a blank. -/
theorem closes_encode_of_isBlank {c : Nat} (h : isBlank c = true) :
    closes (Utf8.encode c) = false := by
  obtain ⟨b, tails, hencode, hread⟩ := ofLead_encode_of_isBlank h []
  rw [closes, Bool.or_eq_false_iff, beq_eq_false_iff_ne, beq_eq_false_iff_ne, hencode]
  constructor
  all_goals
    rintro ⟨rfl, rfl⟩
    rw [← (Scalar.mk.inj hread).1] at h
    exact absurd h (by decide)

/-- An item is not empty. -/
theorem IsItem.ne_nil {piece rest : Bytes} (h : IsItem piece rest) : piece ≠ [] := by
  cases h with
  | blank h =>
    obtain ⟨b, tails, hencode, -⟩ := ofLead_encode_of_isBlank h rest
    simp [hencode]
  | closing | line | block => simp

/-- The items that close nothing are what separates tokens. -/
theorem separates_iff {s : Bytes} {n : Nat} :
    Separates isBlank s n ↔
      ∃ piece rest, s = piece ++ rest ∧ piece.length = n ∧ IsItem piece rest ∧
        closes piece = false := by
  constructor
  · intro h
    cases h with
    | @blank b rest h =>
      have hle := Utf8.width_ofLead_le b rest
      have hpos := Utf8.one_le_width_ofLead b rest
      have hcode : (Utf8.ofLead b rest).code ≠ Scalar.replacement := by
        intro hcode
        rw [hcode] at h
        exact absurd h (by decide)
      have hencode := Utf8.encode_ofLead hcode
      refine ⟨_, rest.drop ((Utf8.ofLead b rest).width - 1), ?_, ?_, .blank h,
        closes_encode_of_isBlank h⟩
      · rw [hencode, List.cons_append, List.take_append_drop]
      · rw [hencode, List.length_cons, List.length_take]
        omega
    | line h =>
      rw [lineBreak?_slashes, Option.map_eq_some_iff] at h
      obtain ⟨m, hm, rfl⟩ := h
      obtain ⟨body, rest, rfl, rfl, hupTo⟩ := lineBreak?_eq_some_iff.1 hm
      exact ⟨_, rest, rfl, rfl, .line hupTo, by simp [closes]⟩
    | block h =>
      obtain ⟨body, rest, rfl, rfl, hupTo⟩ := indexOf?_eq_some_iff.1 h
      obtain ⟨rest, rfl⟩ := hupTo.here
      exact ⟨_, rest, by simp, by simp, .block hupTo, by simp [closes]⟩
  · rintro ⟨piece, rest, rfl, rfl, hitem, hcloses⟩
    cases hitem with
    | blank h =>
      obtain ⟨b, tails, hencode, hread⟩ := ofLead_encode_of_isBlank h rest
      have hblank := @Separates.blank isBlank b (tails ++ rest) (by rw [hread]; exact h)
      rw [hread] at hblank
      rw [hencode]
      exact hblank
    | closing h =>
      rw [isClosing, Bool.or_eq_true, beq_iff_eq, beq_iff_eq] at h
      rcases h with rfl | rfl <;> cases hcloses
    | @line body _ h =>
      have hbreak := lineBreak?_eq_some_iff.2 ⟨body, rest, rfl, rfl, h⟩
      exact .line (by simp [lineBreak?_slashes, hbreak])
    | @block body _ h =>
      have hindex := indexOf?_eq_some_iff.2 ⟨body, _, rfl, rfl, h⟩
      simpa using Separates.block hindex

/-- Only a single closing bracket closes something. -/
theorem exists_of_closes {piece : Bytes} (h : closes piece = true) :
    ∃ b, piece = [b] ∧ isClosing b = true := by
  rw [closes, Bool.or_eq_true, beq_iff_eq, beq_iff_eq] at h
  rcases h with rfl | rfl
  · exact ⟨93, rfl, rfl⟩
  · exact ⟨41, rfl, rfl⟩

theorem closes_of_isClosing {b : UInt8} (h : isClosing b = true) : closes [b] = true := by
  rw [isClosing, Bool.or_eq_true, beq_iff_eq, beq_iff_eq] at h
  rcases h with rfl | rfl <;> rfl

/-- The scanner recognises an item by its text and what stands behind it. -/
theorem IsItem.item? {piece rest : Bytes} (h : IsItem piece rest) :
    Gap.item? (piece ++ rest) = some ⟨piece.length, closes piece⟩ := by
  cases hcloses : closes piece with
  | false => exact item?_of_separates (separates_iff.2 ⟨piece, rest, rfl, rfl, h, hcloses⟩)
  | true =>
    obtain ⟨b, rfl, hb⟩ := exists_of_closes hcloses
    exact item?_closing hb

theorem item?_colon (s : Bytes) : Gap.item? (58 :: s) = none := by
  have hblank : isBlank 58 = false := by decide
  simp [Gap.item?, Utf8.ofLead_of_lt, hblank]

/-! ### Texts of items -/

/-- The pieces, one after the other and with `rest` behind them, are items. -/
def AreItems : List Bytes → Bytes → Prop
  | [], _ => True
  | piece :: pieces, rest => IsItem piece (pieces.flatten ++ rest) ∧ AreItems pieces rest

/-- Items followed by one more are items. -/
theorem areItems_concat {pieces : List Bytes} {piece rest : Bytes} :
    AreItems (pieces ++ [piece]) rest ↔
      AreItems pieces (piece ++ rest) ∧ IsItem piece rest := by
  induction pieces with
  | nil => simp [AreItems]
  | cons first pieces ih => simp [AreItems, ih, and_assoc]

/-- Where the last closing item ends, if the pieces start at `start`; without one, `start`. -/
def closedBy (start : Nat) (pieces : List Bytes) : Nat :=
  start + (pieces.rdropWhile fun piece ↦ !closes piece).flatten.length

theorem closedBy_concat (start : Nat) (pieces : List Bytes) (piece : Bytes) :
    closedBy start (pieces ++ [piece])
      = if closes piece then start + (pieces ++ [piece]).flatten.length
        else closedBy start pieces := by
  cases hcloses : closes piece <;> simp [closedBy, hcloses]

/-- What is passed on the way to a place are items. -/
theorem exists_areItems_of_passes {start closed stop : Nat}
    (h : Passes isBlank source start closed stop) :
    ∃ pieces, source.drop start = pieces.flatten ++ source.drop stop ∧
      stop = start + pieces.flatten.length ∧ AreItems pieces (source.drop stop) ∧
      closed = closedBy start pieces := by
  induction h with
  | refl => exact ⟨[], rfl, rfl, trivial, rfl⟩
  | @separator closed stop n _ hn ih =>
    obtain ⟨pieces, hdrop, hstop, hitems, hclosed⟩ := ih
    obtain ⟨piece, rest, hs, rfl, hitem, hcloses⟩ := separates_iff.1 hn
    have hrest : source.drop (stop + piece.length) = rest := by
      rw [← List.drop_drop, hs, List.drop_left]
    rw [hs] at hdrop hitems
    refine ⟨pieces ++ [piece], ?_, ?_, ?_, ?_⟩
    · simp [hdrop, hrest]
    · simp [hstop, Nat.add_assoc]
    · rw [hrest]
      exact areItems_concat.2 ⟨hitems, hitem⟩
    · rw [closedBy_concat, hcloses, hclosed]
      rfl
  | @closing closed stop b _ hget hb ih =>
    obtain ⟨pieces, hdrop, hstop, hitems, -⟩ := ih
    have hs : source.drop stop = [b] ++ source.drop (stop + 1) := by
      obtain ⟨hlt, hget⟩ := List.getElem?_eq_some_iff.1 hget
      rw [List.drop_eq_getElem_cons hlt, hget]
      rfl
    rw [hs] at hdrop hitems
    have hlength : stop + 1 = start + (pieces ++ [[b]]).flatten.length := by
      simp [hstop, Nat.add_assoc]
    refine ⟨pieces ++ [[b]], by simpa using hdrop, hlength, ?_, ?_⟩
    · exact areItems_concat.2 ⟨hitems, .closing hb⟩
    · rw [closedBy_concat, closes_of_isClosing hb, if_pos rfl, hlength]

/-- Items lead from a place to the one behind them. -/
theorem passes_of_areItems {start : Nat} {pieces : List Bytes} {rest : Bytes}
    (hdrop : source.drop start = pieces.flatten ++ rest) (h : AreItems pieces rest) :
    Passes isBlank source start (closedBy start pieces) (start + pieces.flatten.length) := by
  induction pieces using List.reverseRecOn generalizing rest with
  | nil => exact .refl
  | append_singleton pieces piece ih =>
    obtain ⟨hitems, hitem⟩ := areItems_concat.1 h
    have hflatten : (pieces ++ [piece]).flatten = pieces.flatten ++ piece := by simp
    rw [hflatten, List.append_assoc] at hdrop
    have hpasses := ih hdrop hitems
    have hs : source.drop (start + pieces.flatten.length) = piece ++ rest := by
      rw [← List.drop_drop, hdrop, List.drop_left]
    rw [closedBy_concat, hflatten, List.length_append, ← Nat.add_assoc]
    cases hcloses : closes piece with
    | false => exact hpasses.separator (separates_iff.2 ⟨piece, rest, hs, rfl, hitem, hcloses⟩)
    | true =>
      obtain ⟨b, rfl, hb⟩ := exists_of_closes hcloses
      refine hpasses.closing (b := b) ?_ hb
      rw [← List.head?_drop, hs]
      rfl

/-- A text is cut into items in one way only, up to a colon. -/
theorem areItems_unique {pieces pieces' : List Bytes} {rest rest' : Bytes}
    (h : AreItems pieces (58 :: rest)) (h' : AreItems pieces' (58 :: rest'))
    (heq : pieces.flatten ++ 58 :: rest = pieces'.flatten ++ 58 :: rest') : pieces = pieces' := by
  induction pieces generalizing pieces' with
  | nil =>
    cases pieces' with
    | nil => rfl
    | cons piece' pieces' =>
      have hitem := h'.1.item?
      rw [← List.append_assoc, ← List.flatten_cons, ← heq, List.flatten_nil, List.nil_append,
        item?_colon] at hitem
      cases hitem
  | cons piece pieces ih =>
    cases pieces' with
    | nil =>
      have hitem := h.1.item?
      rw [← List.append_assoc, ← List.flatten_cons, heq, List.flatten_nil, List.nil_append,
        item?_colon] at hitem
      cases hitem
    | cons piece' pieces' =>
      simp only [List.flatten_cons, List.append_assoc] at heq
      have hitem := h.1.item?
      rw [heq, h'.1.item?] at hitem
      have hlength : piece.length = piece'.length := by
        simpa using (congrArg (·.map Item.width) hitem).symm
      obtain ⟨rfl, hrest⟩ := List.append_inj heq hlength
      rw [ih h.2 h'.2 hrest]

/-! ### The search -/

/-- The pieces are items that lead from the offset `start` to a colon at the offset `stop`. -/
structure Leads (source : Bytes) (start stop : Nat) (pieces : List Bytes) : Prop where
  le : start ≤ stop
  colon : source[stop]? = some 58
  text : source.slice start stop = pieces.flatten
  items : AreItems pieces (source.drop stop)

namespace Leads

variable {start stop : Nat} {pieces : List Bytes}

theorem drop (h : Leads source start stop pieces) :
    source.drop start = pieces.flatten ++ source.drop stop := by
  rw [← h.text, Bytes.slice_append_drop h.le]

theorem length (h : Leads source start stop pieces) : start + pieces.flatten.length = stop := by
  have hlt := (List.getElem?_eq_some_iff.1 h.colon).1
  rw [← h.text, Bytes.length_slice hlt.le, Nat.add_sub_cancel' h.le]

/-- Items lead to one colon only, and in one way. -/
theorem unique {stop' : Nat} {pieces' : List Bytes} (h : Leads source start stop pieces)
    (h' : Leads source start stop' pieces') : stop = stop' ∧ pieces = pieces' := by
  have hdrop := drop_eq_colon h.colon
  have hdrop' := drop_eq_colon h'.colon
  obtain rfl : pieces = pieces' :=
    areItems_unique (hdrop ▸ h.items) (hdrop' ▸ h'.items)
      (by rw [← hdrop, ← hdrop', ← h.drop, ← h'.drop])
  exact ⟨h.length.symm.trans h'.length, rfl⟩

end Leads

/-- Passing items up to a colon is being led to it. -/
theorem passes_iff_leads {start closed stop : Nat} (hcolon : source[stop]? = some 58) :
    Passes isBlank source start closed stop ↔
      ∃ pieces, Leads source start stop pieces ∧ closed = closedBy start pieces := by
  constructor
  · intro h
    obtain ⟨pieces, hdrop, hstop, hitems, hclosed⟩ := exists_areItems_of_passes h
    refine ⟨pieces, ⟨h.start_le, hcolon, ?_, hitems⟩, hclosed⟩
    rw [Bytes.slice, hdrop, hstop, Nat.add_sub_cancel_left, List.take_left]
  · rintro ⟨pieces, h, rfl⟩
    rw [← h.length]
    exact passes_of_areItems h.drop h.items

/-- The search finds the colon to which items lead, with the end of the last bracket among them. -/
theorem findColon_eq_some_iff_leads {start : Int} {closed colon : Nat} :
    findColon source start = some (closed, colon) ↔
      0 ≤ start ∧ start ≤ source.length ∧
        ∃ pieces, Leads source start.toNat colon pieces ∧
          closed = closedBy start.toNat pieces := by
  by_cases hrange : 0 ≤ start ∧ start ≤ source.length
  · obtain ⟨n, rfl⟩ := Int.eq_ofNat_of_zero_le hrange.1
    have hn : n ≤ source.length := by omega
    simp only [hrange, true_and, Int.toNat_natCast, findColon_eq_some_iff hn]
    constructor
    · rintro ⟨hpasses, hcolon⟩
      exact (passes_iff_leads hcolon).1 hpasses
    · rintro ⟨pieces, hleads, hclosed⟩
      exact ⟨(passes_iff_leads hleads.colon).2 ⟨pieces, hleads, hclosed⟩, hleads.colon⟩
  · have hnone : findColon source start = none := by
      simp only [findColon, Bool.and_eq_true, decide_eq_true_eq, if_neg hrange]
    rw [hnone, ← and_assoc]
    simp [hrange]

/-- **The grammar of the search.** From an offset in the source the search finds a colon exactly if
items lead up to it, and tells where the last closing item ends; otherwise it finds nothing. The
items are determined by the source. -/
theorem findColon_grammar (source : Bytes) (start : Int) :
    (∀ closed colon, findColon source start = some (closed, colon) ↔
      0 ≤ start ∧ start ≤ source.length ∧
        ∃ pieces, Leads source start.toNat colon pieces ∧
          closed = closedBy start.toNat pieces) ∧
      (findColon source start = none ↔
        ¬ (0 ≤ start ∧ start ≤ source.length ∧
          ∃ colon pieces, Leads source start.toNat colon pieces)) ∧
      ∀ colon colon' pieces pieces', Leads source start.toNat colon pieces →
        Leads source start.toNat colon' pieces' → colon = colon' ∧ pieces = pieces' := by
  refine ⟨fun _ _ ↦ findColon_eq_some_iff_leads, ?_, fun _ _ _ _ ↦ Leads.unique⟩
  constructor
  · rintro hnone ⟨h0, hle, colon, pieces, hleads⟩
    rw [findColon_eq_some_iff_leads.2 ⟨h0, hle, pieces, hleads, rfl⟩] at hnone
    cases hnone
  · intro hno
    cases hfind : findColon source start with
    | none => rfl
    | some found =>
      obtain ⟨h0, hle, pieces, hleads, -⟩ := findColon_eq_some_iff_leads.1 hfind
      exact absurd ⟨h0, hle, _, pieces, hleads⟩ hno

/-- The slash that opens a block comment does not close it. -/
example : findColon (utf8 "/*/:") 0 = none ∧
    findColon (utf8 "/*/:*/)\u00a0//]\n:") 0 = some (7, 13) := by
  decide

end Gap

end ColonGap
