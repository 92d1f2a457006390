import ColonGap.Proofs.Merge
import ColonGap.Proofs.Parts
import ColonGap.Proofs.Verdicts
import Mathlib.Data.List.DropRight
import Mathlib.Data.List.GetD
import Mathlib.Data.Prod.Lex

/-!
# Lines and columns

The position of an offset is found by bisecting a table of line starts, and it is what counting
gives: the line feeds before the offset, and the characters behind the last of them
(`position_counts`). The table is cut in two by the offset. The line starts of the text in front of
it do not exceed it and those of the text behind it do (`lineStarts_eq`), so nothing has to be known
of the order of the table, and the search ends at the cut (`bisect_eq`).

## Why positions ascend

In the middle of a character a column may be too high, since the bytes of a sequence that is broken
off count one by one. Between two characters it is not: a text that ends there reads as the
characters that the whole text has there (`scalars_take`), so more of them are counted later on.
Where a line starts may be in front of any byte, also of a stray tail byte; that makes no difference
because a line feed is a character whatever stands behind it (`count_append`).
-/

namespace ColonGap

/-- The part of a text behind its last line feed. -/
def Bytes.lastLine (s : Bytes) : Bytes :=
  s.rtakeWhile (· != 10)

namespace SourceFile

/-! ### Bisection -/

/-- The search finds the place at which the test starts to hold. It asks for numbers below `high`
only. -/
theorem bisect_eq {test : Nat → Bool} {fuel low high found : Nat} (hfuel : high ≤ low + fuel)
    (hlow : low ≤ found) (hhigh : found ≤ high) (hbelow : ∀ i < found, test i = false)
    (habove : ∀ i, found ≤ i → i < high → test i = true) :
    bisect test fuel low high = found := by
  induction fuel generalizing low high with
  | zero =>
    rw [bisect]
    omega
  | succ fuel ih =>
    rw [bisect]
    split
    case isFalse => omega
    case isTrue hlt =>
      dsimp only
      split
      case isTrue htest =>
        have hle : found ≤ (low + high) / 2 := by
          by_contra hgt
          rw [hbelow _ (by omega)] at htest
          cases htest
        exact ih (by omega) hlow hle fun i hi hlt ↦ habove i hi (by omega)
      case isFalse htest =>
        have hgt : (low + high) / 2 < found := by
          by_contra hle
          exact htest (habove _ (by omega) (by omega))
        exact ih (by omega) hgt hhigh habove

/-! ### The table of line starts -/

/-- The line starts of a text are those of both parts, the later ones further on. -/
theorem lineStartsFrom_append (offset : Nat) (s t : Bytes) :
    lineStartsFrom offset (s ++ t)
      = lineStartsFrom offset s ++ lineStartsFrom (offset + s.length) t := by
  induction s generalizing offset with
  | nil => rfl
  | cons b s ih =>
    simp only [List.cons_append, lineStartsFrom, ih, List.length_cons, Nat.add_assoc,
      Nat.add_comm 1]
    split <;> rfl

/-- A text has a line start behind each line feed. -/
theorem length_lineStartsFrom (offset : Nat) (s : Bytes) :
    (lineStartsFrom offset s).length = s.count 10 := by
  induction s generalizing offset with
  | nil => rfl
  | cons b s ih =>
    rw [lineStartsFrom, List.count_cons]
    split <;> simp [ih]

/-- A line start that is found in a text lies behind its start and not behind its end. -/
theorem mem_lineStartsFrom {offset start : Nat} {s : Bytes} (h : start ∈ lineStartsFrom offset s) :
    offset < start ∧ start ≤ offset + s.length := by
  induction s generalizing offset with
  | nil => cases h
  | cons b s ih =>
    rw [List.length_cons]
    rw [lineStartsFrom] at h
    split at h
    case isTrue =>
      rcases List.mem_cons.1 h with rfl | h
      · omega
      · have := ih h
        omega
    case isFalse =>
      have := ih h
      omega

/-- No line starts behind the end of the text. -/
theorem le_of_mem_lineStarts {start : Nat} {s : Bytes} (h : start ∈ 0 :: lineStartsFrom 0 s) :
    start ≤ s.length := by
  rcases List.mem_cons.1 h with rfl | h
  · exact Nat.zero_le _
  · simpa using (mem_lineStartsFrom h).2

/-- The last line start is where the last line starts. -/
theorem drop_getLast_lineStarts (s : Bytes) :
    s.drop ((0 :: lineStartsFrom 0 s).getLast (List.cons_ne_nil _ _)) = s.lastLine := by
  induction s using List.reverseRecOn with
  | nil => rfl
  | append_singleton s b ih =>
    by_cases hb : b = 10
    · subst hb
      have hstarts : 0 :: lineStartsFrom 0 (s ++ [10])
          = (0 :: lineStartsFrom 0 s) ++ [s.length + 1] := by
        rw [lineStartsFrom_append, Nat.zero_add]
        rfl
      simp only [hstarts, List.getLast_append_singleton]
      rw [Bytes.lastLine, List.rtakeWhile_concat_neg _ _ _ (by decide),
        List.drop_eq_nil_of_le (by simp)]
    · have hstarts : lineStartsFrom 0 (s ++ [b]) = lineStartsFrom 0 s := by
        simp [lineStartsFrom_append, lineStartsFrom, hb]
      have hle : (0 :: lineStartsFrom 0 s).getLast (List.cons_ne_nil _ _) ≤ s.length :=
        le_of_mem_lineStarts (List.getLast_mem _)
      simp only [hstarts]
      rw [List.drop_append_of_le_length hle, ih, Bytes.lastLine, Bytes.lastLine,
        List.rtakeWhile_concat_pos _ _ _ (by simpa using hb)]

variable {name source : Bytes} {o : Nat}

/-- An offset cuts the table in two. -/
theorem lineStarts_eq (ho : o ≤ source.length) :
    (ofSource name source).lineStarts
      = ((0 :: lineStartsFrom 0 (source.take o)) ++ lineStartsFrom o (source.drop o)).toArray := by
  have hcut : lineStartsFrom 0 source
      = lineStartsFrom 0 (source.take o) ++ lineStartsFrom o (source.drop o) := by
    conv_lhs => rw [← List.take_append_drop o source]
    rw [lineStartsFrom_append, List.length_take, Nat.min_eq_left ho, Nat.zero_add]
  rw [ofSource, hcut, List.cons_append]

theorem getD_lineStarts (ho : o ≤ source.length) (i default : Nat) :
    (ofSource name source).lineStarts.getD i default
      = ((0 :: lineStartsFrom 0 (source.take o)) ++ lineStartsFrom o (source.drop o)).getD i
          default := by
  simp [lineStarts_eq ho]

theorem length_lineStarts_take (source : Bytes) (o : Nat) :
    (0 :: lineStartsFrom 0 (source.take o)).length = (source.take o).count 10 + 1 := by
  rw [List.length_cons, length_lineStartsFrom]

/-- **The search in the table** ends one behind the line of the offset, whatever one takes for the
entries that the table does not have. -/
theorem bisect_lineStarts (ho : o ≤ source.length) (default : Nat) :
    let starts := (ofSource name source).lineStarts
    bisect (fun i ↦ o < starts.getD i default) starts.size 0 starts.size
      = (source.take o).count 10 + 1 := by
  intro starts
  have hlength := length_lineStarts_take source o
  have hsize : starts.size
      = (source.take o).count 10 + 1 + (lineStartsFrom o (source.drop o)).length := by
    rw [← hlength, ← List.length_append]
    exact congrArg Array.size (lineStarts_eq ho)
  refine bisect_eq (by omega) (Nat.zero_le _) (by omega) (fun i hi ↦ ?_) fun i hi hlt ↦ ?_
  · -- Entries of the first part do not exceed the offset.
    rw [← hlength] at hi
    rw [getD_lineStarts ho, List.getD_append _ _ _ _ hi, decide_eq_false_iff_not, Nat.not_lt,
      List.getD_eq_getElem _ _ hi]
    exact (le_of_mem_lineStarts (List.getElem_mem hi)).trans (List.length_take_le _ _)
  · rw [← hlength] at hi
    rw [getD_lineStarts ho, List.getD_append_right _ _ _ _ hi, decide_eq_true_eq,
      List.getD_eq_getElem _ _ (by omega)]
    exact (mem_lineStartsFrom (List.getElem_mem _)).1

/-- The entry of the table for the line of the offset is where that line starts. -/
theorem getD_lineStarts_count (ho : o ≤ source.length) (default : Nat) :
    (ofSource name source).lineStarts.getD ((source.take o).count 10) default
      = (0 :: lineStartsFrom 0 (source.take o)).getLast (List.cons_ne_nil _ _) := by
  have hlt : (source.take o).count 10 < (0 :: lineStartsFrom 0 (source.take o)).length := by
    rw [length_lineStarts_take]
    exact Nat.lt_succ_self _
  rw [getD_lineStarts ho, List.getD_append _ _ _ _ hlt, List.getD_eq_getElem _ _ hlt,
    List.getLast_eq_getElem]
  simp only [length_lineStarts_take, Nat.add_sub_cancel]

/-! ### Positions by counting -/

/-- The position at the end of a text. -/
def endOf (s : Bytes) : Position :=
  ⟨s.count 10 + 1, Utf8.count s.lastLine + 1⟩

/-- The position of an offset is the one at the end of the text in front of it. -/
theorem position_ofSource (name source : Bytes) (offset : Int) :
    (ofSource name source).position offset
      = endOf (source.take ((ofSource name source).clamp offset)) := by
  generalize ho : (ofSource name source).clamp offset = o
  have hle : o ≤ source.length := ho ▸ Nat.min_le_right _ _
  have hsearch := @bisect_lineStarts name _ _ hle 0
  have htable : ¬ (ofSource name source).lineStarts.isEmpty = true := by simp [ofSource]
  dsimp only at hsearch
  simp only [position, if_neg htable, ho, hsearch, Nat.add_sub_cancel, getD_lineStarts_count hle,
    ← Bytes.drop_take_eq_slice, endOf]
  have hline : (ofSource name source).source.take o = source.take o := rfl
  rw [hline, drop_getLast_lineStarts]

theorem clamp_eq (f : SourceFile) (offset : Int) :
    f.clamp offset = (max 0 (min offset f.source.length)).toNat := by
  rw [clamp]
  omega

/-- **Positions are counted.** With the offset moved into the source, its line is one more than the
line feeds before it, and its column one more than the characters behind the last of them. The
search that finds the line ends one behind an entry of the table, whatever one takes for the entries
that the table does not have: it asks for none of these. -/
theorem position_counts (name source : Bytes) (offset : Int) :
    let f := ofSource name source
    let o := (max 0 (min offset source.length)).toNat
    f.position offset
        = ⟨(source.take o).count 10 + 1, Utf8.count (Bytes.lastLine (source.take o)) + 1⟩ ∧
      ∃ line < f.lineStarts.size, ∀ default,
        bisect (fun i ↦ o < f.lineStarts.getD i default) f.lineStarts.size 0 f.lineStarts.size
          = line + 1 := by
  intro f o
  have ho : f.clamp offset = o := clamp_eq f offset
  have hle : o ≤ source.length := ho ▸ Nat.min_le_right _ _
  refine ⟨ho ▸ position_ofSource name source offset, (source.take o).count 10, ?_,
    bisect_lineStarts hle⟩
  have hsize : f.lineStarts.size = source.count 10 + 1 := by
    simp [f, ofSource, length_lineStartsFrom]
  have hcount := (List.take_sublist o source).count_le 10
  omega

end SourceFile

/-! ### Reading a text up to a boundary -/

namespace Utf8

/-- A sequence of two bytes is read from its bytes alone, and without the second it is malformed. -/
theorem two_take {b : UInt8} {rest : Bytes} {n : Nat} (h : (two b rest).width ≤ n + 1) :
    two b (rest.take n) = two b rest := by
  match n, rest with
  | _, [] => rw [List.take_nil]
  | _ + 1, _ :: _ => rfl
  | 0, c :: _ =>
    have hc : ¬ isTail c = true := fun hc ↦ by
      rw [two, if_pos hc] at h
      simp at h
    exact (if_neg hc).symm

/-- A sequence of three reads the same if no more of the text is left than it takes. -/
theorem three_take {b low high : UInt8} {rest : Bytes} {n : Nat}
    (h : (three b low high rest).width ≤ n + 1) :
    three b low high (rest.take n) = three b low high rest := by
  match n, rest with
  | _, [] => rw [List.take_nil]
  | 0, [_] => rfl
  | n + 1, [_] => rw [List.take_of_length_le (by simp)]
  | _ + 2, _ :: _ :: _ => rfl
  | 0, c :: d :: _ | 1, c :: d :: _ =>
    have hc : ¬ (decide (low ≤ c) && decide (c ≤ high) && isTail d) = true := fun hc ↦ by
      rw [three, if_pos hc] at h
      simp at h
    exact (if_neg hc).symm

/-- A sequence of four reads the same if no more of the text is left than it takes. -/
theorem four_take {b low high : UInt8} {rest : Bytes} {n : Nat}
    (h : (four b low high rest).width ≤ n + 1) :
    four b low high (rest.take n) = four b low high rest := by
  match n, rest with
  | _, [] => rw [List.take_nil]
  | 0, [_] | 0, [_, _] | 1, [_, _] => rfl
  | n + 1, [_] | n + 2, [_, _] => rw [List.take_of_length_le (by simp)]
  | _ + 3, _ :: _ :: _ :: _ => rfl
  | 0, c :: d :: e :: _ | 1, c :: d :: e :: _ | 2, c :: d :: e :: _ =>
    have hc : ¬ (decide (low ≤ c) && decide (c ≤ high) && isTail d && isTail e) = true :=
      fun hc ↦ by
        rw [four, if_pos hc] at h
        simp at h
    exact (if_neg hc).symm

/-- A choice between characters reads the same if both of them do. -/
theorem ite_take {p : Prop} [Decidable p] {c c' d d' : Scalar} {n : Nat}
    (hc : c.width ≤ n → c' = c) (hd : d.width ≤ n → d' = d) :
    (if p then c else d).width ≤ n → (if p then c' else d') = if p then c else d := by
  split
  · exact hc
  · exact hd

/-- The first character is read from its own bytes. If it is malformed, it stays so whatever is cut
off behind it. -/
theorem ofLead_take {b : UInt8} {rest : Bytes} {n : Nat} (h : (ofLead b rest).width ≤ n + 1) :
    ofLead b (rest.take n) = ofLead b rest := by
  -- One case for each range of lead bytes.
  have hsame : ∀ c : Scalar, c.width ≤ n + 1 → c = c := fun _ _ ↦ rfl
  exact ite_take (hsame _) (ite_take (hsame _) (ite_take two_take (ite_take three_take
    (ite_take three_take (ite_take three_take (ite_take four_take (ite_take four_take
      (ite_take four_take (hsame _))))))))) h

/-- **A text that ends at a boundary** has the characters that the whole text has up to there. -/
theorem scalars_take {s : Bytes} {front : List Scalar} (h : front <+: scalars s) :
    scalars (s.take (front.map Scalar.width).sum) = front := by
  induction s using glyph_induction generalizing front with
  | nil =>
    obtain rfl := List.prefix_nil.1 h
    rfl
  | cons b rest ih =>
    cases front with
    | nil => rfl
    | cons c front =>
      rw [scalars_cons, List.cons_prefix_cons] at h
      obtain ⟨rfl, h⟩ := h
      obtain ⟨n, hn⟩ := Nat.exists_eq_add_of_le' (one_le_width_ofLead b rest)
      rw [hn, Nat.add_sub_cancel] at ih h
      generalize hm : (front.map Scalar.width).sum = m at ih
      have hread : ofLead b (rest.take (n + m)) = ofLead b rest := ofLead_take (by omega)
      rw [List.map_cons, List.sum_cons, hm, hn, Nat.add_right_comm, List.take_succ_cons,
        scalars_cons, hread, hn, Nat.add_sub_cancel, List.drop_take, Nat.add_sub_cancel_left, ← hm,
        ih h]

/-- A boundary lies in the text. -/
theorem IsBoundary.le {s : Bytes} {n : Nat} (h : IsBoundary s n) : n ≤ s.length := by
  obtain ⟨front, ⟨more, hmore⟩, rfl⟩ := h
  rw [← sum_width_scalars, ← hmore, List.map_append, List.sum_append]
  omega

/-- Up to a later boundary there are more characters. -/
theorem IsBoundary.count_lt {s : Bytes} {m n : Nat} (hm : IsBoundary s m) (hn : IsBoundary s n)
    (hlt : m < n) : count (s.take m) < count (s.take n) := by
  obtain ⟨front, hfront, rfl⟩ := hm
  obtain ⟨front', hfront', rfl⟩ := hn
  rw [count, count, scalars_take hfront, scalars_take hfront']
  by_contra hle
  obtain ⟨more, rfl⟩ := List.prefix_of_prefix_length_le hfront' hfront (Nat.le_of_not_lt hle)
  rw [List.map_append, List.sum_append] at hlt
  omega

/-- Behind a line feed a text is read on its own. -/
theorem count_append {s : Bytes} (t : Bytes) (h : ∀ hs : s ≠ [], s.getLast hs = 10) :
    count (s ++ t) = count s + count t := by
  rcases List.eq_nil_or_concat' s with rfl | ⟨front, b, rfl⟩
  · exact (Nat.zero_add _).symm
  · obtain rfl : b = 10 := by simpa using h (by simp)
    have hfeed : ∀ more, Starts (10 :: more) := starts_cons_of_lt (by decide)
    have hread : ∀ more, count (front ++ 10 :: more) = count front + 1 + count more := by
      intro more
      rw [count, scalars_append (hfeed more), scalars_cons, ofLead_of_lt (by decide)]
      simp [count, Nat.add_assoc, Nat.add_comm 1]
    rw [List.append_assoc, List.singleton_append, hread, hread]
    rfl

end Utf8

/-! ### The order of positions -/

/-- A position as a pair that is compared by its line first. -/
def Position.key (p : Position) : ℤ ×ₗ ℤ :=
  toLex (p.line, p.column)

/-- What is added to a text without a line feed is added to its last line. -/
theorem Bytes.lastLine_append {s t : Bytes} (h : 10 ∉ t) : lastLine (s ++ t) = s.lastLine ++ t := by
  have ht : ∀ b ∈ t.reverse, (b != 10) = true := fun b hb ↦ by
    rw [bne_iff_ne]
    rintro rfl
    exact h (List.mem_reverse.1 hb)
  simp [lastLine, List.rtakeWhile, List.takeWhile_append_of_pos ht]

/-- The characters of a text, with those of its last line apart. -/
theorem Utf8.count_lastLine (s : Bytes) :
    ∃ n, ∀ t, count (s ++ t) = n + count (s.lastLine ++ t) := by
  refine ⟨count (s.rdropWhile (· != 10)), fun t ↦ ?_⟩
  rw [← count_append, ← List.append_assoc, Bytes.lastLine, List.rdropWhile_append_rtakeWhile]
  intro hs
  simpa using List.rdropWhile_last_not (· != 10) s hs

namespace SourceFile

/-- A text that goes on for at least a character ends at a later position. -/
theorem endOf_append {s t : Bytes} (h : Utf8.count s < Utf8.count (s ++ t)) :
    (endOf s).key < (endOf (s ++ t)).key := by
  rw [Position.key, Position.key, Prod.Lex.toLex_lt_toLex]
  simp only [endOf]
  rw [List.count_append]
  by_cases hfeed : 10 ∈ t
  · left
    have hcount := List.count_pos_iff.2 hfeed
    omega
  · right
    obtain ⟨n, hn⟩ := Utf8.count_lastLine s
    have hs := hn []
    rw [Bytes.lastLine_append hfeed, List.count_eq_zero.2 hfeed]
    rw [hn] at h
    rw [List.append_nil, List.append_nil] at hs
    omega

variable {name source : Bytes}

/-- Positions ascend from boundary to boundary. -/
theorem position_lt {m n : Nat} (hm : Utf8.IsBoundary source m) (hn : Utf8.IsBoundary source n)
    (hlt : m < n) :
    ((ofSource name source).position m).key < ((ofSource name source).position n).key := by
  have hclamp : ∀ {o : Nat}, o ≤ source.length → (ofSource name source).clamp o = o := fun ho ↦
    Nat.min_eq_left ho
  have htake : source.take n = source.take m ++ (source.take n).drop m := by
    conv_lhs => rw [← List.take_append_drop m (source.take n)]
    rw [List.take_take, Nat.min_eq_left hlt.le]
  rw [position_ofSource, position_ofSource, hclamp hm.le, hclamp hn.le, htake]
  exact endOf_append (htake ▸ hm.count_lt hn hlt)

/-- Inside a character of three bytes the column is higher than behind it. -/
example :
    let f := ofSource (utf8 "a.js") (utf8 "\u3000")
    f.position 2 = ⟨1, 3⟩ ∧ f.position 3 = ⟨1, 2⟩ := by
  decide

/-- An offset that is not in front of another has no position in front of the other's. -/
theorem position_le {m n : Nat} (hm : Utf8.IsBoundary source m) (hn : Utf8.IsBoundary source n)
    (hle : m ≤ n) :
    ((ofSource name source).position m).key ≤ ((ofSource name source).position n).key := by
  rcases Nat.eq_or_lt_of_le hle with rfl | hlt
  · exact le_refl _
  · exact (position_lt hm hn hlt).le

/-- Positions in a parsed file are those in its source. -/
theorem position_of_parse {file : SourceFile} (h : parse name source = .ok file) :
    file.position = (ofSource name source).position := by
  unfold parse at h
  split at h
  case h_1 => cases h
  case h_2 =>
    obtain rfl := Except.ok.inj h
    rfl

end SourceFile

/-! ### Failures -/

namespace Rule.BeforeColon

variable {name source : Bytes} {file : SourceFile} {option : OptionValue} {f : Failure}

/-- A failure lies where its fix does, in the source. -/
theorem exists_fix_of_mem_check (hf : f ∈ check file option) :
    ∃ r, f.fix = some r ∧ r.start = f.start ∧ r.stop = f.stop ∧ f.stop ≤ file.source.length := by
  rw [check_eq] at hf
  obtain ⟨c, -, hcheck⟩ := List.mem_filterMap.1 hf
  obtain ⟨-, p, -, ⟨hstart, hle, hstop⟩, -, rfl⟩ := check?_eq_some_iff.1 hcheck
  refine ⟨_, rfl, rfl, rfl, ?_⟩
  have hmend := @replacementOf_stop_le (Policy.ofOption option) _ _ hstart hle hstop
  simp only [replacementOf] at hmend
  simp only [failureAt, Failure.ofRange]
  omega

/-- A failure of a script starts and stops between two characters. -/
theorem exists_boundaries_of_mem_check (h : SourceFile.parse name source = .ok file)
    (hf : f ∈ check file option) :
    ∃ m n : Nat, f.start = m ∧ f.stop = n ∧ m ≤ n ∧ Utf8.IsBoundary source m ∧
      Utf8.IsBoundary source n := by
  obtain ⟨-, hsource, -⟩ := SourceFile.parse_eq_ok h
  obtain ⟨r, hr, hstart, hstop, hle⟩ := exists_fix_of_mem_check hf
  have hharmless := harmless_of_mem_check h hf hr
  have hnonneg := hharmless.nonneg
  have horder := hharmless.le
  rw [hsource] at hle
  refine ⟨r.start.toNat, r.stop.toNat, by omega, by omega, by omega,
    Utf8.isBoundary_of_starts (by omega) hharmless.starts,
    Utf8.isBoundary_of_starts (by omega) hharmless.stops⟩

end Rule.BeforeColon

namespace Lint

variable {name source : Bytes} {file : SourceFile} {settings : List Setting}

/-- The failures of a script have the positions of two boundaries. -/
theorem exists_boundaries_of_mem_run (h : SourceFile.parse name source = .ok file)
    (hsettings : ∀ s ∈ settings, s.rule = Rule.BeforeColon.rule) {f : Failure}
    (hf : f ∈ run file settings) :
    ∃ m n : Nat, f.start = m ∧ m ≤ n ∧ Utf8.IsBoundary source m ∧ Utf8.IsBoundary source n ∧
      f.position = (SourceFile.ofSource name source).position m ∧
      f.endPosition = (SourceFile.ofSource name source).position n := by
  obtain ⟨s, hs, g, hg, rfl⟩ := mem_run.1 hf
  rw [hsettings s hs] at hg
  obtain ⟨m, n, hstart, hstop, hle, hm, hn⟩ :=
    Rule.BeforeColon.exists_boundaries_of_mem_check h hg
  refine ⟨m, n, hstart, hle, hm, hn, ?_, ?_⟩
  · rw [← hstart, ← SourceFile.position_of_parse h]
    rfl
  · rw [← hstop, ← SourceFile.position_of_parse h]
    rfl

/-- **Positions ascend.** Of two boundaries between characters the later one has the later position.
So the failures that the rule on gaps has in a script end at no earlier position than they start,
and are reported in the order of their positions. -/
theorem positions_ascend (name source : Bytes) :
    (∀ m n, Utf8.IsBoundary source m → Utf8.IsBoundary source n → m < n →
        ((SourceFile.ofSource name source).position m).key
          < ((SourceFile.ofSource name source).position n).key) ∧
      ∀ file settings, SourceFile.parse name source = .ok file →
        (∀ s ∈ settings, s.rule = Rule.BeforeColon.rule) →
        (∀ f ∈ run file settings, f.position.key ≤ f.endPosition.key) ∧
          (run file settings).Pairwise fun f g ↦ f.position.key ≤ g.position.key := by
  refine ⟨fun m n hm hn ↦ SourceFile.position_lt hm hn, fun file settings h hsettings ↦ ⟨?_, ?_⟩⟩
  · intro f hf
    obtain ⟨m, n, -, hle, hm, hn, hposition, hend⟩ := exists_boundaries_of_mem_run h hsettings hf
    rw [hposition, hend]
    exact SourceFile.position_le hm hn hle
  · refine (pairwise_sortBy precedes_total precedes_trans _).imp_of_mem fun {f g} hf hg hfg ↦ ?_
    obtain ⟨m, -, hstart, -, hm, -, hposition, -⟩ := exists_boundaries_of_mem_run h hsettings hf
    obtain ⟨n, -, hstart', -, hn, -, hposition', -⟩ := exists_boundaries_of_mem_run h hsettings hg
    rw [hposition, hposition']
    refine SourceFile.position_le hm hn ?_
    rcases precedes_iff.1 hfg with hlt | ⟨heq, -⟩ <;> omega

/-- Two gaps on two lines, with a character of three bytes in the first. -/
theorem positions_ascend_wideBlank :
    let source := utf8 "x = \x7b'é'\u3000: 1,\n b\u00a0\t: 2\x7d"
    let settings : List Setting := [⟨Rule.BeforeColon.rule, Severity.error, .text (utf8 "nospace")⟩]
    ∃ file, SourceFile.parse (utf8 "a.js") source = .ok file ∧
      (∀ s ∈ settings, s.rule = Rule.BeforeColon.rule) ∧
      Utf8.IsBoundary source 9 ∧ Utf8.IsBoundary source 12 ∧
      ((SourceFile.ofSource (utf8 "a.js") source).position 9).key
        < ((SourceFile.ofSource (utf8 "a.js") source).position 12).key ∧
      (run file settings).map (fun f ↦ (f.position, f.endPosition))
        = [(⟨1, 9⟩, ⟨1, 10⟩), (⟨2, 3⟩, ⟨2, 5⟩)] ∧
      (∀ f ∈ run file settings, f.position.key ≤ f.endPosition.key) ∧
      (run file settings).Pairwise fun f g ↦ f.position.key ≤ g.position.key := by
  intro source settings
  have hsettings : ∀ s ∈ settings, s.rule = Rule.BeforeColon.rule := by simp [settings]
  have hnine : Utf8.IsBoundary source 9 :=
    ⟨(Utf8.scalars source).take 8, List.take_prefix _ _, by decide⟩
  have htwelve : Utf8.IsBoundary source 12 :=
    ⟨(Utf8.scalars source).take 9, List.take_prefix _ _, by decide⟩
  have hpositions : ((SourceFile.parse (utf8 "a.js") source).toOption.map fun file ↦
      (run file settings).map fun f ↦ (f.position, f.endPosition))
        = some [(⟨1, 9⟩, ⟨1, 10⟩), (⟨2, 3⟩, ⟨2, 5⟩)] := by decide +kernel
  obtain ⟨hascend, hreports⟩ := positions_ascend (utf8 "a.js") source
  cases hfile : SourceFile.parse (utf8 "a.js") source with
  | error e => simp [hfile, Except.toOption] at hpositions
  | ok file =>
    refine ⟨file, rfl, hsettings, hnine, htwelve, hascend 9 12 hnine htwelve (by decide), ?_,
      hreports file settings hfile hsettings⟩
    simpa [hfile, Except.toOption] using hpositions

end Lint

end ColonGap
