import ColonGap.Proofs.Choices

/-!
# Fixes are put in all at once

The output of applying fixes is made from left to right, with a cursor at the end of the last
replacement. It comes to the same as a substitution that has no cursor and no order of work
(`substituted`): each offset of the source by itself gives the texts of the replacements that start
there, and then its own byte unless a replacement covers it. So a byte that no replacement covers
is in the output once, and such bytes are there in the order they had.

## Slices within the source

`Bytes.slice` takes what there is, so it does not show whether a slice lies within the source. The
loop is therefore run once more with slices that are refused when their ends are not offsets in
order (`attempt?`), and `apply_substitutes` says that none is. The invariant is `Fits`: the
replacements that are still to be put in lie between the cursor and the end of the source.
-/

namespace ColonGap

namespace Bytes

/-- A slice holds the bytes at its offsets, one after the other. -/
theorem take_drop_eq_flatMap (s : Bytes) (i n : Nat) :
    (s.drop i).take n = (List.range' i n).flatMap fun j ↦ s[j]?.toList := by
  induction n with
  | zero => rfl
  | succ n ih =>
    rw [List.take_add_one, ih, List.range'_1_concat, List.flatMap_append, List.flatMap_singleton,
      List.getElem?_drop]

/-- The bytes from one offset up to another, if these are offsets of the text in order. -/
def slice? (s : Bytes) (start stop : Int) : Option Bytes :=
  if 0 ≤ start ∧ start ≤ stop ∧ stop ≤ s.length then some (s.slice start.toNat stop.toNat)
  else none

end Bytes

namespace Fix

/-! ### One offset at a time -/

/-- Whether a replacement starts at an offset. -/
def startsAt (i : Nat) (r : Replacement) : Bool :=
  r.start == i

/-- Whether the byte at an offset is in the range of a replacement. -/
def covers (i : Nat) (r : Replacement) : Bool :=
  r.start ≤ i && i < r.stop

/-- What comes of an offset: the texts of the replacements that start there, and its byte unless a
replacement covers it. -/
def textAt (source : Bytes) (rs : List Replacement) (i : Nat) : Bytes :=
  (rs.filter (startsAt i)).flatMap (·.text)
    ++ if rs.any (covers i) then [] else source[i]?.toList

/-- The source with all replacements put in at once. The offset behind the last byte counts, since
there may be insertions at it. -/
def substituted (source : Bytes) (rs : List Replacement) : Bytes :=
  (List.range (source.length + 1)).flatMap (textAt source rs)

/-- Replacements that fit start behind what is done. -/
theorem Fits.le_start {done limit : Nat} {rs : List Replacement} (h : Fits done limit rs) :
    ∀ r ∈ rs, (done : Int) ≤ r.start := by
  induction rs generalizing done with
  | nil => simp
  | cons r rs ih =>
    obtain ⟨hstart, hstop, hrest⟩ := h
    intro s hs
    rcases List.mem_cons.1 hs with rfl | hs
    · exact hstart
    · have := ih hrest s hs
      omega

/-- The offsets of a stretch that is cut in two. -/
theorem range'_split {i j k : Nat} (hij : i ≤ j) (hjk : j ≤ k) :
    List.range' i (k - i) = List.range' i (j - i) ++ List.range' j (k - j) := by
  have happend := @List.range'_append_1 i (j - i) (k - j)
  rw [Nat.add_sub_cancel' hij, show j - i + (k - j) = k - i by omega] at happend
  exact happend.symm

section TextAt

variable {source : Bytes} {rs : List Replacement} {i : Nat}

/-- Nothing starts at an offset in front of all replacements. -/
theorem filter_startsAt_of_lt (h : ∀ r ∈ rs, (i : Int) < r.start) : rs.filter (startsAt i) = [] :=
  List.filter_eq_nil_iff.2 fun r hr ↦ by
    have := h r hr
    simp only [startsAt, beq_iff_eq]
    omega

/-- In front of the replacements there is only the source. -/
theorem textAt_of_lt (h : ∀ r ∈ rs, (i : Int) < r.start) :
    textAt source rs i = source[i]?.toList := by
  have hbare : rs.any (covers i) = false :=
    List.any_eq_false.2 fun r hr ↦ by
      have := h r hr
      simp only [covers, Bool.and_eq_true, decide_eq_true_eq]
      omega
  rw [textAt, filter_startsAt_of_lt h, hbare]
  rfl

/-- From the start of a replacement on, its text comes first, and nothing more until its end. -/
theorem textAt_cons {p q : Nat} {text : Bytes} (hp : p ≤ i) (h : ∀ s ∈ rs, (q : Int) ≤ s.start) :
    textAt source (⟨p, q, text⟩ :: rs) i
      = (if p = i then text else []) ++ if i < q then [] else textAt source rs i := by
  have hstarts : ((⟨p, q, text⟩ :: rs).filter (startsAt i)).flatMap (·.text)
      = (if p = i then text else []) ++ (rs.filter (startsAt i)).flatMap (·.text) := by
    rw [List.filter_cons]
    by_cases hpi : p = i <;> simp [startsAt, hpi]
  rw [textAt, hstarts, List.append_assoc, List.any_cons]
  congr 1
  by_cases hiq : i < q
  · have hnone : rs.filter (startsAt i) = [] :=
      filter_startsAt_of_lt fun s hs ↦ by
        have := h s hs
        omega
    simp [hnone, covers, hp, hiq]
  · simp [textAt, covers, hiq]

/-- A replacement at the start of a stretch: its text comes first, what it covers is left out. -/
theorem flatMap_textAt_cons {p q n : Nat} {text : Bytes} (hpq : p ≤ q) (hqn : q ≤ n)
    (h : ∀ s ∈ rs, (q : Int) ≤ s.start) :
    (List.range' p (n + 1 - p)).flatMap (textAt source (⟨p, q, text⟩ :: rs))
      = text ++ (List.range' q (n + 1 - q)).flatMap (textAt source rs) := by
  have htail : ∀ i ∈ List.range' (p + 1) (n - p),
      textAt source (⟨p, q, text⟩ :: rs) i = if i < q then [] else textAt source rs i :=
    fun i hi ↦ by
      have hlt : p < i := (List.mem_range'_1.1 hi).1
      rw [textAt_cons hlt.le h, if_neg hlt.ne, List.nil_append]
  have hcovered : (List.range' p (q - p)).flatMap
      (fun i ↦ if i < q then [] else textAt source rs i) = [] :=
    List.flatMap_eq_nil_iff.2 fun i hi ↦ if_pos (by
      have := (List.mem_range'_1.1 hi).2
      omega)
  have hbehind : (List.range' q (n + 1 - q)).flatMap
      (fun i ↦ if i < q then [] else textAt source rs i)
        = (List.range' q (n + 1 - q)).flatMap (textAt source rs) :=
    List.flatMap_congr fun i hi ↦ if_neg (by
      have := (List.mem_range'_1.1 hi).1
      omega)
  calc (List.range' p (n + 1 - p)).flatMap (textAt source (⟨p, q, text⟩ :: rs))
    _ = text ++ (List.range' p (n + 1 - p)).flatMap
          (fun i ↦ if i < q then [] else textAt source rs i) := by
      rw [show n + 1 - p = n - p + 1 by omega, List.range'_succ, List.flatMap_cons,
        List.flatMap_cons, textAt_cons le_rfl h, if_pos rfl, List.flatMap_congr htail,
        List.append_assoc]
    _ = text ++ (List.range' q (n + 1 - q)).flatMap (textAt source rs) := by
      rw [range'_split hpq (hqn.trans (Nat.le_succ n)), List.flatMap_append, hcovered, hbehind,
        List.nil_append]

end TextAt

/-- A patch from an offset on, offset by offset. -/
theorem patch_eq_flatMap {source : Bytes} {done : Nat} {rs : List Replacement}
    (h : Fits done source.length rs) :
    patch source done rs
      = (List.range' done (source.length + 1 - done)).flatMap (textAt source rs) := by
  induction rs generalizing done with
  | nil =>
    have htake : source.drop done = (source.drop done).take (source.length + 1 - done) := by
      rw [List.take_of_length_le]
      rw [List.length_drop]
      omega
    rw [patch, htake, Bytes.take_drop_eq_flatMap]
    exact List.flatMap_congr fun i _ ↦ (textAt_of_lt (by simp)).symm
  | cons r rs ih =>
    obtain ⟨start, stop, text⟩ := r
    obtain ⟨hstart, hstop, hrest⟩ := h
    dsimp only at hstart hstop hrest
    lift start to Nat using by omega with p
    lift stop to Nat using by omega with q
    rw [Int.toNat_natCast] at hrest
    have hqn := hrest.le
    have hbehind := hrest.le_start
    -- Up to the replacement the bytes are kept.
    have hkept : source.slice done p
        = (List.range' done (p - done)).flatMap (textAt source (⟨p, q, text⟩ :: rs)) := by
      rw [Bytes.slice, Bytes.take_drop_eq_flatMap]
      refine List.flatMap_congr fun i hi ↦ (textAt_of_lt fun s hs ↦ ?_).symm
      have hi := (List.mem_range'_1.1 hi).2
      rcases List.mem_cons.1 hs with rfl | hs
      · dsimp only
        omega
      · have := hbehind s hs
        omega
    have hdone : done ≤ p := by omega
    have hpq : p ≤ q := by omega
    rw [patch, Int.toNat_natCast, Int.toNat_natCast, hkept, ih hrest,
      range'_split hdone (by omega : p ≤ source.length + 1), List.flatMap_append,
      flatMap_textAt_cons hpq hqn hbehind, List.append_assoc]

/-- **Putting replacements in one behind the other puts them in all at once.** -/
theorem patch_eq_substituted {source : Bytes} {rs : List Replacement}
    (h : Fits 0 source.length rs) : patch source 0 rs = substituted source rs := by
  rw [patch_eq_flatMap h, substituted, List.range_eq_range', Nat.sub_zero]

/-! ### Slices that may be refused -/

/-- Apply replacements in order, as `applyFrom` does, unless a slice is out of range. -/
def attemptFrom? (source : Bytes) (done : Int) (previous : Option Replacement) :
    List (Failure × Replacement) → Option Outcome
  | [] => (source.slice? done source.length).map (⟨·, [], []⟩)
  | (f, r) :: items =>
    if previous.any fun p ↦ conflicts p r then
      (attemptFrom? source done previous items).map fun rest ↦
        { rest with skipped := f :: rest.skipped }
    else do
      let before ← source.slice? done r.start
      let rest ← attemptFrom? source r.stop (some r) items
      some ⟨before ++ r.text ++ rest.output, f :: rest.applied, rest.skipped⟩

/-- Apply the replacements of failures to a source, unless a slice is out of range. -/
def attempt? (source : Bytes) (failures : List Failure) : Option Outcome :=
  attemptFrom? source 0 none (ordered source failures)

/-- No slice is refused if the replacements that are put in lie between the cursor and the end. -/
theorem attemptFrom?_eq {source : Bytes} {done : Nat} {previous : Option Replacement}
    {items : List (Failure × Replacement)}
    (h : Fits done source.length ((chosen Prod.snd previous items).map Prod.snd)) :
    attemptFrom? source done previous items = some (applyFrom source done previous items) := by
  induction items generalizing done previous with
  | nil =>
    have hdone : done ≤ source.length := h
    rw [attemptFrom?, Bytes.slice?, if_pos (by omega), applyFrom, Bytes.slice, Int.toNat_natCast,
      Int.toNat_natCast, List.take_of_length_le (by simp)]
    rfl
  | cons item items ih =>
    obtain ⟨f, r⟩ := item
    rw [chosen] at h
    rw [attemptFrom?, applyFrom]
    split
    case isTrue hconflict =>
      rw [if_pos hconflict] at h
      rw [ih h]
      rfl
    case isFalse hfree =>
      rw [if_neg hfree] at h
      obtain ⟨hstart, hstop, hrest⟩ := h
      have hlimit := hrest.le
      dsimp only at hstart hstop hrest hlimit
      have hnext : (r.stop.toNat : Int) = r.stop := Int.toNat_of_nonneg (by omega)
      have hslice : source.slice? done r.start = some (source.slice done r.start.toNat) := by
        rw [Bytes.slice?, if_pos (by omega), Int.toNat_natCast]
      have hrest := ih hrest
      rw [hnext] at hrest
      rw [hslice, hrest]
      rfl

/-! ### Applying is substituting -/

/-- **Applying fixes is simultaneous substitution.** The replacements of the failures that are
applied lie within the source one behind the other; the output is what lies in front of, between and
behind them, with their texts in place of the ranges; it is the same as all of them put in at once;
and no slice that is taken on the way is out of range. -/
theorem apply_substitutes (source : Bytes) (failures : List Failure) :
    ∃ rs : List Replacement,
      (apply source failures).applied.map (·.fix) = rs.map some ∧
      Fits 0 source.length rs ∧
      (apply source failures).output = patch source 0 rs ∧
      (apply source failures).output = substituted source rs ∧
      attempt? source failures = some (apply source failures) := by
  have hfits := fits_applied source failures
  have houtput := output_apply source failures
  refine ⟨applied source failures, map_fix_applied source failures, hfits, houtput, ?_, ?_⟩
  · rw [houtput, patch_eq_substituted hfits]
  · rw [applied, ← map_chosen] at hfits
    exact attemptFrom?_eq hfits

end Fix

end ColonGap
