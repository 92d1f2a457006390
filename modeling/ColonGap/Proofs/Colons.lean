import ColonGap.Proofs.Location
import ColonGap.Proofs.Scripts

/-!
# The colon that is found is the colon of the entry

The parser knows the colon of a `key: value` entry as a token, and the search knows it as the first
colon behind blanks, comments and closing brackets. If the recorded end of the key is exact, then
both are the same one (`colon_found`).

## Two ways to miss it

* **A parenthesis.** A `new` with an empty list of arguments is recorded to end before the list,
  and the search does not pass an opening parenthesis.
* **The next-line control.** It separates tokens, but it is no blank to the search.

In both cases no colon is found. No colon but that of the entry is ever found
(`Ended.eq_of_passes`), because from any offset there is only one way to go on
(`Gap.Passes.unique`).
-/

namespace ColonGap

namespace Gap

variable {blank : Nat → Bool} {source s : Bytes} {start closed stop closed' stop' n m : Nat}

/-! ### One way to go on -/

/-- A bracket or a colon. -/
def isBar (b : UInt8) : Bool :=
  b == 58 || b == 40

/-- A separator starts with no closing bracket and with no bar. -/
theorem Separates.head?_separator {b : UInt8} (h : Separates isSeparator s n)
    (hs : s.head? = some b) : isClosing b = false ∧ isBar b = false := by
  have hne : ∀ c : UInt8, c < 0x80 → isSeparator c.toNat = false → c ≠ 47 → b ≠ c := by
    rintro c hc hsep hslash rfl
    cases h with
    | @blank b' rest h =>
      obtain rfl : b' = b := by simpa using hs
      rw [Utf8.ofLead_of_lt hc, hsep] at h
      exact Bool.false_ne_true h
    | line | block => exact hslash (by simpa using hs.symm)
  have h93 := hne 93 (by decide) (by decide) (by decide)
  have h41 := hne 41 (by decide) (by decide) (by decide)
  have h58 := hne 58 (by decide) (by decide) (by decide)
  have h40 := hne 40 (by decide) (by decide) (by decide)
  simp [isClosing, isBar, h93, h41, h58, h40]

theorem isSeparator_slash (rest : Bytes) : isSeparator (Utf8.ofLead 47 rest).code = false := by
  rw [Utf8.ofLead_of_lt (by decide)]
  rfl

/-- A text starts with one separator at most. -/
theorem Separates.width_eq (h : Separates isSeparator s n) (h' : Separates isSeparator s m) :
    n = m := by
  cases h with
  | blank hblank =>
    cases h' with
    | blank => rfl
    | line | block => exact absurd hblank (by simp [isSeparator_slash])
  | line hline =>
    cases h' with
    | blank hblank => exact absurd hblank (by simp [isSeparator_slash])
    | line hline' => exact Option.some.inj (hline.symm.trans hline')
  | block hblock =>
    cases h' with
    | blank hblank => exact absurd hblank (by simp [isSeparator_slash])
    | block hblock' => rw [Option.some.inj (hblock.symm.trans hblock')]

/-- The first item of a passage. -/
theorem Passes.first (h : Passes blank source start closed stop) :
    closed = start ∧ stop = start ∨
      (∃ n c, Separates blank (source.drop start) n ∧ Passes blank source (start + n) c stop ∧
        closed = if c = start + n then start else c) ∨
      ∃ b, source[start]? = some b ∧ isClosing b = true ∧
        Passes blank source (start + 1) closed stop := by
  induction h with
  | refl => exact .inl ⟨rfl, rfl⟩
  | @separator closed stop n h hn ih =>
    rcases ih with ⟨rfl, rfl⟩ | ⟨m, c, hm, hrest, rfl⟩ | ⟨b, hget, hb, hrest⟩
    · exact .inr (.inl ⟨n, _, hn, .refl, by simp⟩)
    · exact .inr (.inl ⟨m, c, hm, hrest.separator hn, rfl⟩)
    · exact .inr (.inr ⟨b, hget, hb, hrest.separator hn⟩)
  | @closing closed stop b h hget hb ih =>
    rcases ih with ⟨rfl, rfl⟩ | ⟨m, c, hm, hrest, -⟩ | ⟨b', hget', hb', hrest⟩
    · exact .inr (.inr ⟨b, hget, hb, .refl⟩)
    · have hle := hrest.start_le
      exact .inr (.inl ⟨m, stop + 1, hm, hrest.closing hget hb, by rw [if_neg (by omega)]⟩)
    · exact .inr (.inr ⟨b', hget', hb', hrest.closing hget hb⟩)

theorem isBar_of_isClosing {b : UInt8} (h : isClosing b = true) : isBar b = false := by
  simp only [isClosing, Bool.or_eq_true, beq_iff_eq] at h
  rcases h with rfl | rfl <;> rfl

/-- Nothing is passed at a bar. -/
theorem Passes.eq_of_bar {b : UInt8} (h : Passes isSeparator source start closed stop)
    (hget : source[start]? = some b) (hb : isBar b = true) : closed = start ∧ stop = start := by
  rcases h.first with h | ⟨n, c, hn, -⟩ | ⟨b', hget', hb', -⟩
  · exact h
  · rw [(hn.head?_separator (List.head?_drop.trans hget)).2] at hb
    exact absurd hb Bool.false_ne_true
  · obtain rfl : b' = b := by simpa [hget'] using hget
    rw [isBar_of_isClosing hb'] at hb
    exact absurd hb Bool.false_ne_true

/-- A passage up to a bar goes on where any other passage has come to. -/
theorem Passes.remaining {b : UInt8} (h : Passes isSeparator source start closed stop)
    (h' : Passes isSeparator source start closed' stop') (hget : source[stop']? = some b)
    (hb : isBar b = true) :
    ∃ c, Passes isSeparator source stop c stop' ∧ closed' = if c = stop then closed else c := by
  induction h with
  | refl => exact ⟨closed', h', by split <;> simp_all⟩
  | @separator closed stop n h hn ih =>
    obtain ⟨c, hc, rfl⟩ := ih
    rcases hc.first with ⟨-, rfl⟩ | ⟨m, d, hm, hrest, rfl⟩ | ⟨b', hget', hb', -⟩
    · rw [(hn.head?_separator (List.head?_drop.trans hget)).2] at hb
      exact absurd hb Bool.false_ne_true
    · obtain rfl := hn.width_eq hm
      have hle := hrest.start_le_closed
      have hpos := hn.pos
      refine ⟨d, hrest, ?_⟩
      by_cases hd : d = stop + n
      · simp [hd]
      · rw [if_neg hd, if_neg (by omega), if_neg hd]
    · rw [(hn.head?_separator (List.head?_drop.trans hget')).1] at hb'
      exact absurd hb' Bool.false_ne_true
  | @closing closed stop b' h hget' hb' ih =>
    obtain ⟨c, hc, rfl⟩ := ih
    rcases hc.first with ⟨-, rfl⟩ | ⟨m, d, hm, -⟩ | ⟨-, -, -, hrest⟩
    · obtain rfl : b' = b := by simpa [hget'] using hget
      rw [isBar_of_isClosing hb'] at hb
      exact absurd hb Bool.false_ne_true
    · rw [(hm.head?_separator (List.head?_drop.trans hget')).1] at hb'
      exact absurd hb' Bool.false_ne_true
    · have hle := hrest.start_le_closed
      refine ⟨c, hrest, ?_⟩
      rw [if_neg (by omega)]
      split
      · assumption
      · rfl

/-- **One way to go on.** There is at most one bar that a passage can come to. -/
theorem Passes.unique {b b' : UInt8} (h : Passes isSeparator source start closed stop)
    (hget : source[stop]? = some b) (hb : isBar b = true)
    (h' : Passes isSeparator source start closed' stop') (hget' : source[stop']? = some b')
    (hb' : isBar b' = true) : closed' = closed ∧ stop' = stop := by
  obtain ⟨c, hc, rfl⟩ := h.remaining h' hget' hb'
  obtain ⟨rfl, rfl⟩ := hc.eq_of_bar hget hb
  exact ⟨if_pos rfl, rfl⟩

/-! ### Separators and blanks -/

/-- The next-line control is written with two bytes. -/
theorem eq_of_nextLine {b : UInt8} {rest : Bytes} (h : (Utf8.ofLead b rest).code = 0x85) :
    ∃ more, b :: rest = 0xC2 :: 0x85 :: more := by
  have hreads := Utf8.reads_ofLead b rest
  generalize Utf8.ofLead b rest = c at hreads h
  cases hreads with
  | ascii hb => dsimp only at h; omega
  | malformed => exact absurd h (by decide)
  | @two c more hrest hb hb' hc hc' =>
    dsimp only at h
    have hlead : b = 0xC2 := UInt8.toNat_inj.1 (by change b.toNat = 0xC2; omega)
    have htail : c = 0x85 := UInt8.toNat_inj.1 (by change c.toNat = 0x85; omega)
    exact ⟨more, by rw [hrest, hlead, htail]⟩
  | three => dsimp only at h; omega
  | four => dsimp only at h; omega

/-- Without the next-line control, what separates tokens is blank. -/
theorem Separates.toBlank (hplain : ¬ [0xC2, 0x85] <:+: s) (h : Separates isSeparator s n) :
    Separates isBlank s n := by
  cases h with
  | @blank b rest h =>
    refine .blank ?_
    rw [isSeparator, Bool.or_eq_true, beq_iff_eq] at h
    refine h.resolve_right fun hcode ↦ hplain ?_
    obtain ⟨more, hmore⟩ := eq_of_nextLine hcode
    rw [hmore]
    exact (List.prefix_append [0xC2, 0x85] more).isInfix
  | line h => exact .line h
  | block h => exact .block h

/-- Without next-line controls, every gap of separators is one of blanks. -/
theorem Passes.toBlank (hplain : ¬ [0xC2, 0x85] <:+: source)
    (h : Passes isSeparator source start closed stop) : Passes isBlank source start closed stop := by
  induction h with
  | refl => exact .refl
  | separator _ hn ih =>
    refine ih.separator (hn.toBlank fun hin ↦ hplain ?_)
    exact hin.trans (List.drop_suffix _ _).isInfix
  | closing _ hget hb ih => exact ih.closing hget hb

theorem Passes.toSeparator (h : Passes isBlank source start closed stop) :
    Passes isSeparator source start closed stop :=
  h.mono fun c hc ↦ by simp [isSeparator, hc]

end Gap

namespace Script

open Piece

variable {z : Respacing} {stop : Side → Nat} {rs qs : List Piece} {g : Glyph}

/-! ### What is behind a key -/

/-- The recorded end of a key lies within the source. -/
theorem Ended.stop_le (h : Ended z stop rs) (i : Side) : stop i ≤ (z.source i).length := by
  obtain ⟨-, ps, -, -, hstop, -⟩ := h
  rw [hstop]
  exact Respacing.offset_le i

/-- From an exact end the gap leads to the colon, unless a parenthesis stands in between. -/
theorem Ended.passes_colon (h : Ended z stop rs) (hjoined : Joined z rs (same g :: qs)) :
    (∀ i, Gap.Passes isSeparator (z.source i) (stop i) (z.offset i rs)
      (z.offset i (same g :: qs))) ∨ Blocked z stop := by
  obtain ⟨-, -, -, -, -, hpasses⟩ := h
  refine hpasses.imp (fun hpasses i ↦ ?_) id
  have htrans := (hpasses i).trans (hjoined i)
  rwa [if_pos rfl] at htrans

/-- If any colon is found behind a key on one side, then on both sides nothing blocks the way to
the colon of the key. -/
theorem Ended.passes_of_passes (h : Ended z stop rs) (hjoined : Joined z rs (same g :: qs))
    {i : Side} {closed colon : Nat}
    (hpass : Gap.Passes isBlank (z.source i) (stop i) closed colon)
    (hcolon : (z.source i)[colon]? = some 58) (j : Side) :
    Gap.Passes isSeparator (z.source j) (stop j) (z.offset j rs) (z.offset j (same g :: qs)) := by
  rcases h.passes_colon hjoined with hpasses | hblocked
  · exact hpasses j
  · obtain ⟨closed', q, hopen, hparen⟩ := hblocked i
    obtain ⟨-, rfl⟩ := hopen.unique hparen rfl hpass.toSeparator hcolon rfl
    rw [hparen] at hcolon
    exact absurd hcolon (by decide)

/-- Whatever colon is found behind a key is its own. -/
theorem Ended.eq_of_passes (h : Ended z stop rs) (hjoined : Joined z rs (same g :: qs))
    (hqs : same g :: qs <:+ z.pieces) (hg : g.code = 58) {i : Side} {closed colon : Nat}
    (hpass : Gap.Passes isBlank (z.source i) (stop i) closed colon)
    (hcolon : (z.source i)[colon]? = some 58) :
    closed = z.offset i rs ∧ colon = z.offset i (same g :: qs) := by
  have hget : (z.source i)[z.offset i (same g :: qs)]? = some 58 := by
    rw [getElem?_offset hqs (by omega), hg]
    rfl
  have hpasses := h.passes_of_passes hjoined hpass hcolon i
  exact hpasses.unique hget rfl hpass.toSeparator hcolon rfl

/-! ### A text by itself -/

/-- A text of single characters is valid. -/
theorem valid_map_same (gs : List Glyph) : Valid (gs.map same) := by
  induction gs with
  | nil => trivial
  | cons g gs ih =>
    refine ⟨fun hgap ↦ ?_, ih⟩
    cases gs with
    | nil => exact absurd hgap Bool.false_ne_true
    | cons => exact absurd hgap Bool.false_ne_true

/-- A text next to itself, without a gap. -/
def still (source : Bytes) : Respacing where
  pieces := (Utf8.glyphs source).map same
  valid := valid_map_same _
  startsGap := by cases Utf8.glyphs source <;> rfl
  cut i := by rw [text_map_same, glyphs_map_same, Utf8.flatMap_bytes_glyphs]

@[simp] theorem source_still (source : Bytes) (i : Side) : (still source).source i = source := by
  rw [Respacing.source, still, text_map_same, Utf8.flatMap_bytes_glyphs]

theorem tame_still (source : Bytes) : Tame (still source) :=
  .inl (.inl (isRigid_map_same _))

theorem mem_entries {program : Program} {kind : ConstructKind} {key value : Expr}
    (h : Occurrence.keyed kind key value ∈ occurrencesInStmts program) :
    (key, value.start) ∈ Tree.entries program := by
  rw [← Tree.entries_inStmts]
  exact List.mem_filterMap.2 ⟨_, h, rfl⟩

theorem Trace.Chain.token_suffix {tr older : Trace} {ps : List Piece} (h : Chain z tr)
    (htoken : (ps, qs) :: older <:+ tr) : ps <:+ z.pieces := by
  have hchain := h.of_suffix htoken
  exact hchain.2.2.1.trans (hchain.2.2.2.stop_suffix (List.nil_suffix : ([] : Trace) <:+ _))

/-- Every entry of a program has a site in the trace. -/
theorem Paired.exists_sited {tr : Trace} {f : Side → List Entry} (h : Paired z tr f) {i : Side}
    {entry : Entry} (hentry : entry ∈ f i) : ∃ e, Sited z tr e ∧ e i = entry := by
  obtain ⟨es, hes, hsited⟩ := h
  rw [hes] at hentry
  obtain ⟨e, he, rfl⟩ := List.mem_map.1 hentry
  exact ⟨e, hsited e he, rfl⟩

/-- The tokens of a script that is accepted. -/
theorem exists_readsScript {source : Bytes} {program : Program} (h : parse source = .ok program) :
    ∃ tr, ReadsScript (still source) (fun _ ↦ program) tr := by
  rcases parse_alike (tame_still source) with ⟨e, he⟩ | ⟨p, tr, hp, hreads⟩
  · have hold := he .old
    rw [source_still, h] at hold
    cases hold
  · obtain rfl : p = fun _ ↦ program := funext fun i ↦ by
      have hi := hp i
      rw [source_still, h] at hi
      exact (Except.ok.inj hi).symm
    exact ⟨tr, hreads⟩

end Script

namespace SourceFile

open Script

variable {source : Bytes} {program : Program} {kind : ConstructKind} {key value : Expr}

/-- **The colon of an entry is found.** A script is accepted in which the next-line control does
not occur, and the recorded end of a key is exact. Then the colon of its entry is found between the
key and the value, unless an opening parenthesis stands behind the key. -/
theorem colon_found (hparse : Script.parse source = .ok program)
    (hplain : ¬ [0xC2, 0x85] <:+: source)
    (hmem : Occurrence.keyed kind key value ∈ occurrencesInStmts program)
    (hexact : key.endsExactly source = true) :
    (∃ p, (constructOf source (.keyed kind key value)).colon? = some p ∧
        (key.start.getD 0 : Int) < p.stop ∧ ∀ n ∈ value.start, p.stop ≤ (n : Int)) ∨
      ∃ closed q, Gap.Passes isBlank source key.stop closed q ∧ source[q]? = some 40 := by
  obtain ⟨tr, hreads⟩ := exists_readsScript hparse
  obtain ⟨e, ⟨older, g, qs, htoken, hg, -, hjoined, ⟨b, hb, hended⟩, hkey, hvalue⟩, he⟩ :=
    hreads.entries.exists_sited (i := .old) (mem_entries hmem)
  have hend := hended (by rw [← hb .old, source_still, he]; exact hexact)
  have hqs : .same g :: qs <:+ (still source).pieces := hreads.chain.token_suffix htoken
  have hstart := hkey .old
  have hbound := hvalue .old
  have hstop := hend.stop_le .old
  rw [he] at hstart hbound hstop
  have hget : ((still source).source .old)[(still source).offset .old (.same g :: qs)]?
      = some 58 := by
    rw [getElem?_offset hqs (by omega), hg]
    rfl
  rw [offset_same hqs (by omega)] at hbound
  rcases hend.passes_colon hjoined with hpasses | hblocked
  · left
    have hpass := hpasses .old
    rw [source_still] at hpass hget hstop
    rw [he] at hpass
    have hfind := hpass.toBlank hplain
    rw [← Nat.min_eq_left hstop] at hfind
    refine ⟨_, colon?_constructOf.2 ⟨_, _, rfl, hfind, hget⟩, ?_, fun n hn ↦ ?_⟩
    · cases hoffset : key.start with
      | none => exact Int.natCast_succ_pos _
      | some n => exact Int.lt_add_one_of_le (Int.ofNat_le.2 (hstart n hoffset))
    · exact Int.ofNat_le.2 (hbound n hn)
  · right
    obtain ⟨closed, q, hpass, hparen⟩ := hblocked .old
    rw [source_still] at hpass hparen
    simp only [he] at hpass
    exact ⟨closed, q, hpass.toBlank hplain, hparen⟩

/-- A computed key in parentheses, with a colon in the comment behind it. -/
theorem colon_found_computed :
    let source := utf8 "x = \x7b[(b)] /* : */ : 1\x7d"
    ∃ program kind key value, Script.parse source = .ok program ∧ ¬ [0xC2, 0x85] <:+: source ∧
      Occurrence.keyed kind key value ∈ occurrencesInStmts program ∧
      key.endsExactly source = true ∧ key.stop = 8 ∧ value.start = some 21 ∧
      ((∃ p, (constructOf source (.keyed kind key value)).colon? = some p ∧
          (key.start.getD 0 : Int) < p.stop ∧ ∀ n ∈ value.start, p.stop ≤ (n : Int)) ∨
        ∃ closed q, Gap.Passes isBlank source key.stop closed q ∧ source[q]? = some 40) := by
  intro source
  have hentries : ((Script.parse source).toOption.map fun program ↦
      (entriesOf (occurrencesInStmts program)).map fun e ↦ (e.1.endsExactly source, e.1.stop, e.2))
        = some [(true, 8, some 21)] := by decide +kernel
  have hplain : ¬ [0xC2, 0x85] <:+: source := by decide +kernel
  cases hparse : Script.parse source with
  | error e => simp [hparse, Except.toOption] at hentries
  | ok program =>
    rw [hparse] at hentries
    have hfacts := Option.some.inj hentries
    obtain ⟨entry, hentry, heq⟩ :=
      List.mem_map.1 (hfacts ▸ List.mem_singleton_self (true, 8, some 21))
    obtain ⟨occurrence, hmem, hoccurrence⟩ := List.mem_filterMap.1 hentry
    cases occurrence with
    | element span => cases hoccurrence
    | keyed kind key value =>
      obtain rfl := Option.some.inj hoccurrence
      simp only [Prod.mk.injEq] at heq
      exact ⟨program, kind, key, value, rfl, hplain, hmem, heq.1, heq.2.1, heq.2.2,
        colon_found hparse hplain hmem heq.1⟩

end SourceFile

end ColonGap
