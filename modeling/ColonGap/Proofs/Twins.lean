import ColonGap.Proofs.Ends
import ColonGap.Script.Parser.Basic

/-!
# Two parsers side by side

Two parsers run on the two texts of a `Respacing`. `Joint` is what their states have in common: the
current token and its places, the place of the lexer, the scope, and whether an error has been
found. `Twin` says that two states have it in common.

A `Spec` is about two parsing steps, one for each side: from states with a given joint state, both
come to states that have a joint state again, and the results are related. Its rules follow the way
that steps are put together, so that a production is dealt with line by line.

## Shape decisions

* **The joint state is a value.** What a step does is a relation between joint states, and the pair
  of states does not show up beyond this file.
* **The trace is a ghost.** The joint state lists the tokens that have been passed in this reading,
  the last one first. Returning to a mark returns to its trace, so that the tokens of a trace never
  overlap.
* **After an error only control flow matters.** What was read may be dropped and read again, so both
  sides must go the same way; but places are recorded for readings without errors only.
-/

namespace ColonGap.Script

open Piece

/-- The tokens passed in a reading, each from where it starts to where it ends, last one first. -/
abbrev Trace := List (List Piece × List Piece)

/-- The end of the last token of a trace. -/
def Trace.stop (z : Respacing) : Trace → List Piece
  | [] => z.pieces
  | (_, qs) :: _ => qs

/-- The tokens of a trace follow one another, and none of them starts with a gap. -/
def Trace.Chain (z : Respacing) : Trace → Prop
  | [] => True
  | (ps, qs) :: trace =>
    startsGap ps = false ∧ qs <:+ ps ∧ ps <:+ Trace.stop z trace ∧ Trace.Chain z trace

/-- What the states of two parsers have in common. -/
structure Joint where
  /-- An error has been found. -/
  dirty : Bool
  trace : Trace
  /-- The current token. -/
  token : Token
  /-- Where the current token starts. -/
  place : List Piece
  /-- Where the current token ends. -/
  stop : List Piece
  /-- Where the lexers stand. -/
  ahead : List Piece
  implicit : Bool
  scope : Scope

variable {z : Respacing} {j j' : Joint}

namespace Joint

/-- The end of the token before the current one. -/
def last (z : Respacing) (j : Joint) : List Piece :=
  Trace.stop z j.trace

/-- The words that the scope reserves. -/
def reserved (j : Joint) : Reserved :=
  ⟨j.scope.allowAwait, j.scope.allowYield⟩

end Joint

/-- A token that starts at the given place may be the next one of a trace. -/
structure Trace.Follows (z : Respacing) (trace : Trace) (place : List Piece) : Prop where
  chain : Trace.Chain z trace
  suffix : place <:+ Trace.stop z trace
  joined : place ≠ [] → Trace.stop z trace ≠ z.pieces → Joined z (Trace.stop z trace) place

/-- Two lexemes and two lexers have the current token and their place in common. -/
structure Holds (z : Respacing) (j : Joint) (x : Side → Lexeme) (l : Side → Lexer) : Prop where
  lexes : Lexes z x j.token j.place j.stop
  paces : Paces z j.dirty j.ahead fun i ↦ (l i).reader
  insert : ∃ b, ∀ i, (l i).insertSemicolon = b
  implicit : ∀ i, (l i).implicitSemicolon = j.implicit
  ahead : j.ahead <:+ j.stop
  joined : Joined z j.stop j.ahead
  follows : j.dirty = false → Trace.Follows z j.trace j.place

theorem Holds.inScope {x : Side → Lexeme} {l : Side → Lexer} (h : Holds z j x l) (scope : Scope) :
    Holds z { j with scope := scope } x l :=
  ⟨h.lexes, h.paces, h.insert, h.implicit, h.ahead, h.joined, h.follows⟩

theorem allows_of_mem_punctuators (reserved : Reserved) :
    ∀ p ∈ Token.punctuators, reserved.allows p.2 = false := by
  obtain ⟨await, yield⟩ := reserved
  cases await <;> cases yield <;> decide +kernel

/-- A word that can name a variable, taken for a name. -/
theorem Lexes.bind {x : Side → Lexeme} {t : Token} {ps qs : List Piece} (h : Lexes z x t ps qs)
    {reserved : Reserved} (ht : reserved.allows t = true) :
    Lexes z (fun i ↦ { x i with token := .identifier }) .identifier ps qs := by
  refine ⟨h.suffix, h.front, fun _ ↦ rfl, h.start, h.tail, ?_⟩
  cases h.spelt with
  | word _ hgs hword hform hcount _ hname hraw =>
    exact .word rfl hgs hword hform hcount (.inl rfl) hname hraw
  | mark hs =>
    rw [allows_of_mem_punctuators reserved _ hs] at ht
    exact absurd ht Bool.false_ne_true
  | privateName | number | string | endOfInput | illegal =>
    exact absurd ht (by simp [Reserved.allows, Token.isUnreserved])

/-- Two offsets at which skipping has stopped. -/
def Stopped (z : Respacing) (offset : Side → Nat) : Prop :=
  (∀ i, offset i = 0) ∨
    ∃ ps, ps <:+ z.pieces ∧ startsGap ps = false ∧ ∀ i, offset i = z.offset i ps + 1

/-- Behind a place at which no gap starts, offsets are larger on both sides. -/
theorem offset_lt_of_suffix {ps qs : List Piece} (h : qs <:+ ps) (hne : qs ≠ ps)
    (hps : ps <:+ z.pieces) (hgap : startsGap ps = false) (i : Side) :
    z.offset i ps < z.offset i qs := by
  match ps, hgap with
  | [], _ => exact absurd (List.suffix_nil.1 h) hne
  | same g :: ps, _ =>
    have hqs : qs <:+ ps := by
      rcases List.suffix_cons_iff.1 h with h | h
      · exact absurd h hne
      · exact h
    have hmem := mem_glyphs_source hps (i := i) (g := g) (by simp)
    have hpos := Utf8.width_pos_of_mem_glyphs hmem
    have hadd := @Respacing.offset_append z ps [same g] hps i
    have hle := Respacing.offset_le_of_suffix hqs ((List.suffix_cons _ _).trans hps) i
    simp only [List.singleton_append, text_same, text_nil, List.append_nil] at hadd
    rw [Glyph.width] at hpos
    omega

/-- Two places at which no gap starts are compared alike on both sides. -/
theorem offset_le_iff {ps qs : List Piece} (hps : ps <:+ z.pieces) (hqs : qs <:+ z.pieces)
    (hpgap : startsGap ps = false) (i : Side) :
    z.offset i qs ≤ z.offset i ps ↔ ps <:+ qs := by
  rcases List.suffix_or_suffix_of_suffix hps hqs with h | h
  · exact iff_of_true (Respacing.offset_le_of_suffix h hqs i) h
  · refine ⟨fun hle ↦ ?_, fun h ↦ Respacing.offset_le_of_suffix h hqs i⟩
    by_cases hne : qs = ps
    · exact hne ▸ List.suffix_rfl
    · exact absurd (offset_lt_of_suffix h hne hps hpgap i) (by omega)

/-- Two states have what surrounds the current token in common. -/
structure Level (z : Respacing) (scope : Scope) (s : Side → ParserState) : Prop where
  source : ∀ i, (s i).source = z.source i
  scope : ∀ i, (s i).scope = scope
  outer : ∃ outer, ∀ i, (s i).outer = outer
  stops : ∃ stops, ∀ i, (s i).stops = stops
  stopped : Stopped z fun i ↦ (s i).stoppedAt
  budget : ∃ budget, ∀ i, (s i).budget = budget

/-- Two states have a joint state. -/
structure Twin (z : Respacing) (j : Joint) (s : Side → ParserState) : Prop where
  holds : Holds z j (fun i ↦ (s i).lexeme) fun i ↦ (s i).lexer
  level : Level z j.scope s

/-- States that take on a lexeme and a lexer are twins if these are. -/
theorem Twin.step {s s' : Side → ParserState} (h : Twin z j s)
    (hlevel : ∀ i, s' i = { s i with lexeme := (s' i).lexeme, lexer := (s' i).lexer })
    (hholds : Holds z j' (fun i ↦ (s' i).lexeme) fun i ↦ (s' i).lexer)
    (hscope : j'.scope = j.scope) : Twin z j' s' := by
  obtain ⟨hsource, hscopes, ⟨outer, houter⟩, ⟨stops, hstops⟩, hstopped, budget, hbudget⟩ := h.level
  have hstoppedAt : (fun i ↦ (s' i).stoppedAt) = fun i ↦ (s i).stoppedAt := by
    funext i
    rw [hlevel]
  refine ⟨hholds, fun i ↦ ?_, fun i ↦ ?_, ⟨outer, fun i ↦ ?_⟩, ⟨stops, fun i ↦ ?_⟩,
    hstoppedAt ▸ hstopped, budget, fun i ↦ ?_⟩
  · rw [hlevel, ← hsource i]
  · rw [hlevel, hscope, ← hscopes i]
  · rw [hlevel, ← houter i]
  · rw [hlevel, ← hstops i]
  · rw [hlevel, ← hbudget i]

/-- What holds of a joint state, whichever states have it. -/
def Sound (z : Respacing) (j : Joint) : Prop :=
  ∃ x l, Holds z j x l

theorem Twin.sound {s : Side → ParserState} (h : Twin z j s) : Sound z j :=
  ⟨_, _, h.holds⟩

/-- The current token has been passed up to `rs`. -/
structure Skipped (j : Joint) (rs : List Piece) (j' : Joint) : Prop where
  clean : j'.dirty = false → j.dirty = false
  trace : j'.trace = (j.place, rs) :: j.trace
  place : j'.place <:+ j.place
  scope : j'.scope = j.scope

/-- The current token has been passed. -/
abbrev Passed (j j' : Joint) : Prop :=
  Skipped j j.stop j'

/-- From lexers that stand behind a token, up to trivia, the next token is found. -/
theorem exists_scan_behind {l : Side → Lexer} {dirty : Bool} {rs ts : List Piece}
    (hpaces : Paces z dirty ts fun i ↦ (l i).reader)
    (hinsert : ∃ b, ∀ i, (l i).insertSemicolon = b) (hdirty : dirty = false → j.dirty = false)
    (hts : ts <:+ rs) (hjoined : Joined z rs ts) (hrs : rs <:+ j.place) (hsound : Sound z j)
    (reserved : Reserved) :
    ∃ j', Skipped j rs j' ∧ (j'.dirty = false → dirty = false) ∧
      Holds z j' (fun i ↦ ((l i).scan reserved).1) fun i ↦ ((l i).scan reserved).2 := by
  obtain ⟨x, l', h⟩ := hsound
  obtain ⟨insert, hinsert⟩ := hinsert
  obtain ⟨dirty', t, qs, us, vs, insert', implicit', hscan, hqs, hjoined'⟩ :=
    Script.exists_scan hpaces hinsert reserved
  have hclean : dirty' = false → dirty = false := fun hd ↦ by
    cases hj : dirty with
    | false => rfl
    | true => rw [hscan.mono hj] at hd; exact absurd hd (by simp)
  refine ⟨⟨dirty', (j.place, rs) :: j.trace, t, qs, us, vs, implicit', j.scope⟩,
    ⟨fun hd ↦ hdirty (hclean hd), rfl, hqs.trans (hts.trans hrs), rfl⟩, hclean, ⟨hscan.lexes, hscan.paces,
    ⟨insert', hscan.insert⟩, hscan.implicit, hscan.suffix, hscan.joined, fun hd ↦ ?_⟩⟩
  have hfollows := h.follows (hdirty (hclean hd))
  refine ⟨⟨h.lexes.front, hrs, hfollows.suffix, hfollows.chain⟩, hqs.trans hts,
    fun hne hlate ↦ hjoined.trans (hjoined' hd hne fun heq ↦ hlate ?_)⟩
  exact (hrs.trans h.lexes.suffix).eq_of_length_le (heq ▸ hts.length_le)

/-- Behind the current token the next one is found. -/
theorem Holds.exists_scan {x : Side → Lexeme} {l : Side → Lexer} (h : Holds z j x l)
    (reserved : Reserved) :
    ∃ j', Passed j j' ∧ Holds z j' (fun i ↦ ((l i).scan reserved).1)
      fun i ↦ ((l i).scan reserved).2 := by
  obtain ⟨j', hpassed, -, hholds⟩ := exists_scan_behind h.paces h.insert id h.ahead h.joined
    h.lexes.spelt.suffix ⟨x, l, h⟩ reserved
  exact ⟨j', hpassed, hholds⟩

/-- **Two steps.** From states with the joint state `j`, both sides come to states that have a joint
state again, and the results satisfy `Q` with it. -/
def Spec (z : Respacing) (j : Joint) {α : Type} (m : Side → Parse α)
    (Q : (Side → α) → Joint → Prop) : Prop :=
  ∀ s, Twin z j s → ∃ j', Twin z j' (fun i ↦ ((m i).run (s i)).2) ∧
    Q (fun i ↦ ((m i).run (s i)).1) j'

namespace Spec

variable {α β : Type} {m : Side → Parse α} {f : Side → α → Parse β}
  {Q : (Side → α) → Joint → Prop} {R : (Side → β) → Joint → Prop}

/-! ### How steps are put together -/

theorem pure {a : Side → α} (h : Q a j) : Spec z j (fun i ↦ Pure.pure (a i)) Q :=
  fun _ hs ↦ ⟨j, hs, h⟩

/-- Steps are put together: what the first ones come to is where the second ones start. -/
theorem bind (h : Spec z j m Q)
    (hf : ∀ a j', Sound z j' → Q a j' → Spec z j' (fun i ↦ f i (a i)) R) :
    Spec z j (fun i ↦ m i >>= f i) R := by
  intro s hs
  obtain ⟨j', hs', hQ⟩ := h s hs
  exact hf _ j' hs'.sound hQ _ hs'

/-- What two steps are known to do may be weakened. -/
theorem mono {Q' : (Side → α) → Joint → Prop} (h : Spec z j m Q)
    (hQ : ∀ a j', Sound z j' → Q a j' → Q' a j') : Spec z j m Q' := by
  intro s hs
  obtain ⟨j', hs', hQ'⟩ := h s hs
  exact ⟨j', hs', hQ _ j' hs'.sound hQ'⟩

/-- A joint state may be taken to be sound. -/
theorem of_sound (h : Sound z j → Spec z j m Q) : Spec z j m Q :=
  fun s hs ↦ h hs.sound s hs

theorem of_eq {n : Side → Parse α} (heq : ∀ i, m i = n i) (h : Spec z j n Q) :
    Spec z j m Q := by
  obtain rfl : m = n := funext heq
  exact h

/-- A step that reads from the states. -/
theorem read {g : Side → ParserState → α} (hm : ∀ i s, (m i).run s = (g i s, s))
    (h : ∀ s, Twin z j s → Spec z j (fun i ↦ f i (g i (s i))) R) :
    Spec z j (fun i ↦ m i >>= f i) R := by
  intro s hs
  obtain ⟨j', hs', hR⟩ := h s hs s hs
  have hrun : ∀ i, (m i >>= f i).run (s i) = (f i (g i (s i))).run (s i) := fun i ↦ by
    rw [StateT.run_bind, hm]
    rfl
  exact ⟨j', by simpa only [hrun] using hs', by simpa only [hrun] using hR⟩

/-- A step that changes the states. -/
theorem write {k : Joint} {a : Side → α} {g : Side → ParserState → ParserState}
    (hm : ∀ i s, (m i).run s = (a i, g i s))
    (htwin : ∀ s, Twin z j s → Twin z k fun i ↦ g i (s i))
    (h : Spec z k (fun i ↦ f i (a i)) R) : Spec z j (fun i ↦ m i >>= f i) R := by
  intro s hs
  obtain ⟨j'', hs', hR⟩ := h _ (htwin s hs)
  have hrun : ∀ i, (m i >>= f i).run (s i) = (f i (a i)).run (g i (s i)) := fun i ↦ by
    rw [StateT.run_bind, hm]
    rfl
  exact ⟨j'', by simpa only [hrun] using hs', by simpa only [hrun] using hR⟩

/-- A step on its own. -/
theorem alone (h : Spec z j (fun i ↦ m i >>= Pure.pure) Q) : Spec z j m Q :=
  h

/-! ### Looking at the state -/

section

variable {β : Type} {R : (Side → β) → Joint → Prop}

theorem token {f : Side → Token → Parse β} (h : Spec z j (fun i ↦ f i j.token) R) :
    Spec z j (fun i ↦ Parse.token >>= f i) R := by
  refine read (g := fun _ s ↦ s.lexeme.token) (fun _ _ ↦ rfl) fun s hs ↦ ?_
  simpa only [hs.holds.lexes.token] using h

theorem isAt {t : Token} {f : Side → Bool → Parse β}
    (h : Spec z j (fun i ↦ f i (j.token == t)) R) :
    Spec z j (fun i ↦ Parse.isAt t >>= f i) R := by
  refine read (g := fun _ s ↦ s.lexeme.token == t) (fun _ _ ↦ rfl) fun s hs ↦ ?_
  simpa only [hs.holds.lexes.token] using h

theorem here {f : Side → Nat → Parse β} (h : Spec z j (fun i ↦ f i (z.offset i j.place)) R) :
    Spec z j (fun i ↦ Parse.here >>= f i) R := by
  refine read (g := fun _ s ↦ s.lexeme.start) (fun _ _ ↦ rfl) fun s hs ↦ ?_
  simpa only [hs.holds.lexes.start] using h

theorem lexeme {f : Side → Lexeme → Parse β}
    (h : ∀ x, Lexes z x j.token j.place j.stop → Spec z j (fun i ↦ f i (x i)) R) :
    Spec z j (fun i ↦ Parse.lexeme >>= f i) R :=
  read (g := fun _ s ↦ s.lexeme) (fun _ _ ↦ rfl) fun _ hs ↦ h _ hs.holds.lexes

theorem scope {f : Side → Scope → Parse β} (h : Spec z j (fun i ↦ f i j.scope) R) :
    Spec z j (fun i ↦ Parse.scope >>= f i) R := by
  refine read (g := fun _ s ↦ s.scope) (fun _ _ ↦ rfl) fun s hs ↦ ?_
  simpa only [hs.level.scope] using h

theorem implicitSemicolon {f : Side → Bool → Parse β} (h : Spec z j (fun i ↦ f i j.implicit) R) :
    Spec z j (fun i ↦ Parse.implicitSemicolon >>= f i) R := by
  refine read (g := fun _ s ↦ s.lexer.implicitSemicolon) (fun _ _ ↦ rfl) fun s hs ↦ ?_
  simpa only [hs.holds.implicit] using h

/-- Both sides are without an error or neither is. -/
theorem isClean {f : Side → Bool → Parse β} (h : Spec z j (fun i ↦ f i (!j.dirty)) R) :
    Spec z j (fun i ↦ Parse.isClean >>= f i) R := by
  refine read (g := fun _ s ↦ s.lexer.reader.error.isNone) (fun _ _ ↦ rfl) fun s hs ↦ ?_
  have hclean : ∀ i, (s i).lexer.reader.error.isNone = !j.dirty := fun i ↦ by
    rw [← hs.holds.paces.error i]
    cases (s i).lexer.reader.error <;> rfl
  simpa only [hclean] using h

/-- A token may be bound on both sides or on neither. -/
theorem canBind {t : Token} {f : Side → Bool → Parse β}
    (h : Spec z j (fun i ↦ f i (j.reserved.allows t)) R) :
    Spec z j (fun i ↦ Parse.canBind t >>= f i) R := by
  refine read (g := fun _ s ↦ Reserved.allows ⟨s.scope.allowAwait, s.scope.allowYield⟩ t)
    (fun _ _ ↦ rfl) fun s hs ↦ ?_
  simp only [hs.level.scope]
  exact h

end

/-! ### Changing the state -/

section

variable {β : Type} {f : Side → Unit → Parse β} {R : (Side → β) → Joint → Prop}

/-- Both sides change the scope in the same way. -/
theorem inScope {g : Scope → Scope}
    (h : Spec z { j with scope := g j.scope } (fun i ↦ f i ()) R) :
    Spec z j (fun i ↦ Parse.inScope g >>= f i) R := by
  refine write (k := { j with scope := g j.scope }) (a := fun _ ↦ ())
    (g := fun _ s ↦ { s with scope := g s.scope }) (fun _ _ ↦ rfl) (fun s hs ↦ ?_) h
  refine ⟨hs.holds.inScope _, hs.level.source, fun i ↦ ?_, hs.level.outer, hs.level.stops, hs.level.stopped,
    hs.level.budget⟩
  dsimp only
  rw [hs.level.scope]

/-- Both sides take the implicit semicolon. -/
theorem takeImplicitSemicolon (h : Spec z { j with implicit := false } (fun i ↦ f i ()) R) :
    Spec z j (fun i ↦ Parse.takeImplicitSemicolon >>= f i) R := by
  refine write (k := { j with implicit := false }) (a := fun _ ↦ ())
    (g := fun _ s ↦ { s with lexer := { s.lexer with implicitSemicolon := false } })
    (fun _ _ ↦ rfl) (fun s hs ↦ ?_) h
  exact ⟨{ hs.holds with implicit := fun _ ↦ rfl }, ⟨hs.level.source, hs.level.scope,
    hs.level.outer, hs.level.stops, hs.level.stopped, hs.level.budget⟩⟩

/-- An error is noted; where and which one does not matter. -/
theorem note {place : Side → Option Nat} {cause : Side → Cause}
    (h : Spec z { j with dirty := true } (fun i ↦ f i ()) R) :
    Spec z j (fun i ↦ Parse.note (place i) (cause i) >>= f i) R := by
  refine write (k := { j with dirty := true }) (a := fun _ ↦ ())
    (g := fun i s ↦
      { s with lexer := s.lexer.note ((place i).getD s.lexer.reader.offset) (cause i) })
    (fun _ _ ↦ rfl) (fun s hs ↦ ?_) h
  refine ⟨{ hs.holds with paces := hs.holds.paces.note _ _, follows := by simp }, ?_⟩
  exact ⟨hs.level.source, hs.level.scope, hs.level.outer, hs.level.stops, hs.level.stopped,
    hs.level.budget⟩

/-- An unexpected token is an error on both sides. -/
theorem unexpected {t : Token} (h : Spec z { j with dirty := true } (fun i ↦ f i ()) R) :
    Spec z j (fun i ↦ Parse.unexpected t >>= f i) R := by
  have hnote : ∃ (place : ParserState → Nat) (cause : ParserState → Cause), ∀ s,
      (Parse.unexpected t).run s
        = (Parse.note (place s) (cause s)).run s := by
    cases t <;> exact ⟨_, _, fun _ ↦ rfl⟩
  obtain ⟨place, cause, hrun⟩ := hnote
  refine write (k := { j with dirty := true }) (a := fun _ ↦ ())
    (g := fun i s ↦ { s with lexer := s.lexer.note (place s) (cause s) })
    (fun _ s ↦ hrun s) (fun s hs ↦ ?_) h
  refine ⟨{ hs.holds with paces := hs.holds.paces.note _ _, follows := by simp }, ?_⟩
  exact ⟨hs.level.source, hs.level.scope, hs.level.outer, hs.level.stops, hs.level.stopped,
    hs.level.budget⟩

/-- Moving to the next token keeps twins, and both scan a token of the same kind. -/
theorem exists_next {s : Side → ParserState} (hs : Twin z j s) :
    ∃ j', Passed j j' ∧ Twin z j' (fun i ↦ (Parse.next.run (s i)).2) ∧
      ∀ i, ((s i).lexer.scan j.reserved).1.token = j'.token := by
  obtain ⟨j', hpassed, hholds⟩ := hs.holds.exists_scan j.reserved
  have hrun : ∀ i, (Parse.next.run (s i)).2 = { s i with
      lexeme := ((s i).lexer.scan j.reserved).1, lexer := ((s i).lexer.scan j.reserved).2 } := by
    intro i
    rw [Joint.reserved, ← hs.level.scope i]
    rfl
  refine ⟨j', hpassed, ?_, hholds.lexes.token⟩
  simp only [hrun]
  exact hs.step (fun _ ↦ rfl) hholds hpassed.scope

/-- Both sides move to the next token. -/
theorem next (h : ∀ j', Sound z j' → Passed j j' → Spec z j' (fun i ↦ f i ()) R) :
    Spec z j (fun i ↦ Parse.next >>= f i) R := by
  intro s hs
  obtain ⟨j', hpassed, htwin, -⟩ := exists_next hs
  exact h j' htwin.sound hpassed _ htwin

/-- A step that moves the lexers on before the next token is read. -/
theorem skip {m : Side → Parse β} {f : Side → Parse β} {s : Side → ParserState} (hs : Twin z j s)
    {l : Side → Lexer} (dirty : Bool) (rs : List Piece)
    (hrun : ∀ i, (m i).run (s i) = (Parse.next >>= fun _ ↦ f i).run { s i with lexer := l i })
    (hpaces : Paces z dirty rs fun i ↦ (l i).reader)
    (hinsert : ∃ b, ∀ i, (l i).insertSemicolon = b) (hdirty : dirty = false → j.dirty = false)
    (hrs : rs <:+ j.place)
    (h : ∀ j', Sound z j' → Skipped j rs j' → (j'.dirty = false → dirty = false) →
      Spec z j' f R) :
    ∃ j', Twin z j' (fun i ↦ ((m i).run (s i)).2) ∧ R (fun i ↦ ((m i).run (s i)).1) j' := by
  obtain ⟨j', hskipped, hclean, hholds⟩ := exists_scan_behind hpaces hinsert hdirty List.suffix_rfl
    (joined_refl rs) hrs hs.sound j.reserved
  have hrun' : ∀ i, (m i).run (s i) = (f i).run { s i with
      lexeme := ((l i).scan j.reserved).1, lexer := ((l i).scan j.reserved).2 } := by
    intro i
    rw [hrun, Joint.reserved, ← hs.level.scope i]
    rfl
  have htwin : Twin z j' fun i ↦ { s i with
      lexeme := ((l i).scan j.reserved).1, lexer := ((l i).scan j.reserved).2 } :=
    hs.step (fun _ ↦ rfl) hholds hskipped.scope
  obtain ⟨j'', hs', hR⟩ := h j' htwin.sound hskipped hclean _ htwin
  exact ⟨j'', by simpa only [hrun'] using hs', by simpa only [hrun'] using hR⟩

/-- Both sides see the same token ahead. Without an error, it is the next one. -/
theorem exists_peek {s : Side → ParserState} (hs : Twin z j s) :
    ∃ t dirty, (dirty = false → j.dirty = false) ∧ (∀ i, (Parse.peek.run (s i)).1 = t) ∧
      Twin z { j with dirty := dirty } (fun i ↦ (Parse.peek.run (s i)).2) ∧
      (dirty = false → ∀ i, (((Parse.peek.run (s i)).2).lexer.scan j.reserved).1.token = t) := by
  obtain ⟨j', hpassed, hholds⟩ := hs.holds.exists_scan j.reserved
  let lexer : Side → Lexer := fun i ↦
    { (s i).lexer with
      reader := { (s i).lexer.reader with
        error := ((s i).lexer.scan j.reserved).2.reader.error } }
  have hrun : ∀ i, Parse.peek.run (s i) = (j'.token, { s i with lexer := lexer i }) := by
    intro i
    rw [← hholds.lexes.token i]
    simp only [lexer]
    rw [Joint.reserved, ← hs.level.scope i]
    rfl
  simp only [hrun]
  refine ⟨j'.token, j'.dirty, hpassed.clean, fun _ ↦ rfl, ?_, fun hd i ↦ ?_⟩
  · refine hs.step (fun _ ↦ rfl) ?_ rfl
    have hj := hs.holds
    refine ⟨hj.lexes, ⟨hj.paces.suffix, fun i ↦ ?_, hholds.paces.error⟩, hj.insert, hj.implicit,
      hj.ahead, hj.joined, fun hd ↦ hj.follows (hpassed.clean hd)⟩
    exact ⟨(hj.paces.stands i).rest, (hj.paces.stands i).tail, (hj.paces.stands i).offset⟩
  · -- Without an error, looking ahead leaves the lexer as it is.
    have hbefore := hs.holds.paces.error i
    have hafter := hholds.paces.error i
    rw [hpassed.clean hd, Option.isSome_eq_false_iff, Option.isNone_iff_eq_none] at hbefore
    rw [hd, Option.isSome_eq_false_iff, Option.isNone_iff_eq_none] at hafter
    have hlexer : lexer i = (s i).lexer := by
      simp only [lexer, hafter, ← hbefore]
    rw [hlexer]
    exact hholds.lexes.token i

/-- Both sides look at the next token without moving, which may find an error. -/
theorem peek {f : Side → Token → Parse β}
    (h : ∀ t dirty, (dirty = false → j.dirty = false) →
      Spec z { j with dirty := dirty } (fun i ↦ f i t) R) :
    Spec z j (fun i ↦ Parse.peek >>= f i) R := by
  intro s hs
  obtain ⟨t, dirty, hdirty, hpeek, htwin, -⟩ := exists_peek hs
  have hrun : ∀ i,
      (Parse.peek >>= f i).run (s i) = (f i t).run (Parse.peek.run (s i)).2 := fun i ↦ by
    rw [← hpeek i]
    rfl
  simpa only [hrun] using h t dirty hdirty _ htwin

/-- The token ahead decides whether the current one is passed. -/
theorem peekNext {p : Token → Bool} {m m' : Side → Token → Parse β}
    (h : ∀ t dirty j', (dirty = false → j.dirty = false) → Sound z j' →
      Passed { j with dirty := dirty } j' → p t = true → (j'.dirty = false → j'.token = t) →
      Spec z j' (fun i ↦ m i t) R)
    (h' : ∀ t dirty, (dirty = false → j.dirty = false) → p t = false →
      Spec z { j with dirty := dirty } (fun i ↦ m' i t) R) :
    Spec z j (fun i ↦ Parse.peek >>= fun t ↦
      if p t then Parse.next >>= fun _ ↦ m i t else m' i t) R := by
  intro s hs
  obtain ⟨t, dirty, hdirty, hpeek, htwin, hahead⟩ := exists_peek hs
  have hrun : ∀ i, (Parse.peek >>= fun t ↦
      if p t then Parse.next >>= fun _ ↦ m i t else m' i t).run (s i)
        = (if p t then Parse.next >>= fun _ ↦ m i t else m' i t).run (Parse.peek.run (s i)).2 :=
    fun i ↦ by
      rw [← hpeek i]
      rfl
  simp only [hrun]
  cases hp : p t with
  | true =>
    obtain ⟨j', hpassed, htwin', htoken⟩ := exists_next htwin
    refine h t dirty j' hdirty htwin'.sound hpassed hp (fun hd ↦ ?_) _ htwin'
    exact (htoken .old).symm.trans (hahead (hpassed.clean hd) .old)
  | false => exact h' t dirty hdirty hp _ htwin

/-- Expecting a token passes it, or is an error on both sides. -/
theorem expect_alone (t : Token) :
    Spec z j (fun _ ↦ Parse.expect t) fun a j' ↦ a = (fun i ↦ z.offset i j.place) ∧
      Passed j j' ∧ (j'.dirty = false → j.token = t) := by
  unfold Parse.expect
  refine lexeme fun x hx ↦ ?_
  simp only [hx.token, hx.start]
  split
  · -- The error is noted before the token is passed.
    refine unexpected (next fun j' _ hj' ↦
      pure ⟨rfl, ⟨fun hd ↦ ?_, hj'.trace, hj'.place, hj'.scope⟩, fun hd ↦ ?_⟩)
    · exact absurd (hj'.clean hd) (by simp)
    · exact absurd (hj'.clean hd) (by simp)
  case isFalse ht =>
    refine next fun j' _ hj' ↦ pure ⟨rfl, hj', fun _ ↦ by simpa using ht⟩

/-- What follows an expected token starts behind it, or after an error. -/
theorem expect {t : Token} {f : Side → Nat → Parse β}
    (h : ∀ j', Sound z j' → Passed j j' → (j'.dirty = false → j.token = t) →
      Spec z j' (fun i ↦ f i (z.offset i j.place)) R) :
    Spec z j (fun i ↦ Parse.expect t >>= f i) R := by
  refine bind (expect_alone t) ?_
  rintro a j' hj' ⟨rfl, hpassed, ht⟩
  exact h j' hj' hpassed ht

theorem discard_expect {t : Token}
    (h : ∀ j', Sound z j' → Passed j j' → (j'.dirty = false → j.token = t) →
      Spec z j' (fun i ↦ f i ()) R) :
    Spec z j (fun i ↦ discard (Parse.expect t) >>= f i) R :=
  expect (f := fun i _ ↦ f i ()) h

/-- The joint state after a word that can name a variable has been taken for a name. -/
def bound (j : Joint) : Joint :=
  if j.reserved.allows j.token then { j with token := .identifier } else j

/-- A word that is to be bound is checked on both sides. -/
theorem bindable (h : Spec z (bound j) (fun i ↦ f i ()) R) :
    Spec z j (fun i ↦ Parse.bindable >>= f i) R := by
  refine bind (Q := fun _ j' ↦ j' = bound j) ?_ ?_
  · unfold Parse.bindable
    refine token (canBind ?_)
    unfold bound
    split
    · refine alone (write (a := fun _ ↦ ()) (g := fun _ s ↦ { s with
        lexeme := { s.lexeme with token := .identifier } }) (fun _ _ ↦ rfl) (fun s hs ↦ ?_) (pure rfl))
      have hj := hs.holds
      refine hs.step (fun _ ↦ rfl) ?_ rfl
      exact ⟨hj.lexes.bind ‹_›, hj.paces, hj.insert, hj.implicit, hj.ahead, hj.joined, hj.follows⟩
    · exact pure rfl
  · rintro a j' - rfl
    exact h

/-- Marks of two parsers with a joint state. -/
def Marks (z : Respacing) (j : Joint) (m : Side → Parse.Mark) : Prop :=
  Holds z j (fun i ↦ (m i).1) fun i ↦ (m i).2

theorem mark {f : Side → Parse.Mark → Parse β}
    (h : ∀ m, Marks z j m → Spec z j (fun i ↦ f i (m i)) R) :
    Spec z j (fun i ↦ Parse.mark >>= f i) R :=
  read (g := fun _ s ↦ (s.lexeme, s.lexer)) (fun _ _ ↦ rfl) fun _ hs ↦ h _ hs.holds

/-- Returning to a mark returns to its place, in the scope of the return. -/
theorem restore {m : Side → Parse.Mark} {k : Joint} (hm : Marks z k m)
    (h : Spec z { k with scope := j.scope } (fun i ↦ f i ()) R) :
    Spec z j (fun i ↦ Parse.restore (m i) >>= f i) R := by
  refine write (a := fun _ ↦ ()) (g := fun i s ↦ { s with lexeme := (m i).1, lexer := (m i).2 })
    (fun _ _ ↦ rfl) (fun s hs ↦ ?_) h
  exact hs.step (fun _ ↦ rfl) (Holds.inScope hm _) rfl

end

/-! ### Loops -/

section

variable {α β : Type} {step : Side → α → Parse (α ⊕ β)} {I : (Side → α) → Joint → Prop}
  {Q : (Side → β) → Joint → Prop}

/-- What a round of a loop comes to: another round, or the end. -/
def Round (I : (Side → α) → Joint → Prop) (Q : (Side → β) → Joint → Prop) (r : Side → α ⊕ β)
    (j : Joint) : Prop :=
  (∃ a, r = (fun i ↦ .inl (a i)) ∧ I a j) ∨ ∃ b, r = (fun i ↦ .inr (b i)) ∧ Q b j

theorem pure_inl {a : Side → α} (h : I a j) :
    Spec z j (fun i ↦ Pure.pure (Sum.inl (a i))) (Round I Q) :=
  pure (.inl ⟨a, rfl, h⟩)

theorem pure_inr {b : Side → β} (h : Q b j) :
    Spec z j (fun i ↦ Pure.pure (Sum.inr (b i))) (Round I Q) :=
  pure (.inr ⟨b, rfl, h⟩)

/-- A loop whose rounds keep an invariant ends on both sides with a result, or on neither. -/
theorem loopWith
    (hstep : ∀ a j, Sound z j → I a j → Spec z j (fun i ↦ step i (a i)) (Round I Q)) (n : Nat)
    {a : Side → α} (ha : I a j) :
    Spec z j (fun i ↦ Parse.loopWith (step i) n (a i)) fun r j' ↦
      r = (fun _ ↦ none) ∨ ∃ b, r = (fun i ↦ some (b i)) ∧ Q b j' := by
  induction n generalizing a j with
  | zero => exact pure (.inl rfl)
  | succ n ih =>
    refine of_sound fun hj ↦ bind (hstep a j hj ha) ?_
    rintro r j' - (⟨a', rfl, ha'⟩ | ⟨b, rfl, hb⟩)
    · exact ih ha'
    · exact pure (.inr ⟨b, rfl, hb⟩)

/-- The result of a loop; without one there is an error. -/
def loopResult [Inhabited β] : Option β → Parse β
  | some b => return b
  | none => do
    Parse.note (← get).lexer.reader.offset .tooDeep
    return default

/-- **Loops.** What each round keeps holds of all rounds; that the budget runs out is an error. -/
theorem loop [Inhabited β] {start : Side → α}
    (hstep : ∀ a j, Sound z j → I a j → Spec z j (fun i ↦ step i (a i)) (Round I Q))
    (hstart : I start j) (hbudget : ∀ j', j'.dirty = true → Q (fun _ ↦ default) j') :
    Spec z j (fun i ↦ Parse.loop (start i) (step i)) Q := by
  intro s hs
  obtain ⟨n, hn⟩ := hs.level.budget
  have hloop : Spec z j (fun i ↦ Parse.loopWith (step i) n (start i) >>= loopResult) Q := by
    refine bind (loopWith hstep n hstart) ?_
    rintro r j' - (rfl | ⟨b, rfl, hb⟩)
    · refine read (g := fun _ s ↦ s) (fun _ _ ↦ rfl) fun s _ ↦ ?_
      exact note (pure (hbudget _ rfl))
    · exact pure hb
  have hrun : ∀ i, (Parse.loop (start i) (step i)).run (s i)
      = (Parse.loopWith (step i) n (start i) >>= loopResult).run (s i) := by
    intro i
    rw [← hn i]
    rfl
  simpa only [hrun] using hloop s hs

end

/-! ### Skipping -/

/-- Comparing the current token with the place where skipping has stopped. -/
theorem exists_stopped {ps : List Piece} (hps : ps <:+ z.pieces) (hgap : startsGap ps = false)
    {offset : Side → Nat} (h : Stopped z offset) :
    ∃ again later, (∀ i, (z.offset i ps + 1 == offset i) = again) ∧
      ∀ i, decide (offset i < z.offset i ps + 1) = later := by
  rcases h with h | ⟨qs, hqs, hqgap, h⟩
  · exact ⟨false, true, fun i ↦ by simp [h i], fun i ↦ by simp [h i]⟩
  · classical
    have hle := offset_le_iff hps hqs hgap
    have hge := offset_le_iff hqs hps hqgap
    refine ⟨decide (ps <:+ qs ∧ qs <:+ ps), decide ¬ qs <:+ ps, fun i ↦ ?_, fun i ↦ ?_⟩
    · rw [Bool.eq_iff_iff, beq_iff_eq, decide_eq_true_iff, h, ← hle i, ← hge i]
      omega
    · rw [Bool.eq_iff_iff, decide_eq_true_iff, decide_eq_true_iff, h, ← hge i]
      omega

/-- Passing a token takes no error back. -/
theorem dirty_of_passed (h : Passed j j') (hj : j.dirty = true) : j'.dirty = true := by
  cases hj' : j'.dirty with
  | true => rfl
  | false => rw [h.clean hj'] at hj; exact hj

section

variable {β : Type} {R : (Side → β) → Joint → Prop}

/-- A round of skipping. -/
def skipRound : Parse (Unit ⊕ Unit) := do
  let s ← get
  let place := s.lexeme.start + 1
  if s.lexeme.token == .endOfInput then return .inr ()
  else if Parse.isSynchronizing s.lexeme.token && place == s.stoppedAt && s.stops < 10 then
    set { s with stops := s.stops + 1 }
    return .inr ()
  else if Parse.isSynchronizing s.lexeme.token && s.stoppedAt < place then
    set { s with stoppedAt := place, stops := 0 }
    return .inr ()
  else
    Parse.next
    return .inl ()

/-- A round of skipping ends at the end, or at a word that starts a statement, and moves on
otherwise. -/
theorem run_skipRound (s : ParserState) :
    skipRound.run s
      = if s.lexeme.token == .endOfInput then (.inr (), s)
        else if Parse.isSynchronizing s.lexeme.token && s.lexeme.start + 1 == s.stoppedAt
            && s.stops < 10 then (.inr (), { s with stops := s.stops + 1 })
        else if Parse.isSynchronizing s.lexeme.token && s.stoppedAt < s.lexeme.start + 1 then
          (.inr (), { s with stoppedAt := s.lexeme.start + 1, stops := 0 })
        else (do Parse.next; return .inl () : Parse (Unit ⊕ Unit)).run s := by
  change (if s.lexeme.token == .endOfInput then _ else if _ then _ else if _ then _ else _ :
    Parse (Unit ⊕ Unit)).run s = _
  by_cases hend : s.lexeme.token == .endOfInput
  · rw [if_pos hend, if_pos hend]
    rfl
  rw [if_neg hend, if_neg hend]
  by_cases hagain : Parse.isSynchronizing s.lexeme.token && s.lexeme.start + 1 == s.stoppedAt
      && s.stops < 10
  · rw [if_pos hagain, if_pos hagain]
    rfl
  rw [if_neg hagain, if_neg hagain]
  by_cases hlater : Parse.isSynchronizing s.lexeme.token && s.stoppedAt < s.lexeme.start + 1
  · rw [if_pos hlater, if_pos hlater]
    rfl
  · rw [if_neg hlater, if_neg hlater]

/-- Both sides skip to the same place. -/
theorem nextStatement_alone (hj : j.dirty = true) :
    Spec z j (fun _ ↦ Parse.nextStatement) fun _ j' ↦ j'.dirty = true := by
  refine @loop z j Unit Unit (fun _ _ ↦ skipRound) (fun _ j' ↦ j'.dirty = true) _ _ _
    (fun _ j' _ hj' ↦ ?_) hj fun _ h ↦ h
  intro s hs
  have hx := hs.holds.lexes
  obtain ⟨stops, hstops⟩ := hs.level.stops
  obtain ⟨again, later, hagain, hlater⟩ := exists_stopped hx.suffix hx.front hs.level.stopped
  have hlevel : ∀ (n : Nat), Twin z j' (fun i ↦ { s i with stops := n }) ∧
      Twin z j' fun i ↦ { s i with stoppedAt := z.offset i j'.place + 1, stops := n } := fun n ↦
    ⟨⟨hs.holds, hs.level.source, hs.level.scope, hs.level.outer, ⟨n, fun _ ↦ rfl⟩,
        hs.level.stopped, hs.level.budget⟩,
      ⟨hs.holds, hs.level.source, hs.level.scope, hs.level.outer, ⟨n, fun _ ↦ rfl⟩,
        .inr ⟨_, hx.suffix, hx.front, fun _ ↦ rfl⟩, hs.level.budget⟩⟩
  have hnext : Spec z j' (fun _ ↦ (do
      Parse.next
      return .inl () : Parse (Unit ⊕ Unit)))
      (Round (fun _ j' ↦ j'.dirty = true) fun _ j' ↦ j'.dirty = true) :=
    next fun j'' _ hpassed ↦ pure_inl (dirty_of_passed hpassed hj')
  simp only [run_skipRound, hx.token, hx.start, hstops, hagain, hlater]
  -- Both sides take the same branch.
  split
  · exact ⟨j', hs, .inr ⟨_, rfl, hj'⟩⟩
  split
  · exact ⟨j', (hlevel _).1, .inr ⟨_, rfl, hj'⟩⟩
  split
  · exact ⟨j', (hlevel _).2, .inr ⟨_, rfl, hj'⟩⟩
  · exact hnext s hs

theorem nextStatement {f : Side → Unit → Parse β} (hj : j.dirty = true)
    (h : ∀ j', j'.dirty = true → Spec z j' (fun i ↦ f i ()) R) :
    Spec z j (fun i ↦ Parse.nextStatement >>= f i) R :=
  bind (nextStatement_alone hj) fun _ j' _ hj' ↦ h j' hj'

end

end Spec

end ColonGap.Script
