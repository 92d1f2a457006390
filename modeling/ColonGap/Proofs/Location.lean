import ColonGap.Proofs.Passage
import ColonGap.SourceFile

/-!
# Where the colon of an entry is found

A `key: value` entry is recorded with the colon that a search from the end of its key comes upon.
Whether that is the colon of the entry depends on the end of the key that is recorded.
-/

namespace ColonGap

namespace SourceFile

open Script

/-- The colon of an entry, as the search finds it. -/
theorem colon?_constructOf {source : Bytes} {kind : ConstructKind} {key value : Expr} {p : Part} :
    (constructOf source (.keyed kind key value)).colon? = some p ↔
      ∃ closed colon : Nat, p = ⟨.colon, closed, colon + 1⟩ ∧
        Gap.Passes isBlank source (min key.stop source.length) closed colon ∧
        source[colon]? = some 58 := by
  have hfind : ∀ closed colon : Nat,
      Gap.findColon source ((min key.stop source.length : Nat) : Int) = some (closed, colon) ↔
        Gap.Passes isBlank source (min key.stop source.length) closed colon ∧
          source[colon]? = some 58 :=
    fun closed colon ↦ Gap.findColon_eq_some_iff (Nat.min_le_right _ _)
  simp only [← hfind]
  simp only [constructOf]
  cases hcolon : Gap.findColon source ((min key.stop source.length : Nat) : Int) with
  | none => simp [Construct.colon?]
  | some found =>
    obtain ⟨closed, colon⟩ := found
    have hkey : (PartKind.key == PartKind.colon) = false := rfl
    simp [Construct.colon?, List.find?, hkey, eq_comm]

end SourceFile

end ColonGap
