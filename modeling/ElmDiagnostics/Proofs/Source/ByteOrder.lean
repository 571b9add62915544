import ElmDiagnostics.Source.Uri
import ElmDiagnostics.StableSort
import Mathlib.Tactic.SplitIfs

/-!
Contract: URIs stand in the order of their bytes.

Owns: the bytes of a URI, that a URI comes before another exactly when its bytes do, compared one
after the other, and that sorting follows this order.

Does not own: what stands in a table of URIs.

The order of `Uri` compares texts by code points. UTF-8 keeps that order: a longer code starts with
a larger byte, and codes of one length are digits of the code point, the most significant first.
-/

set_option autoImplicit false

namespace ElmDiagnostics

open String

/-- The text of a URI in UTF-8. -/
def Uri.bytes (uri : Uri) : List UInt8 := uri.text.toList.flatMap utf8EncodeChar

/-! ### One character -/

theorem cons_byte_lt {low high : Nat} {lowRest highRest : List UInt8} (notAbove : low ≤ high)
    (isByte : high < 256) (thenRest : low = high → lowRest < highRest) :
    UInt8.ofNat low :: lowRest < UInt8.ofNat high :: highRest := by
  rw [List.cons_lt_cons_iff]
  by_cases same : low = high
  · exact .inr ⟨congrArg UInt8.ofNat same, thenRest same⟩
  · have below : (UInt8.ofNat low).toNat < (UInt8.ofNat high).toNat := by
      rw [UInt8.toNat_ofNat', UInt8.toNat_ofNat']
      omega
    exact .inl (UInt8.lt_iff_toNat_lt.mpr below)

/-- The code of a smaller character is smaller, whatever follows the two codes. -/
theorem utf8EncodeChar_append_lt {left right : Char} (below : left < right)
    (leftRest rightRest : List UInt8) :
    utf8EncodeChar left ++ leftRest < utf8EncodeChar right ++ rightRest := by
  have pointsBelow : left.val.toNat < right.val.toNat := below
  have pointBound : right.val.toNat < 1114112 := by
    rcases right.valid with low | high
    · exact Nat.lt_trans low (by decide)
    · exact high.2
  dsimp only [utf8EncodeChar]
  generalize left.val.toNat = leftPoint at *
  generalize right.val.toNat = rightPoint at *
  -- Go on as long as the bytes agree. All of them agreeing would make the points equal.
  split_ifs <;> dsimp only [List.cons_append, List.nil_append] <;>
    (repeat refine cons_byte_lt (by omega) (by omega) fun _ => ?_) <;> omega

/-! ### Whole texts -/

theorem utf8_lt_of_lt {left right : List Char} (below : left < right) :
    left.flatMap utf8EncodeChar < right.flatMap utf8EncodeChar := by
  induction left generalizing right with
  | nil =>
      cases right with
      | nil => exact absurd below (List.lt_irrefl _)
      | cons first rest =>
          rw [List.flatMap_nil, List.flatMap_cons]
          obtain ⟨byte, bytes, isCode⟩ := List.exists_cons_of_ne_nil (utf8EncodeChar_ne_nil (c := first))
          rw [isCode, List.cons_append]
          exact List.nil_lt_cons ..
  | cons first rest inductionHypothesis =>
      cases right with
      | nil => exact absurd below (List.not_lt_nil _)
      | cons otherFirst otherRest =>
          rw [List.flatMap_cons, List.flatMap_cons]
          rcases List.cons_lt_cons_iff.mp below with firstBelow | ⟨rfl, restBelow⟩
          · exact utf8EncodeChar_append_lt firstBelow _ _
          · exact List.append_left_lt (inductionHypothesis restBelow)

/-- The order of URIs is the order of their bytes. -/
theorem Uri.lt_iff_bytes_lt (left right : Uri) : left < right ↔ left.bytes < right.bytes := by
  have bytesBelow {first second : Uri} (below : first < second) : first.bytes < second.bytes :=
    utf8_lt_of_lt (String.lt_iff.mp below)
  refine ⟨bytesBelow, fun below => Decidable.byContradiction fun notBelow => ?_⟩
  rcases Std.le_iff_lt_or_eq.mp (Std.not_lt.mp notBelow) with above | same
  · exact List.lt_asymm (bytesBelow above) below
  · rw [same] at below
    exact List.lt_irrefl _ below

/-- Sorting files puts them in the order of their bytes. -/
theorem Uri.stableSort_byteSorted {uris : List Uri} (distinct : uris.Nodup) :
    (stableSort (fun left right => left ≤ right) uris).Pairwise
      fun earlier later => earlier.bytes < later.bytes := by
  have total (first second : Uri) :
      decide (first ≤ second) = true ∨ decide (second ≤ first) = true := by
    rw [decide_eq_true_eq, decide_eq_true_eq]
    exact Std.le_total
  have trans (first second third : Uri) (below : decide (first ≤ second) = true)
      (above : decide (second ≤ third) = true) : decide (first ≤ third) = true :=
    decide_eq_true (Std.le_trans (of_decide_eq_true below) (of_decide_eq_true above))
  have sorted := stableSort_pairwise total trans uris
  have reorders := stableSort_perm (fun left right => left ≤ right) uris
  have stillDistinct := reorders.nodup_iff.mpr distinct
  refine (sorted.and stillDistinct).imp fun ⟨notAbove, different⟩ => ?_
  rw [← Uri.lt_iff_bytes_lt]
  exact Std.lt_of_le_of_ne (of_decide_eq_true notAbove) different

end ElmDiagnostics
