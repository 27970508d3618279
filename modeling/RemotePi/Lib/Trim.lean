import Mathlib.Data.List.DropRight

/-!
# Trimming

The white space that `String.prototype.trim` takes from both ends of a text.

Results:
* `trimmed_trimmed`: a trimmed text is trimmed.
-/

namespace RemotePi.Lib

/-- White space and line ends. -/
def isWhiteSpace (c : Char) : Bool :=
  (9 ≤ c.toNat && c.toNat ≤ 13) || c.toNat = 0x20 || c.toNat = 0xa0 || c.toNat = 0x1680 ||
    (0x2000 ≤ c.toNat && c.toNat ≤ 0x200a) || c.toNat = 0x2028 || c.toNat = 0x2029 ||
    c.toNat = 0x202f || c.toNat = 0x205f || c.toNat = 0x3000 || c.toNat = 0xfeff

/-- A text without the white space at its ends. -/
def trimmed (s : String) : String :=
  String.ofList ((s.toList.dropWhile isWhiteSpace).rdropWhile isWhiteSpace)

theorem trimmed_trimmed (s : String) : trimmed (trimmed s) = trimmed s := by
  have hstrip : ∀ l : List Char,
      (((l.dropWhile isWhiteSpace).rdropWhile isWhiteSpace).dropWhile isWhiteSpace) =
        (l.dropWhile isWhiteSpace).rdropWhile isWhiteSpace := by
    intro l
    refine List.dropWhile_eq_self_iff.mpr fun hpos => ?_
    -- the first character of a prefix is the one that stopped the search from the left
    have hinitial := List.rdropWhile_prefix isWhiteSpace (l.dropWhile isWhiteSpace)
    have hlen : 0 < (l.dropWhile isWhiteSpace).length := hpos.trans_le hinitial.length_le
    rw [hinitial.getElem hpos]
    exact List.dropWhile_eq_self_iff.mp (List.dropWhile_idempotent isWhiteSpace l) hlen
  unfold trimmed
  rw [String.toList_ofList, hstrip, List.rdropWhile_idempotent]

end RemotePi.Lib
